import FlashEdge.Js
import FlashEdge.Core.ExecutionCircuitBreaker
import FlashEdge.Theory.OrderedMap

/-!
# Trades of the live client (`client/flash-client.ts`)

The operations of `FlashClient` that go through the execution circuit breaker:
opens (with or without a take-profit and a stop-loss), closes, collateral
changes, cancelled triggers and reversals, and with them the prebuilt
transactions of `core/ultra-tx-engine.ts`, which ask the same breaker.

`flashTrades` is the machine. A call runs up to its first wait in the step that
makes it, and every later step resumes one call with the answer it waited for:
the referral check, the open positions, the health check, the transaction
builder (with the validation of what it built), the broadcast. So an
interleaving of calls with any outcomes is a run. Calls are numbered, and an
execution has the number under which the breaker admitted it; the code keeps
neither.

A request to the builder is recorded without the fields that do not depend on
the call (the owner, the slippage, the referral accounts); the prices and sizes
that a result copies from the builder's answer are left out.
-/

namespace FlashEdge

/-- What the operations throw. An `execution` error is an `ExecutionError`, with
its code; `health` is whatever the health check throws. -/
inductive TradeError where
  | minimumLeverage (market : String) (min : ℚ)
  | maximumLeverage (market : String) (max : ℚ)
  | minimumCollateral (collateralAmount leverage : JsNumber) (side : TradeSide) (market : String)
  | message (text : String)
  | execution (errorCode text : String)
  | circuit (error : ExecutionError)
deriving DecidableEq, Repr

/-- The code that is recorded with a failure. -/
def TradeError.recordedCode : TradeError → String
  | .execution errorCode _ => errorCode
  | .circuit error => error.errorCode
  | _ => "API_ERROR"

/-- `getLeverageLimits(market)`; `leverageFn` is the look-up that the configuration
injects, if it has done so. -/
def getLeverageLimits (leverageFn : Option (String → ℚ)) (market : String) : ℚ × ℚ :=
  let max := match leverageFn with
    | some leverageFn => leverageFn market
    | none => 100
  (11 / 10, if max = 0 then 100 else max)

/-- A position as `getPositions` lists it. -/
structure FlashTrades.Position where
  pubkey : String
  market : Option String
  side : TradeSide
  sizeUsd : ℚ
deriving DecidableEq, Repr

/-- The position of a market and a side. -/
def findPosition (positions : List FlashTrades.Position) (market : String) (side : TradeSide) :
    Option FlashTrades.Position :=
  positions.find? fun p => p.market.map toUpperCase = some (toUpperCase market) ∧ p.side = side

/-! ## Requests -/

/-- The arguments of `openPosition`. -/
structure OpenArgs where
  market : String
  side : TradeSide
  collateralAmount : JsNumber
  leverage : JsNumber
  collateralToken : Option String := none
deriving DecidableEq, Repr

/-- The operations on an open position. -/
inductive PositionOperation where
  | closePosition (receiveToken : Option String) (closePercent closeAmount : Option ℚ)
  | addCollateral (amount : ℚ)
  | removeCollateral (amount : ℚ)
  | reversePosition
deriving DecidableEq, Repr

/-- What is asked of the transaction builder. -/
inductive BuildRequest where
  | openPosition (inputTokenSymbol outputTokenSymbol : String)
      (inputAmountUi leverage : JsNumber) (tradeType : TradeSide)
      (takeProfit stopLoss : Option JsNumber)
  | closePosition (positionKey : String) (inputUsdUi : ℚ) (withdrawTokenSymbol : String)
  | addCollateral (positionKey : String) (depositAmountUi : ℚ) (depositTokenSymbol : String)
  | removeCollateral (positionKey : String) (withdrawAmountUsdUi : ℚ)
      (withdrawTokenSymbol : String)
  | cancelTriggerOrder (marketSymbol : String) (side : TradeSide) (orderId : ℕ)
      (isStopLoss : Bool)
  | reversePosition (positionKey : String)
deriving DecidableEq, Repr

/-- The request of `executeOpenPosition`. -/
def openRequest (args : OpenArgs) (takeProfit stopLoss : Option JsNumber) : BuildRequest :=
  .openPosition (args.collateralToken.getD "USDC") args.market args.collateralAmount args.leverage
    args.side takeProfit stopLoss

/-- The percentage a close executes: the one given, else the one that the amount
is (an amount of zero counts as none), else all. -/
def effectiveClosePercent (sizeUsd : ℚ) (closePercent closeAmount : Option ℚ) : ℚ :=
  match closePercent with
  | some closePercent => closePercent
  | none =>
    match closeAmount with
    | some closeAmount => if closeAmount ≠ 0 then closeAmount / sizeUsd * 100 else 100
    | none => 100

/-- `closeAmountUsd` of `executeClosePosition`. -/
def closeAmountUsd (sizeUsd closePercent : ℚ) : ℚ := sizeUsd * closePercent / 100

namespace PositionOperation

/-- Whether a position is one the operation works on. -/
def accepts (op : PositionOperation) (pos : FlashTrades.Position) : Bool :=
  match op with
  | .closePosition _ _ _ => decide (pos.pubkey ≠ "") && decide (0 < pos.sizeUsd)
  | _ => decide (pos.pubkey ≠ "")

/-- What the operation throws without a position to work on. -/
def noPosition (op : PositionOperation) (market : String) (side : TradeSide) : TradeError :=
  match op with
  | .closePosition _ _ _ =>
    .message ("No open " ++ side.value ++ " position found on " ++ market ++ ".")
  | .reversePosition =>
    .message ("No open " ++ side.value ++ " position on " ++ market ++ " to reverse")
  | _ => .message ("No open " ++ side.value ++ " position on " ++ market)

/-- The request for a position. -/
def request (op : PositionOperation) (pos : FlashTrades.Position) : BuildRequest :=
  match op with
  | .closePosition receiveToken closePercent closeAmount =>
    .closePosition pos.pubkey
      (closeAmountUsd pos.sizeUsd (effectiveClosePercent pos.sizeUsd closePercent closeAmount))
      (receiveToken.getD "USDC")
  | .addCollateral amount => .addCollateral pos.pubkey amount "USDC"
  | .removeCollateral amount => .removeCollateral pos.pubkey amount "USDC"
  | .reversePosition => .reversePosition pos.pubkey

end PositionOperation

/-! ## The calls that wait -/

/-- What a call waits for. From `building` on it is an execution that the
breaker has admitted; `startMs` is the clock when its latency began to count. -/
inductive TradeStage where
  | referral (args : OpenArgs)
  | positions (market : String) (side : TradeSide) (op : PositionOperation)
  | health (request : BuildRequest) (startMs : ℚ)
  | building (request : BuildRequest) (exec : ℕ) (startMs : ℚ)
  | sending (request : BuildRequest) (exec : ℕ) (startMs : ℚ)
  | prebuilding (exec : ℕ)
deriving DecidableEq, Repr

/-- The execution a call has been admitted as. -/
def TradeStage.exec? : TradeStage → Option ℕ
  | .building _ exec _ => some exec
  | .sending _ exec _ => some exec
  | .prebuilding exec => some exec
  | _ => none

/-- A call that waits, with the trade lock it holds. -/
structure PendingCall where
  lock : Option String
  stage : TradeStage
deriving DecidableEq, Repr

structure FlashTrades where
  activeTrades : List String := []
  breaker : BreakerState := {}
  calls : OrderedMap ℕ PendingCall := .empty
  nextCall : ℕ := 0
deriving DecidableEq

/-- What an observer sees: the breaker's events, the requests to the builder, and
how a call ends. -/
inductive TradeEvent where
  | breaker (event : BreakerEvent)
  | requested (call : ℕ) (request : BuildRequest)
  | resolved (call : ℕ) (txSignature : String)
  | prebuilt (call : ℕ)
  | thrown (call : ℕ) (error : TradeError)
deriving DecidableEq, Repr

namespace FlashTrades

/-! ## The trade lock -/

/-- The key of a market and a side; the market is taken as it is written. -/
def lockKey (market : String) (side : TradeSide) : String := market ++ ":" ++ side.value

def tradeInProgress (market : String) (side : TradeSide) : TradeError :=
  .message ("A " ++ side.value ++ " trade on " ++ market ++
    " is already in progress. Wait for it to complete.")

def acquireTradeLock (s : FlashTrades) (market : String) (side : TradeSide) :
    Except TradeError FlashTrades :=
  let key := lockKey market side
  if key ∈ s.activeTrades then .error (tradeInProgress market side)
  else .ok { s with activeTrades := s.activeTrades ++ [key] }

def releaseTradeLock (s : FlashTrades) (lock : Option String) : FlashTrades :=
  { s with activeTrades := s.activeTrades.filter fun key => some key ≠ lock }

/-- A call begins to wait, or goes on to wait for something else. -/
def wait (s : FlashTrades) (call : ℕ) (lock : Option String) (stage : TradeStage) : FlashTrades :=
  { s with calls := s.calls.set call { lock, stage } }

@[simp] theorem wait_get? (s : FlashTrades) (call : ℕ) (lock : Option String)
    (stage : TradeStage) : (s.wait call lock stage).calls.get? call = some ⟨lock, stage⟩ :=
  OrderedMap.get?_set_self _ _ _

/-- A call ends: its `finally` releases the lock it holds. -/
def settle (s : FlashTrades) (call : ℕ) (lock : Option String) : FlashTrades :=
  { s with calls := s.calls.delete call }.releaseTradeLock lock

/-- A call ends with an error. -/
def throws (s : FlashTrades) (call : ℕ) (lock : Option String) (error : TradeError) :
    FlashTrades × List TradeEvent :=
  (s.settle call lock, [.thrown call error])

/-- Take the lock and begin to wait. -/
def lockAndWait (s : FlashTrades) (call : ℕ) (market : String) (side : TradeSide)
    (stage : TradeStage) : FlashTrades × List TradeEvent :=
  match s.acquireTradeLock market side with
  | .error error => s.throws call none error
  | .ok s => (s.wait call (some (lockKey market side)) stage, [])

/-! ## The calls -/

/-- A call with its arguments. For a prebuilt transaction the argument is what
the validation of its instructions says. -/
inductive Call where
  | openPosition (args : OpenArgs)
  | openPositionAtomic (args : OpenArgs) (takeProfit stopLoss : Option JsNumber)
  | onPosition (market : String) (side : TradeSide) (op : PositionOperation)
  | cancelTriggerOrder (market : String) (side : TradeSide) (orderId : ℕ) (isStopLoss : Bool)
  | prebuildTransaction (validation : Except TradeError Unit)

/-- The checks of `openPosition` before it takes the lock. -/
def validateOpen (leverageFn : Option (String → ℚ)) (args : OpenArgs) : Except TradeError Unit :=
  let limits := getLeverageLimits leverageFn args.market
  if args.leverage.ltRat limits.1 then .error (.minimumLeverage args.market limits.1)
  else if args.leverage.gtRat limits.2 then .error (.maximumLeverage args.market limits.2)
  else if args.collateralAmount.ltRat 10 then
    .error (.minimumCollateral args.collateralAmount args.leverage args.side args.market)
  else .ok ()

/-- `executeOpenPosition` up to its first wait, with the lock taken before. -/
def executeOpenPosition (s : FlashTrades) (call : ℕ) (args : OpenArgs)
    (takeProfit stopLoss : Option JsNumber) (now : ℚ) : FlashTrades × List TradeEvent :=
  s.lockAndWait call args.market args.side (.health (openRequest args takeProfit stopLoss) now)

/-- A call up to its first wait. -/
def start (s : FlashTrades) (call : ℕ) (now : ℚ) : Call → FlashTrades × List TradeEvent
  | .openPosition args => (s.wait call none (.referral args), [])
  | .openPositionAtomic args takeProfit stopLoss =>
    if takeProfit.isSome ∨ stopLoss.isSome then
      -- neither `validateLeverage` nor the minimum collateral is checked here
      s.executeOpenPosition call args takeProfit stopLoss now
    else (s.wait call none (.referral args), [])
  | .onPosition market side op => s.lockAndWait call market side (.positions market side op)
  | .cancelTriggerOrder market side orderId isStopLoss =>
    -- no lock: it waits for the health check at once
    (s.wait call none (.health (.cancelTriggerOrder market side orderId isStopLoss) now), [])
  | .prebuildTransaction validation =>
    match s.breaker.cb.checkExecution now with
    | .error error =>
      let r := s.throws call none (.circuit error)
      (r.1, .breaker (.refused error) :: r.2)
    | .ok cb =>
      let exec := s.breaker.executions
      let s := { s with breaker := ⟨cb, exec + 1⟩ }
      match validation with
      | .error error =>
        -- the breaker has admitted the execution already
        let r := s.throws call none error
        (r.1, .breaker (.admitted exec) :: r.2)
      | .ok () => (s.wait call none (.prebuilding exec), [.breaker (.admitted exec)])

/-! ## What resumes a call -/

/-- Record the result of an execution in the breaker. -/
def record (s : FlashTrades) (c : BreakerCall) : FlashTrades × List TradeEvent :=
  ({ s with breaker := (s.breaker.call c).1 }, (s.breaker.call c).2.map .breaker)

/-- `validateReferralOnChain` has returned; it never throws. -/
def referralValidated (leverageFn : Option (String → ℚ)) (s : FlashTrades) (call : ℕ) (now : ℚ) :
    PendingCall → Option (FlashTrades × List TradeEvent)
  | ⟨_, .referral args⟩ =>
    match validateOpen leverageFn args with
    | .error error => some (s.throws call none error)
    | .ok () => some (s.executeOpenPosition call args none none now)
  | _ => none

/-- `getPositions` has returned; it never throws. -/
def positionsFetched (s : FlashTrades) (call : ℕ) (positions : List Position) (now : ℚ) :
    PendingCall → Option (FlashTrades × List TradeEvent)
  | ⟨lock, .positions market side op⟩ =>
    match (findPosition positions market side).filter op.accepts with
    | none => some (s.throws call lock (op.noPosition market side))
    | some pos => some (s.wait call lock (.health (op.request pos) now), [])
  | _ => none

/-- The health check has answered: ask the breaker, and the builder if it admits. -/
def healthChecked (s : FlashTrades) (call : ℕ) (health : Except TradeError Unit) (now : ℚ) :
    PendingCall → Option (FlashTrades × List TradeEvent)
  | ⟨lock, .health request startMs⟩ =>
    match health with
    | .error error => some (s.throws call lock error)
    | .ok () =>
      match s.breaker.cb.checkExecution now with
      | .error error =>
        let r := s.throws call lock (.circuit error)
        some (r.1, .breaker (.refused error) :: r.2)
      | .ok cb =>
        let exec := s.breaker.executions
        -- a reversal starts its clock here
        let startMs := match request with
          | .reversePosition _ => now
          | _ => startMs
        some ({ s with breaker := ⟨cb, exec + 1⟩ }.wait call lock
            (.building request exec startMs),
          [.breaker (.admitted exec), .requested call request])
  | _ => none

/-- An admitted execution fails: the `catch` of every operation but the reversal
records it. -/
def executionFailed (s : FlashTrades) (call : ℕ) (lock : Option String) (request : BuildRequest)
    (exec : ℕ) (startMs now : ℚ) (error : TradeError) : FlashTrades × List TradeEvent :=
  match request with
  | .reversePosition _ => s.throws call lock error
  | _ =>
    let r := s.record (.recordFailure exec now error.recordedCode (now - startMs))
    let t := r.1.throws call lock error
    (t.1, r.2 ++ t.2)

/-- The builder has answered, and its transaction has been validated. -/
def built (s : FlashTrades) (call : ℕ) (answer : Except TradeError Unit) (now : ℚ) :
    PendingCall → Option (FlashTrades × List TradeEvent)
  | ⟨lock, .building request exec startMs⟩ =>
    match answer with
    | .error error => some (s.executionFailed call lock request exec startMs now error)
    | .ok () => some (s.wait call lock (.sending request exec startMs), [])
  | _ => none

/-- The broadcast has ended. -/
def sent (s : FlashTrades) (call : ℕ) (answer : Except TradeError String) (now : ℚ) :
    PendingCall → Option (FlashTrades × List TradeEvent)
  | ⟨lock, .sending request exec startMs⟩ =>
    match answer with
    | .error error => some (s.executionFailed call lock request exec startMs now error)
    | .ok txSignature =>
      let r := s.record (.recordSuccess exec now (some (now - startMs)))
      some (r.1.settle call lock, r.2 ++ [.resolved call txSignature])
  | _ => none

/-- A prebuilt transaction has its blockhash and its fee, or an error. -/
def prebuildEnded (s : FlashTrades) (call : ℕ) (answer : Except TradeError Unit) :
    PendingCall → Option (FlashTrades × List TradeEvent)
  | ⟨lock, .prebuilding _⟩ =>
    match answer with
    | .error error => some (s.throws call lock error)
    | .ok () => some (s.settle call lock, [.prebuilt call])
  | _ => none

/-! ## The machine -/

inductive Action where
  | call (c : Call) (now : ℚ)
  | referralValidated (call : ℕ) (now : ℚ)
  | positionsFetched (call : ℕ) (positions : List Position) (now : ℚ)
  | healthChecked (call : ℕ) (health : Except TradeError Unit) (now : ℚ)
  | built (call : ℕ) (answer : Except TradeError Unit) (now : ℚ)
  | sent (call : ℕ) (answer : Except TradeError String) (now : ℚ)
  | prebuildEnded (call : ℕ) (answer : Except TradeError Unit)

def step (leverageFn : Option (String → ℚ)) (s : FlashTrades) :
    Action → Option (FlashTrades × List TradeEvent)
  | .call c now => some ({ s with nextCall := s.nextCall + 1 }.start s.nextCall now c)
  | .referralValidated call now =>
    (s.calls.get? call).bind (s.referralValidated leverageFn call now)
  | .positionsFetched call positions now =>
    (s.calls.get? call).bind (s.positionsFetched call positions now)
  | .healthChecked call health now => (s.calls.get? call).bind (s.healthChecked call health now)
  | .built call answer now => (s.calls.get? call).bind (s.built call answer now)
  | .sent call answer now => (s.calls.get? call).bind (s.sent call answer now)
  | .prebuildEnded call answer => (s.calls.get? call).bind (s.prebuildEnded call answer)

end FlashTrades

/-- The trades of a client, with the leverage look-up of its configuration. -/
def flashTrades (leverageFn : Option (String → ℚ)) :
    Machine FlashTrades FlashTrades.Action TradeEvent where
  init := {}
  step := FlashTrades.step leverageFn

end FlashEdge
