import FlashEdge.Security.CircuitBreaker
import FlashEdge.Security.SigningGuard
import FlashEdge.Security.TradingGate
import FlashEdge.Theory.Machine
import FlashEdge.Tools.FlashTools

/-!
# The trade tools (`tools/flash-tools.ts`, `tools/order-tools.ts`)

A trade tool either shows a preview, whose `executeAction` calls the client once
the user has confirmed it, or (the trigger and limit order tools) calls the
client at once. The preview is where the kill switch, the breaker and the rate
limit are asked. `tradeTools` is the machine of all of them on the one gate, the
one breaker and the one guard of the process: a task is a tool at an `await`, and
the steps of other tasks come in between.

The world is part of the state as far as prices do not move it: the open
positions and the limit orders. What a signed transaction did on chain is told by
the step that ends the client's call, which may throw although the transaction
has landed. Texts, the audit log, the journal (it has a module of its own) and
the shadow trades are left out.
-/

namespace FlashEdge

namespace TradeTools

/-- L1: the minimum collateral in USD. -/
def MIN_COLLATERAL_USD : ℚ := 10

/-- The optional methods of the client. -/
structure ClientMethods where
  openPositionAtomic : Bool := true
  reversePosition : Bool := true
  placeTriggerOrder : Bool := true
  cancelTriggerOrder : Bool := true
  placeLimitOrder : Bool := true
  cancelLimitOrder : Bool := true
  editLimitOrder : Bool := true
  getUserOrders : Bool := true
deriving DecidableEq

/-- What a tool reads of its context. -/
structure ToolContext where
  simulationMode : Bool := false
  walletConnected : Bool := true
  degenMode : Bool := false
  client : ClientMethods := {}
deriving DecidableEq

/-- What the configuration and the trading hours say about a market. -/
structure MarketRules where
  supported : Bool := true
  isOpen : Bool := true
  maxLeverage : ℚ := 100
  degenMaxLeverage : ℚ := 100
  hasDegenMode : Bool := false
  degenMinLeverage : ℚ := 0
deriving DecidableEq

/-- `getMaxLeverage(market, degenMode)`. -/
def MarketRules.getMaxLeverage (rules : MarketRules) (degenMode : Bool) : ℚ :=
  if degenMode then rules.degenMaxLeverage else rules.maxLeverage

/-- Why a tool gives up before its preview or its call. -/
inductive ToolRefusal where
  | message (text : String)
  | marketNotSupported (market : String)
  | marketClosed (market : String)
  | minimumCollateral (collateral : ℚ)
  | maximumLeverage (market : String) (maxLeverage : ℚ)
  | enableDegenMode (market : String) (maxLeverage degenMax degenMin : ℚ)
  | degenMinimum (market : String) (degenMin leverage : ℚ)
  | gate (reason : GateRefusal)
  | breaker (reason : CircuitBreaker.TripReason)
  | protocolParameter (detail : String)
  | signing (reason : SigningRefusal)
  | close (reason : CloseRefusal)
  | noOpenPosition (side : TradeSide) (market : String)
  | exceedsCollateral (amount collateralUsd : ℚ)
  | leavesDust (amount : ℚ)
  | orderNotFound (orderId : ℕ)
deriving DecidableEq

/-! ## The checks that read no gate -/

/-- `validateLiveTradeContext`. -/
def validateLiveTradeContext (context : ToolContext) : Except ToolRefusal Unit :=
  if context.simulationMode ∨ context.walletConnected then .ok ()
  else .error (.message ("No wallet connected. Use \"wallet import <name> <path>\" or " ++
    "\"wallet connect <path>\"."))

/-- The market is supported, and it is open. -/
def checkMarket (rules : MarketRules) (market : String) : Except ToolRefusal Unit :=
  if ¬ rules.supported then .error (.marketNotSupported market)
  else if ¬ rules.isOpen then .error (.marketClosed market)
  else .ok ()

/-- The two numbers of an open, when they are finite and positive. -/
def checkOpenNumbers (collateral leverage : JsNumber) : Except ToolRefusal (ℚ≥0 × ℚ≥0) :=
  match collateral.finitePositive?, leverage.finitePositive? with
  | some collateral, some leverage => .ok (collateral.toNNRat, leverage.toNNRat)
  | _, _ => .error (.message
      "  Invalid trade parameters: collateral and leverage must be positive numbers.")

/-- The leverage against the limits of the market. -/
def checkLeverage (context : ToolContext) (rules : MarketRules) (market : String)
    (leverage : ℚ) : Except ToolRefusal Unit :=
  let maxLev := rules.getMaxLeverage context.degenMode
  if maxLev < leverage then
    if ¬ context.degenMode ∧ rules.hasDegenMode then
      .error (.enableDegenMode market maxLev (rules.getMaxLeverage true) rules.degenMinLeverage)
    else .error (.maximumLeverage market maxLev)
  else if context.degenMode ∧ rules.hasDegenMode ∧
      rules.getMaxLeverage false < leverage ∧ leverage < rules.degenMinLeverage then
    .error (.degenMinimum market rules.degenMinLeverage leverage)
  else .ok ()

/-- The parameters of a market open. -/
structure OpenOrder where
  market : String
  side : TradeSide
  collateral : ℚ≥0
  leverage : ℚ≥0
  takeProfit : Option ℚ := none
  stopLoss : Option ℚ := none
deriving DecidableEq

def OpenOrder.sizeUsd (o : OpenOrder) : ℚ≥0 := o.collateral * o.leverage

/-- What `flash_open_position` checks before it asks the gates. -/
def checkOpen (context : ToolContext) (rules : MarketRules) (market : String) (side : TradeSide)
    (collateral leverage : JsNumber) (takeProfit stopLoss : Option ℚ) :
    Except ToolRefusal OpenOrder := do
  validateLiveTradeContext context
  checkMarket rules market
  let (collateral, leverage) ← checkOpenNumbers collateral leverage
  if (collateral : ℚ) < MIN_COLLATERAL_USD then .error (.minimumCollateral collateral)
  checkLeverage context rules market leverage
  return { market, side, collateral, leverage, takeProfit, stopLoss }

/-- What `flash_close_position` checks before it asks the gates. -/
def checkClose (context : ToolContext) (rules : MarketRules) (market : String)
    (closePercent closeAmount : Option JsNumber) :
    Except ToolRefusal (Option ℚ × Option ℚ) := do
  let closePercent ← (checkClosePercent closePercent).mapError .close
  let closeAmount ← (checkCloseAmount closeAmount).mapError .close
  validateLiveTradeContext context
  checkMarket rules market
  return (closePercent, closeAmount)

/-- What `flash_add_collateral` and `flash_remove_collateral` check before they
ask the gates. -/
def checkCollateral (context : ToolContext) (rules : MarketRules) (market : String)
    (amount : JsNumber) : Except ToolRefusal ℚ := do
  let amount ← match amount.finitePositive? with
    | some amount => Except.ok amount
    | none => .error (.message "  Amount must be a positive number.")
  validateLiveTradeContext context
  checkMarket rules market
  return amount

/-! ## The positions

`fetched` is what `getPositions` answers: an error, or the open positions. -/

def findOpen (positions : List OpenPosition) (market : String) (side : TradeSide) :
    Option OpenPosition :=
  positions.find? fun p => p.isOn market side

/-- The position must exist and be as large as the amount that is closed; if the
positions could not be fetched, a warning. -/
def preCheckClosePosition (fetched : Except String (List OpenPosition)) (market : String)
    (side : TradeSide) (closeAmount : Option ℚ) : Except ToolRefusal Unit :=
  match fetched with
  | .error _ => .ok ()
  | .ok positions =>
    match findOpen positions market side with
    | none => .error (.noOpenPosition side market)
    | some pos =>
      match closeAmount with
      | none => .ok ()
      | some closeAmount =>
        if (pos.sizeUsd : ℚ) < closeAmount then
          .error (.close (.closeAmountExceedsSize closeAmount pos.sizeUsd))
        else .ok ()

def preCheckAddCollateral (fetched : Except String (List OpenPosition)) (market : String)
    (side : TradeSide) : Except ToolRefusal Unit :=
  match fetched with
  | .error _ => .ok ()
  | .ok positions =>
    if (findOpen positions market side).isNone then .error (.noOpenPosition side market)
    else .ok ()

/-- C6: what is left of the collateral must not be dust. A collateral of zero is
not looked at. -/
def preCheckRemoveCollateral (fetched : Except String (List OpenPosition)) (market : String)
    (side : TradeSide) (amount : ℚ) : Except ToolRefusal Unit :=
  match fetched with
  | .error _ => .ok ()
  | .ok positions =>
    match findOpen positions market side with
    | none => .error (.noOpenPosition side market)
    | some pos =>
      if pos.collateralUsd ≠ 0 ∧ pos.collateralUsd ≤ amount then
        .error (.exceedsCollateral amount pos.collateralUsd)
      else if pos.collateralUsd ≠ 0 ∧ pos.collateralUsd - amount < MIN_COLLATERAL_USD then
        .error (.leavesDust amount)
      else .ok ()

/-! ## Calls of the client -/

/-- The calls that change a trade. -/
inductive ClientCall where
  | openPosition (o : OpenOrder)
  | openPositionAtomic (o : OpenOrder)
  | closePosition (market : String) (side : TradeSide) (closePercent closeAmount : Option ℚ)
  | addCollateral (market : String) (side : TradeSide) (amount : ℚ)
  | removeCollateral (market : String) (side : TradeSide) (amount : ℚ)
  | reversePosition (market : String) (side : TradeSide)
  | placeTriggerOrder (market : String) (side : TradeSide) (triggerPrice : ℚ) (isStopLoss : Bool)
  | cancelTriggerOrder (market : String) (side : TradeSide) (isStopLoss : Bool)
  | placeLimitOrder (market : String) (side : TradeSide) (collateral leverage : ℚ≥0)
      (limitPrice : ℚ)
  | cancelLimitOrder (market : String) (side : TradeSide) (orderId : ℕ)
  | editLimitOrder (market : String) (side : TradeSide) (orderId : ℕ) (limitPrice : ℚ)
deriving DecidableEq

/-- A limit order that has not filled. -/
structure OnChainOrder where
  orderId : ℕ
  market : String
  side : TradeSide
  collateral : ℚ≥0
  leverage : ℚ≥0
deriving DecidableEq

def OnChainOrder.sizeUsd (o : OnChainOrder) : ℚ≥0 := o.collateral * o.leverage

/-- What a transaction did when it landed: the PnL a close or a reverse realized,
the size it closed, the size a reverse opened, the id a limit order was given. -/
structure Landing where
  pnl : JsNumber := .finite 0
  closedSizeUsd : ℚ≥0 := 0
  newSizeUsd : ℚ≥0 := 0
  orderId : ℕ := 0
deriving DecidableEq

/-- How a call ends: with a result, or with an error, after which the transaction
may have landed already or may still land. -/
inductive Answer where
  | ok (landing : Landing) (triggerOrdersIncluded : Bool)
  | failed (landing : Option Landing)
deriving DecidableEq

/-- The landing that an answer tells of. -/
def Answer.landing? : Answer → Option Landing
  | .ok landing _ => some landing
  | .failed landing => landing

/-- A position grows, or is new. -/
def addPosition (market : String) (side : TradeSide) (sizeUsd : ℚ≥0) (collateralUsd : ℚ) :
    List OpenPosition → List OpenPosition
  | [] => [{ market, side, sizeUsd, collateralUsd }]
  | p :: ps =>
    if p.isOn market side then
      { p with sizeUsd := p.sizeUsd + sizeUsd, collateralUsd := p.collateralUsd + collateralUsd }
        :: ps
    else p :: addPosition market side sizeUsd collateralUsd ps

/-- A position shrinks by `closed`, as far as it can. -/
def closeSize (market : String) (side : TradeSide) (closed : ℚ≥0) :
    List OpenPosition → List OpenPosition
  | [] => []
  | p :: ps =>
    if p.isOn market side then
      if p.sizeUsd ≤ closed then ps
      else { p with sizeUsd := p.sizeUsd - closed } :: ps
    else p :: closeSize market side closed ps

/-- A position is removed whole. -/
def removePosition (market : String) (side : TradeSide) :
    List OpenPosition → List OpenPosition
  | [] => []
  | p :: ps => if p.isOn market side then ps else p :: removePosition market side ps

/-- The collateral of a position changes. -/
def changeCollateral (market : String) (side : TradeSide) (change : ℚ)
    (positions : List OpenPosition) : List OpenPosition :=
  positions.map fun p =>
    if p.isOn market side then { p with collateralUsd := p.collateralUsd + change } else p

def oppositeSide : TradeSide → TradeSide
  | .Long => .Short
  | .Short => .Long

/-- The open positions after the transaction of a call has landed. -/
def landedPositions (positions : List OpenPosition) (landing : Landing) :
    ClientCall → List OpenPosition
  | .openPosition o => addPosition o.market o.side o.sizeUsd o.collateral positions
  | .openPositionAtomic o => addPosition o.market o.side o.sizeUsd o.collateral positions
  | .closePosition market side _ _ => closeSize market side landing.closedSizeUsd positions
  | .addCollateral market side amount => changeCollateral market side amount positions
  | .removeCollateral market side amount => changeCollateral market side (-amount) positions
  | .reversePosition market side =>
    addPosition market (oppositeSide side) landing.newSizeUsd 0
      (removePosition market side positions)
  | _ => positions

/-- The limit orders after the transaction of a call has landed. -/
def landedOrders (orders : List OnChainOrder) (landing : Landing) : ClientCall → List OnChainOrder
  | .placeLimitOrder market side collateral leverage _ =>
    orders ++ [{ orderId := landing.orderId, market, side, collateral, leverage }]
  | .cancelLimitOrder market side orderId =>
    orders.filter fun o => ¬ (o.market = market ∧ o.side = side ∧ o.orderId = orderId)
  | _ => orders

/-- The loss that a landed transaction realized. -/
def realizedLoss (landing : Landing) : ClientCall → ℚ
  | .closePosition _ _ _ _ => CircuitBreaker.lossOf landing.pnl
  | .reversePosition _ _ => CircuitBreaker.lossOf landing.pnl
  | _ => 0

/-! ## Tasks -/

/-- What the `executeAction` of a preview holds on to. -/
inductive ExecuteAction where
  | openPosition (o : OpenOrder)
  | closePosition (market : String) (side : TradeSide) (closePercent closeAmount : Option ℚ)
  | addCollateral (market : String) (side : TradeSide) (amount : ℚ)
  | removeCollateral (market : String) (side : TradeSide) (amount : ℚ)
  | closeAll (first : OpenPosition) (rest : List OpenPosition)
  | reversePosition (market : String) (side : TradeSide)
deriving DecidableEq

/-- The call of the client that a tool waits for, with what the tool goes on with. -/
inductive Waiting where
  | opening (o : OpenOrder) (useAtomic : Bool)
  | closing (market : String) (side : TradeSide) (closePercent closeAmount : Option ℚ)
  | addingCollateral (market : String) (side : TradeSide) (amount : ℚ)
  | removingCollateral (market : String) (side : TradeSide) (amount : ℚ)
  | closingAll (pos : OpenPosition) (rest : List OpenPosition)
  | reversing (market : String) (side : TradeSide)
  | placingTakeProfit (o : OpenOrder) (takeProfit : ℚ)
  | placingStopLoss (o : OpenOrder) (stopLoss : ℚ)
  | ordering (call : ClientCall)
deriving DecidableEq

def Waiting.call : Waiting → ClientCall
  | opening o useAtomic => if useAtomic then .openPositionAtomic o else .openPosition o
  | closing market side closePercent closeAmount =>
    .closePosition market side closePercent closeAmount
  | addingCollateral market side amount => .addCollateral market side amount
  | removingCollateral market side amount => .removeCollateral market side amount
  | closingAll pos _ => .closePosition pos.market pos.side none none
  | reversing market side => .reversePosition market side
  | placingTakeProfit o takeProfit => .placeTriggerOrder o.market o.side takeProfit false
  | placingStopLoss o stopLoss => .placeTriggerOrder o.market o.side stopLoss true
  | ordering call => call

/-- The call of a single close. -/
def Waiting.isClosing : Waiting → Prop
  | .closing _ _ _ _ => True
  | _ => False

/-- A tool at an `await`. -/
inductive Task where
  /-- `flash_open_position` fetches the positions for the exposure check -/
  | exposure (o : OpenOrder)
  /-- `flash_open_position` fetches the fee rates -/
  | feeRates (o : OpenOrder)
  | preview (action : ExecuteAction)
  | calling (waiting : Waiting)
  /-- an open has succeeded, and its TP and SL have not been placed -/
  | triggers (o : OpenOrder)
deriving DecidableEq

/-- The trigger and limit order tools, with their parameters. -/
inductive OrderTool where
  | setTpSlTool (market : String) (side : TradeSide) (isStopLoss : Bool) (price : ℚ)
  /-- `listed`: whether the order is among the user's orders -/
  | removeTpSlTool (market : String) (side : TradeSide) (isStopLoss listed : Bool)
  | limitOrderPlaceTool (market : String) (side : TradeSide) (leverage collateral : ℚ≥0)
      (limitPrice : ℚ)
  | limitOrderCancelTool (orderId : String) (market : Option String) (side : Option TradeSide)
  | limitOrderEditTool (orderId : ℕ) (market : String) (side : TradeSide)
      (limitPrice : Option ℚ)
deriving DecidableEq

/-- The tools, with their parameters and what they read of the market. -/
inductive Tool where
  | flashOpenPosition (rules : MarketRules) (market : String) (side : TradeSide)
      (collateral leverage : JsNumber) (takeProfit stopLoss : Option ℚ)
  | flashClosePosition (rules : MarketRules) (market : String) (side : TradeSide)
      (closePercent closeAmount : Option JsNumber)
  | flashAddCollateral (rules : MarketRules) (market : String) (side : TradeSide)
      (amount : JsNumber)
  | flashRemoveCollateral (rules : MarketRules) (market : String) (side : TradeSide)
      (amount : JsNumber)
  | flashCloseAll
  | flashReversePosition (market : String) (side : TradeSide)
  | order (tool : OrderTool)
deriving DecidableEq

/-- The tools that ask the guard for a slot when they are executed. A market open
asks later, and the order tools never do. -/
def Tool.asksSlot : Tool → Bool
  | .flashClosePosition _ _ _ _ _ => true
  | .flashAddCollateral _ _ _ _ => true
  | .flashRemoveCollateral _ _ _ _ => true
  | .flashCloseAll => true
  | .flashReversePosition _ _ => true
  | .flashOpenPosition _ _ _ _ _ _ _ => false
  | .order _ => false

/-- What an observer sees. A call of the client comes with the kill switch and
the breaker as they are at that moment. -/
inductive ToolsEvent where
  | refused (task : ℕ) (reason : ToolRefusal)
  | called (task : ℕ) (call : ClientCall) (tradingEnabled : Bool)
      (tripped : Option CircuitBreaker.TripReason)
  | landed (task : ℕ) (call : ClientCall) (landing : Landing)
  | filled (order : OnChainOrder)
  | session (event : SessionEvent)
  | signing (task : ℕ) (event : SigningEvent)
  | signed (task : ℕ) (now : ℚ)
deriving DecidableEq

end TradeTools

open TradeTools in
/-- The process: the gate, the breaker and the guard, the world, and the tools
that run. -/
structure ToolsState where
  gate : TradingGate
  breaker : CircuitBreaker
  guard : SigningGuard
  clock : ℚ := 0
  positions : List OpenPosition := []
  orders : List OnChainOrder := []
  /-- calls that have thrown and whose transaction may still land -/
  unsettled : List (ℕ × ClientCall) := []
  nextTask : ℕ := 0
  tasks : ℕ → Option Task := fun _ => none

namespace TradeTools

/-- Steps and their parts: the state afterwards, with the events. -/
abbrev Result := ToolsState × List ToolsEvent

/-- `getPositions`, when it is answered or not. -/
def getPositions (s : ToolsState) (reachable : Bool) : Except String (List OpenPosition) :=
  if reachable then .ok s.positions else .error "getPositions failed"

/-- `getUserOrders`, as to the limit orders. -/
def getOrders (s : ToolsState) (reachable : Bool) : Except String (List OnChainOrder) :=
  if reachable then .ok s.orders else .error "getUserOrders failed"

def withTask (s : ToolsState) (id : ℕ) (task : Task) : ToolsState :=
  { s with tasks := Function.update s.tasks id (some task) }

def endTask (s : ToolsState) (id : ℕ) : ToolsState :=
  { s with tasks := Function.update s.tasks id none }

/-- The tool returns with an error. -/
def refuse (s : ToolsState) (id : ℕ) (reason : ToolRefusal) : Result :=
  (endTask s id, [.refused id reason])

/-- The tool calls the client and waits. -/
def callClient (s : ToolsState) (id : ℕ) (waiting : Waiting) : Result :=
  (withTask s id (.calling waiting),
    [.called id waiting.call s.gate.tradingEnabled s.breaker.tripped])

/-- What was done before `r`, then `r`. -/
def andThen (es : List ToolsEvent) (r : Result) : Result := (r.1, es ++ r.2)

/-- Ask the breaker, and go on if it allows trading. -/
def askBreaker (s : ToolsState) (id : ℕ) (now : ℚ) (next : ToolsState → Result) : Result :=
  let r := s.breaker.check now
  let day := CircuitBreaker.todayStr now
  let s := { s with breaker := r.1 }
  match r.2 with
  | .allowed => andThen [.session (.checked day true)] (next s)
  | .halted reason => andThen [.session (.checked day false)] (refuse s id (.breaker reason))
  | .alreadyTripped reason =>
    andThen [.session (.checked day false)] (refuse s id (.breaker reason))

/-- Ask for a slot, and go on if it is granted. -/
def askSlot (s : ToolsState) (id : ℕ) (now : ℚ) (next : ToolsState → Result) : Result :=
  let r := s.guard.checkRateLimit now
  let s' := { s with guard := r.1 }
  match r.2 with
  | none => andThen [.signing id (.granted now s.guard.config)] (next s')
  | some reason =>
    andThen [.signing id (.refused reason)] (refuse s' id (.signing reason))

/-- The kill switch, the breaker and the rate limit, in this order. -/
def passGates (s : ToolsState) (id : ℕ) (now : ℚ) (next : ToolsState → Result) : Result :=
  match s.gate.checkKillSwitch with
  | .error reason => refuse s id (.gate reason)
  | .ok () => askBreaker s id now fun s => askSlot s id now next

/-- Show the preview, unless the last check refuses. -/
def preview (s : ToolsState) (id : ℕ) (check : Except ToolRefusal Unit)
    (action : ExecuteAction) : Result :=
  match check with
  | .error reason => refuse s id reason
  | .ok () => (withTask s id (.preview action), [])

/-- `parseInt(orderId.replace(/[^0-9]/g, ''), 10)`. -/
def parseOrderId (orderId : String) : Option ℕ :=
  let digits := orderId.toList.filter Char.isDigit
  if digits = [] then none
  else some (digits.foldl (fun n c => 10 * n + (c.toNat - '0'.toNat)) 0)

/-- The order to cancel: as given, or as found among the limit orders. -/
def cancelTarget (orders : Except String (List OnChainOrder)) (orderId : String)
    (market : Option String) (side : Option TradeSide) : Except ToolRefusal ClientCall :=
  match parseOrderId orderId with
  | none => .error (.message ("  Invalid order ID: " ++ orderId))
  | some idNum =>
    match market.filter (· ≠ ""), side with
    | some market, some side => .ok (.cancelLimitOrder market side idNum)
    | _, _ =>
      match orders with
      | .error text => .error (.message ("  Failed to cancel limit order: " ++ text))
      | .ok orders =>
        match orders.find? fun o => o.orderId = idNum with
        | none => .error (.orderNotFound idNum)
        | some target => .ok (.cancelLimitOrder target.market target.side idNum)

/-- The call a trigger or limit order tool makes: in live mode, if the client has
the method. No gate is asked. -/
def directCall (context : ToolContext) (orders : Except String (List OnChainOrder)) :
    OrderTool → Except ToolRefusal ClientCall
  | .setTpSlTool market side isStopLoss price =>
    if context.simulationMode then
      .error (.message ("  On-chain TP/SL requires live mode. TP/SL orders are placed on the " ++
        "Flash Trade protocol and require a real wallet."))
    else if ¬ context.client.placeTriggerOrder then
      .error (.message "  TP/SL orders are not supported by the current client.")
    else .ok (.placeTriggerOrder market side price isStopLoss)
  | .removeTpSlTool market side isStopLoss listed =>
    if context.simulationMode then .error (.message "  On-chain TP/SL requires live mode.")
    else if ¬ (context.client.getUserOrders ∧ context.client.cancelTriggerOrder) then
      .error (.message "  Cancel trigger orders not supported by the current client.")
    else
      match orders with
      | .error text =>
        .error (.message ((if isStopLoss then "  Failed to remove SL: "
          else "  Failed to remove TP: ") ++ text))
      | .ok _ =>
        if listed then .ok (.cancelTriggerOrder market side isStopLoss)
        else .error (.message ((if isStopLoss then "  No SL order found for "
          else "  No TP order found for ") ++ market ++ " " ++ side.value ++ "."))
  | .limitOrderPlaceTool market side leverage collateral limitPrice =>
    if context.simulationMode then
      .error (.message "  Limit orders are simulated locally in simulation mode.")
    else if ¬ context.client.placeLimitOrder then
      .error (.message "  Limit orders are not supported by the current client.")
    else .ok (.placeLimitOrder market side collateral leverage limitPrice)
  | .limitOrderCancelTool orderId market side =>
    if context.simulationMode then
      .error (.message "  On-chain limit orders require live mode.")
    else if ¬ (context.client.cancelLimitOrder ∧ context.client.getUserOrders) then
      .error (.message "  Cancel limit orders not supported by the current client.")
    else cancelTarget orders orderId market side
  | .limitOrderEditTool orderId market side limitPrice =>
    if context.simulationMode then
      .error (.message "  On-chain limit orders require live mode.")
    else
      match limitPrice.filter (· ≠ 0) with
      | none => .error (.message "  New limit price is required.")
      | some limitPrice =>
        if ¬ context.client.editLimitOrder then
          .error (.message "  Edit limit order not supported by the current client.")
        else .ok (.editLimitOrder market side orderId limitPrice)

/-- `execute` of a tool, up to the first `await` that a gate is asked after. -/
def execute (s : ToolsState) (id : ℕ) (context : ToolContext) (reachable : Bool) (now : ℚ) :
    Tool → Result
  | .flashOpenPosition rules market side collateral leverage takeProfit stopLoss =>
    match checkOpen context rules market side collateral leverage takeProfit stopLoss with
    | .error reason => refuse s id reason
    | .ok o =>
      match s.gate.checkKillSwitch with
      | .error reason => refuse s id (.gate reason)
      | .ok () => (withTask s id (.exposure o), [])
  | .flashClosePosition rules market side closePercent closeAmount =>
    match checkClose context rules market closePercent closeAmount with
    | .error reason => refuse s id reason
    | .ok (closePercent, closeAmount) => passGates s id now fun s =>
      preview s id (preCheckClosePosition (getPositions s reachable) market side closeAmount)
        (.closePosition market side closePercent closeAmount)
  | .flashAddCollateral rules market side amount =>
    match checkCollateral context rules market amount with
    | .error reason => refuse s id reason
    | .ok amount => passGates s id now fun s =>
      preview s id (preCheckAddCollateral (getPositions s reachable) market side)
        (.addCollateral market side amount)
  | .flashRemoveCollateral rules market side amount =>
    match checkCollateral context rules market amount with
    | .error reason => refuse s id reason
    | .ok amount => passGates s id now fun s =>
      preview s id (preCheckRemoveCollateral (getPositions s reachable) market side amount)
        (.removeCollateral market side amount)
  | .flashCloseAll => passGates s id now fun s =>
    match getPositions s reachable with
    | .error text => refuse s id (.message ("  Failed to close all: " ++ text))
    | .ok [] => refuse s id (.message "  No open positions to close.")
    | .ok (first :: rest) => preview s id (.ok ()) (.closeAll first rest)
  | .flashReversePosition market side =>
    if context.simulationMode then
      refuse s id (.message "  Reverse position requires live mode.")
    else if ¬ context.client.reversePosition then
      refuse s id (.message "  Reverse position not supported by the current client.")
    else passGates s id now fun s =>
      match getPositions s reachable with
      -- not in a `try`: the error goes to the caller
      | .error text => refuse s id (.message text)
      | .ok positions =>
        preview s id
          (if (findOpen positions market side).isNone then .error (.noOpenPosition side market)
            else .ok ())
          (.reversePosition (toUpperCase market) side)
  | .order tool =>
    match directCall context (getOrders s reachable) tool with
    | .error reason => refuse s id reason
    | .ok call => callClient s id (.ordering call)

/-- The positions for the exposure check have been fetched, or not. -/
def checkExposureOf (s : ToolsState) (id : ℕ) (o : OpenOrder) (reachable : Bool) (now : ℚ) :
    Result :=
  match s.gate.checkExposure o.sizeUsd (getPositions s reachable) with
  | .error reason => refuse s id (.gate reason)
  | .ok () => askBreaker s id now fun s => (withTask s id (.feeRates o), [])

/-- The fee rates have been fetched, or not. -/
def checkLimitsOf (s : ToolsState) (id : ℕ) (o : OpenOrder) (rates : Except ToolRefusal Unit)
    (now : ℚ) : Result :=
  match rates with
  | .error reason => refuse s id reason
  | .ok () =>
    match s.guard.checkTradeLimits o.collateral o.leverage o.sizeUsd with
    | .error reason => refuse s id (.signing reason)
    | .ok () => askSlot s id now fun s => preview s id (.ok ()) (.openPosition o)

/-- Close the next position of a close-all. -/
def closeNext (s : ToolsState) (id : ℕ) : List OpenPosition → Result
  | [] => (endTask s id, [])
  | pos :: rest => callClient s id (.closingAll pos rest)

/-- The user has confirmed: `executeAction`, up to the first call of the client. -/
def runAction (s : ToolsState) (id : ℕ) (context : ToolContext) : ExecuteAction → Result
  | .openPosition o =>
    let useAtomic := (o.takeProfit.isSome || o.stopLoss.isSome) &&
      context.client.openPositionAtomic && !context.simulationMode
    callClient s id (.opening o useAtomic)
  | .closePosition market side closePercent closeAmount =>
    callClient s id (.closing market side closePercent closeAmount)
  | .addCollateral market side amount => callClient s id (.addingCollateral market side amount)
  | .removeCollateral market side amount =>
    callClient s id (.removingCollateral market side amount)
  | .closeAll first rest => closeNext s id (first :: rest)
  | .reversePosition market side => callClient s id (.reversing market side)

/-- Record the PnL of a close, if it is finite. -/
def recordPnl (s : ToolsState) (pnl : JsNumber) (now : ℚ) : Result :=
  match pnl with
  | .finite _ =>
    ({ s with breaker := s.breaker.recordTrade pnl now },
      [.session (.recorded (CircuitBreaker.todayStr now) (CircuitBreaker.lossOf pnl))])
  | _ => (s, [])

def recordSigning (s : ToolsState) (id : ℕ) (now : ℚ) : Result :=
  ({ s with guard := s.guard.recordSigning now }, [.signing id (.completed now)])

/-- Place the stop loss of an open, if it has one. -/
def placeStopLoss (s : ToolsState) (id : ℕ) (o : OpenOrder) : Result :=
  match o.stopLoss with
  | none => (endTask s id, [])
  | some stopLoss => callClient s id (.placingStopLoss o stopLoss)

/-- Place the take profit of an open, if it has one, and else the stop loss. -/
def placeTriggers (s : ToolsState) (id : ℕ) (context : ToolContext) (o : OpenOrder) : Result :=
  if context.client.placeTriggerOrder ∧ ¬ context.simulationMode then
    match o.takeProfit with
    | some takeProfit => callClient s id (.placingTakeProfit o takeProfit)
    | none => placeStopLoss s id o
  else (endTask s id, [])

/-- Record a signing, and return. -/
def signAndEnd (s : ToolsState) (id : ℕ) (now : ℚ) : Result :=
  let r := recordSigning s id now
  (endTask r.1 id, r.2)

/-- The call has returned a result. -/
def succeeded (s : ToolsState) (id : ℕ) (landing : Landing) (triggerOrdersIncluded : Bool)
    (now : ℚ) : Waiting → Result
  | .opening o _ =>
    let r := recordSigning { s with breaker := s.breaker.recordOpen } id now
    if triggerOrdersIncluded then (endTask r.1 id, r.2) else (withTask r.1 id (.triggers o), r.2)
  | .closing _ _ _ _ =>
    let r := recordPnl s landing.pnl now
    andThen r.2 (signAndEnd r.1 id now)
  | .addingCollateral _ _ _ => signAndEnd s id now
  | .removingCollateral _ _ _ => signAndEnd s id now
  -- neither the PnL nor the signing is recorded
  | .closingAll _ rest => closeNext s id rest
  -- the PnL is not recorded
  | .reversing _ _ => signAndEnd s id now
  | .placingTakeProfit o _ => placeStopLoss s id o
  | .placingStopLoss _ _ => (endTask s id, [])
  | .ordering _ => (endTask s id, [])

/-- The call has thrown. -/
def failed (s : ToolsState) (id : ℕ) : Waiting → Result
  -- the errors of single closes and of triggers are swallowed
  | .closingAll _ rest => closeNext s id rest
  | .placingTakeProfit o _ => placeStopLoss s id o
  | _ => (endTask s id, [])

/-- The world after a call whose transaction has landed. -/
def land (s : ToolsState) (id : ℕ) (call : ClientCall) (landing : Landing) : Result :=
  ({ s with
      positions := landedPositions s.positions landing call
      orders := landedOrders s.orders landing call },
    [.landed id call landing])

/-- The client answers. -/
def answered (s : ToolsState) (id : ℕ) (waiting : Waiting) (answer : Answer) (now : ℚ) : Result :=
  match answer with
  | .ok landing triggerOrdersIncluded =>
    let r := land s id waiting.call landing
    andThen r.2 (succeeded r.1 id landing triggerOrdersIncluded now waiting)
  | .failed (some landing) =>
    let r := land s id waiting.call landing
    andThen r.2 (failed r.1 id waiting)
  | .failed none =>
    failed { s with unsettled := s.unsettled ++ [(id, waiting.call)] } id waiting

/-! ## The machine -/

/-- What can happen next: a tool is executed (and numbered), what it waits for
comes, the user confirms a preview, the client signs a transaction for a call or
ends the call, the transaction of a call that has thrown lands, a limit order
fills, or somebody uses the switch or the breaker. -/
inductive ToolsAction where
  | execute (context : ToolContext) (tool : Tool) (reachable : Bool) (now : ℚ)
  | positionsFetched (id : ℕ) (reachable : Bool) (now : ℚ)
  | feeRatesFetched (id : ℕ) (rates : Except ToolRefusal Unit) (now : ℚ)
  | confirm (id : ℕ) (context : ToolContext)
  | sign (id : ℕ) (now : ℚ)
  | answer (id : ℕ) (answer : Answer) (now : ℚ)
  | resume (id : ℕ) (context : ToolContext)
  | landLate (id : ℕ) (call : ClientCall) (landing : Landing)
  | fill (order : OnChainOrder)
  | disable
  | enable
  | checkBreaker (now : ℚ)
  | resetBreaker
deriving DecidableEq

/-- The clock shows `now`. Its readings are positive and do not decrease. -/
def atTime (s : ToolsState) (now : ℚ) (next : ToolsState → Option Result) : Option Result :=
  if now < s.clock ∨ now ≤ 0 then none else next { s with clock := now }

def step (s : ToolsState) : ToolsAction → Option Result
  | .execute context tool reachable now => atTime s now fun s =>
    some (execute { s with nextTask := s.nextTask + 1 } s.nextTask context reachable now tool)
  | .positionsFetched id reachable now =>
    match s.tasks id with
    | some (.exposure o) => atTime s now fun s => some (checkExposureOf s id o reachable now)
    | _ => none
  | .feeRatesFetched id rates now =>
    match s.tasks id with
    | some (.feeRates o) => atTime s now fun s => some (checkLimitsOf s id o rates now)
    | _ => none
  | .confirm id context =>
    match s.tasks id with
    | some (.preview action) => some (runAction s id context action)
    | _ => none
  | .sign id now =>
    match s.tasks id with
    | some (.calling _) => atTime s now fun s => some (s, [.signed id now])
    | _ => none
  | .answer id answer now =>
    match s.tasks id with
    | some (.calling waiting) => atTime s now fun s =>
      some (answered s id waiting answer now)
    | _ => none
  | .resume id context =>
    match s.tasks id with
    | some (.triggers o) => some (placeTriggers s id context o)
    | _ => none
  | .landLate id call landing =>
    if (id, call) ∈ s.unsettled then
      some (land { s with unsettled := s.unsettled.erase (id, call) } id call landing)
    else none
  | .fill order =>
    if order ∈ s.orders then
      some ({ s with
          positions :=
            addPosition order.market order.side order.sizeUsd order.collateral s.positions
          orders := s.orders.erase order },
        [.filled order])
    else none
  | .disable => some ({ s with gate := s.gate.disable }, [])
  | .enable => some ({ s with gate := s.gate.enable }, [])
  | .checkBreaker now =>
    atTime s now fun s =>
      let r := s.breaker.check now
      some ({ s with breaker := r.1 },
        [.session (.checked (CircuitBreaker.todayStr now) (r.2 = .allowed))])
  | .resetBreaker => some ({ s with breaker := s.breaker.reset }, [.session .wasReset])

end TradeTools

/-- The tools in a process that starts with these configurations. -/
def tradeTools (gate : TradingGate) (session : CircuitBreaker.CircuitBreakerConfig)
    (signing : SigningGuardConfig) :
    Machine ToolsState TradeTools.ToolsAction TradeTools.ToolsEvent where
  init :=
    { gate, breaker := { config := session, currentDay := 0 }, guard := { config := signing } }
  step := TradeTools.step

end FlashEdge
