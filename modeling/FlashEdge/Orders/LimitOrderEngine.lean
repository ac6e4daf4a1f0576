import FlashEdge.Js
import FlashEdge.Theory.Machine
import FlashEdge.Theory.OrderedMap

/-!
# The limit-order engine (`orders/limit-order-engine.ts`)

Session-scoped limit orders: `evaluate` compares each waiting order with a map
of prices, counts consecutive ticks at which its condition holds, and starts an
execution at the second. The executor is asynchronous, so an execution is an
action that starts (`started`) and ends later (`executorDone`); between the two
the engine takes any other step. `evaluate` itself has no suspension point: it
is one step, whoever calls it.

The session circuit breaker and the kill switch are other components; a step
that asks them takes their answers as an argument.
-/

namespace FlashEdge

structure LimitOrder where
  market : String
  side : TradeSide
  leverage : ℚ
  collateralUsd : ℚ
  limitPrice : ℚ
  triggered : Bool
  confirmationTicks : ℕ
  createdAt : ℚ
deriving DecidableEq, Repr

namespace LimitOrderEngine

def REQUIRED_CONFIRMATION_TICKS : ℕ := 2
def MAX_LIMIT_ORDERS : ℕ := 50

/-- What an observer sees of an order. -/
inductive Event where
  | placed (orderId : String)
  | cancelled (orderId : String)
  | started (orderId : String)
  | succeeded (orderId : String)
  | failed (orderId : String)
deriving DecidableEq, Repr

/-- The answers of `getCircuitBreaker().check()` and
`getTradingGate().checkKillSwitch()` when they are asked about an order. -/
structure Gates where
  breakerAllowed : String → Bool
  killSwitchAllowed : String → Bool

end LimitOrderEngine

open LimitOrderEngine in
/-- The engine. `executions` is not a field of the code: it lists the calls of
`executeOpen` that are waiting for their executor. -/
structure LimitOrderEngine where
  orders : OrderedMap String LimitOrder := .empty
  openExecutor : Bool := false
  executingIds : List String := []
  client : Bool := false
  pollTimer : Bool := false
  pollInProgress : Bool := false
  nextOrderNum : ℕ := 1
  executions : List String := []
deriving DecidableEq

namespace LimitOrderEngine

def setOpenExecutor (e : LimitOrderEngine) : LimitOrderEngine := { e with openExecutor := true }

def setClient (e : LimitOrderEngine) : LimitOrderEngine := { e with client := true }

def stop (e : LimitOrderEngine) : LimitOrderEngine := { e with pollTimer := false }

def hasActiveOrders (e : LimitOrderEngine) : Bool :=
  e.orders.entries.any fun o => !o.2.triggered

def ensurePolling (e : LimitOrderEngine) : LimitOrderEngine :=
  if e.pollTimer then e
  else if !e.client then e
  else { e with pollTimer := true }

def maybeStopPolling (e : LimitOrderEngine) : LimitOrderEngine :=
  if !e.hasActiveOrders then e.stop else e

/-- The id of the `n`-th order. -/
def orderId (n : ℕ) : String := "order-" ++ toString n

/-- Place an order; refused at capacity or for invalid numbers. -/
def placeOrder (e : LimitOrderEngine) (now : ℚ) (market : String) (side : TradeSide)
    (leverage collateralUsd limitPrice : JsNumber) : LimitOrderEngine × List Event :=
  if MAX_LIMIT_ORDERS ≤ e.orders.size then (e, [])
  else
    match limitPrice.finitePositive?, collateralUsd.finitePositive?, leverage.finitePositive? with
    | some limitPrice, some collateralUsd, some leverage =>
      if leverage < 1 then (e, [])
      else
        let id := orderId e.nextOrderNum
        let order : LimitOrder :=
          { market := toUpperCase market
            side, leverage, collateralUsd, limitPrice
            triggered := false
            confirmationTicks := 0
            createdAt := now }
        let e := { e with nextOrderNum := e.nextOrderNum + 1, orders := e.orders.set id order }
        (e.ensurePolling, [.placed id])
    | _, _, _ => (e, [])

/-- Cancel an order that is present and not triggered. -/
def cancelOrder (e : LimitOrderEngine) (id : String) : LimitOrderEngine × List Event :=
  match e.orders.get? id with
  | none => (e, [])
  | some order =>
    if order.triggered then (e, [])
    else ({ e with orders := e.orders.delete id }.maybeStopPolling, [.cancelled id])

/-- A long order waits for the price to drop to its limit, a short one for it to
rise to it. -/
def conditionMet (order : LimitOrder) (valuationPrice : ℚ) : Bool :=
  match order.side with
  | .Long => decide (valuationPrice ≤ order.limitPrice)
  | .Short => decide (order.limitPrice ≤ valuationPrice)

/-- One iteration of the loop in `evaluate`. The order is looked up where the
loop stands, as iteration over a live map does. -/
def evaluateOrder (e : LimitOrderEngine) (priceMap : OrderedMap String JsNumber) (gates : Gates)
    (id : String) : LimitOrderEngine × List Event :=
  match e.orders.get? id with
  | none => (e, [])
  | some order =>
    if order.triggered then (e, [])
    else
      match (priceMap.get? order.market).bind JsNumber.finitePositive? with
      | none => (e, [])
      | some valuationPrice =>
        let met := conditionMet order valuationPrice
        let ticks := if met then order.confirmationTicks + 1 else 0
        let e := { e with
          orders := e.orders.modify id fun o => { o with confirmationTicks := ticks } }
        if !met || ticks < REQUIRED_CONFIRMATION_TICKS then (e, [])
        -- the guards, in the order of the source; each leaves the counted tick
        else if id ∈ e.executingIds then (e, [])
        else if !gates.breakerAllowed id then (e, [])
        else if !gates.killSwitchAllowed id then (e, [])
        else if !e.openExecutor then (e, [])
        else
          ({ e with
              orders := e.orders.modify id fun o => { o with triggered := true }
              executingIds := id :: e.executingIds
              executions := id :: e.executions },
            [.started id])

/-- The loop of `evaluate` over the keys it has still to visit. -/
def evaluateOrders (e : LimitOrderEngine) (priceMap : OrderedMap String JsNumber) (gates : Gates) :
    List String → LimitOrderEngine × List Event
  | [] => (e, [])
  | id :: ids =>
    let r := e.evaluateOrder priceMap gates id
    let r' := r.1.evaluateOrders priceMap gates ids
    (r'.1, r.2 ++ r'.2)

def evaluate (e : LimitOrderEngine) (priceMap : OrderedMap String JsNumber) (gates : Gates) :
    LimitOrderEngine × List Event :=
  if e.orders.size = 0 then (e, [])
  else
    let r := e.evaluateOrders priceMap gates e.orders.keys
    (r.1.maybeStopPolling, r.2)

/-- The executor of an execution has answered: on failure the order waits again,
and in either case the id leaves `executingIds`. -/
def executeOpenDone (e : LimitOrderEngine) (id : String) (ok : Bool) :
    LimitOrderEngine × List Event :=
  let orders :=
    if ok then e.orders
    else e.orders.modify id fun o => { o with triggered := false, confirmationTicks := 0 }
  ({ e with
      orders
      executingIds := e.executingIds.filter (· ≠ id)
      executions := e.executions.erase id },
    [if ok then .succeeded id else .failed id])

/-- The start of a poll tick, up to the request for market data. -/
def pollTick (e : LimitOrderEngine) : LimitOrderEngine :=
  if e.pollInProgress || !e.client then e
  else if !e.hasActiveOrders then e.stop
  else { e with pollInProgress := true }

/-- The prices of a market-data answer that are finite and positive, by symbol. -/
def priceMapOf (marketData : List (String × JsNumber)) : OrderedMap String JsNumber :=
  marketData.foldl
    (fun m md => if md.2.finitePositive?.isSome then m.set (toUpperCase md.1) md.2 else m) .empty

/-- The end of a poll tick: the data has come (or the request has failed). -/
def pollResume (e : LimitOrderEngine) (answer : Option (List (String × JsNumber)))
    (gates : Gates) : LimitOrderEngine × List Event :=
  let r := match answer with
    | some marketData => e.evaluate (priceMapOf marketData) gates
    | none => (e, [])
  ({ r.1 with pollInProgress := false }, r.2)

/-- What can happen to the engine. -/
inductive Action where
  | setOpenExecutor
  | setClient
  | stop
  | placeOrder (now : ℚ) (market : String) (side : TradeSide)
      (leverage collateralUsd limitPrice : JsNumber)
  | cancelOrder (orderId : String)
  | evaluate (priceMap : OrderedMap String JsNumber) (gates : Gates)
  | pollTick
  | marketData (answer : Option (List (String × JsNumber))) (gates : Gates)
  | executorDone (orderId : String) (ok : Bool)

/-- One step. The timer ticks only while it is set, market data comes only for a
poll in progress, and an executor answers only for an execution that waits. -/
def step (e : LimitOrderEngine) : Action → Option (LimitOrderEngine × List Event)
  | .setOpenExecutor => some (e.setOpenExecutor, [])
  | .setClient => some (e.setClient, [])
  | .stop => some (e.stop, [])
  | .placeOrder now market side leverage collateralUsd limitPrice =>
    some (e.placeOrder now market side leverage collateralUsd limitPrice)
  | .cancelOrder id => some (e.cancelOrder id)
  | .evaluate priceMap gates => some (e.evaluate priceMap gates)
  | .pollTick => if e.pollTimer then some (e.pollTick, []) else none
  | .marketData answer gates =>
    if e.pollInProgress then some (e.pollResume answer gates) else none
  | .executorDone id ok => if id ∈ e.executions then some (e.executeOpenDone id ok) else none

end LimitOrderEngine

/-- The engine and everything around it, as a machine. -/
def limitOrders : Machine LimitOrderEngine LimitOrderEngine.Action LimitOrderEngine.Event where
  init := {}
  step := LimitOrderEngine.step

end FlashEdge
