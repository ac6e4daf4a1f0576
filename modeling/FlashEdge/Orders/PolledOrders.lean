import FlashEdge.Orders.OrderLifecycle
import FlashEdge.Theory.OnDemand

/-!
# The orders that are polled

The engine promises to poll prices by itself while orders exist. It starts its
timer in `placeOrder` and stops it in `cancelOrder` and at the end of an
evaluation, from the orders as they are at that moment. Two operations change
what the decision depends on and do not look at the timer:

- `setClient` does not start it for the orders that were placed before;
- a failed execution makes its order wait again, possibly after the evaluation
  that started it has stopped the timer.

`polled_iff`: those two, at the states where they matter, and the explicit
`stop`, are the only ways to a waiting order that nobody polls.
-/

namespace FlashEdge

namespace LimitOrderEngine

/-- The engine's poll timer. -/
def polling : OnDemand LimitOrderEngine where
  ready := client
  work := hasActiveOrders
  timer := pollTimer

/-- With a client and a waiting order the timer runs. -/
def Polled (e : LimitOrderEngine) : Prop :=
  e.client = true → e.hasActiveOrders = true → e.pollTimer = true

instance (e : LimitOrderEngine) : Decidable e.Polled :=
  inferInstanceAs (Decidable (_ → _ → _))

/-- What the timer relies on, of a step and the state before it. The other steps
are free. -/
def KeepsPolling (e : LimitOrderEngine) : Action → Prop
  | .setClient => e.client = false → e.hasActiveOrders = false
  | .stop => e.client = true → e.hasActiveOrders = false
  | .executorDone _ false => e.client = true → e.hasActiveOrders = true
  | _ => True

/-! ## What the steps do to the waiting orders -/

theorem hasActiveOrders_iff {e : LimitOrderEngine} :
    e.hasActiveOrders = true ↔ ∃ id o, e.orders.get? id = some o ∧ o.triggered = false := by
  simp only [hasActiveOrders, List.any_eq_true, OrderedMap.get?_eq_some_iff, Prod.exists,
    Bool.not_eq_true']

/-- A piece of a step that brings no waiting order and leaves the client and the
timer alone. -/
structure Quiet (e e' : LimitOrderEngine) : Prop where
  client : e'.client = e.client
  pollTimer : e'.pollTimer = e.pollTimer
  active : e'.hasActiveOrders = true → e.hasActiveOrders = true

theorem Quiet.refl (e : LimitOrderEngine) : Quiet e e := ⟨rfl, rfl, id⟩

theorem Quiet.trans {e e' e'' : LimitOrderEngine} (h : Quiet e e') (h' : Quiet e' e'') :
    Quiet e e'' :=
  ⟨h'.client.trans h.client, h'.pollTimer.trans h.pollTimer, fun ha => h.active (h'.active ha)⟩

/-- Deleting an order. -/
theorem quiet_delete (e : LimitOrderEngine) (id : String) :
    Quiet e { e with orders := e.orders.delete id } := by
  refine ⟨rfl, rfl, fun h => ?_⟩
  obtain ⟨k, o, ho, hwait⟩ := hasActiveOrders_iff.mp h
  exact hasActiveOrders_iff.mpr ⟨k, o, (OrderedMap.get?_delete_eq_some.mp ho).2, hwait⟩

/-- A change of one order that does not make it wait again. -/
theorem quiet_modify {e e' : LimitOrderEngine} {id : String} {f : LimitOrder → LimitOrder}
    (hclient : e'.client = e.client) (htimer : e'.pollTimer = e.pollTimer)
    (horders : e'.orders = e.orders.modify id f)
    (hf : ∀ o, (f o).triggered = false → o.triggered = false) : Quiet e e' := by
  refine ⟨hclient, htimer, fun h => ?_⟩
  obtain ⟨k, o', ho', hwait⟩ := hasActiveOrders_iff.mp h
  rw [horders, OrderedMap.get?_modify] at ho'
  split at ho'
  · obtain ⟨o, ho, rfl⟩ := Option.map_eq_some_iff.mp ho'
    exact hasActiveOrders_iff.mpr ⟨k, o, ho, hf o hwait⟩
  · exact hasActiveOrders_iff.mpr ⟨k, o', ho', hwait⟩

theorem quiet_evaluateOrder (e : LimitOrderEngine) (priceMap : OrderedMap String JsNumber)
    (gates : Gates) (id : String) : Quiet e (e.evaluateOrder priceMap gates id).1 := by
  unfold evaluateOrder
  split
  · exact .refl e
  · next order _ =>
    split
    · exact .refl e
    · split
      · exact .refl e
      · dsimp only
        generalize (if conditionMet order _ = true then order.confirmationTicks + 1
          else 0) = ticks
        have htick : Quiet e
            { e with
              orders := e.orders.modify id fun o => { o with confirmationTicks := ticks } } :=
          quiet_modify (f := fun o => { o with confirmationTicks := ticks }) rfl rfl rfl
            fun _ h => h
        split_ifs
        · exact htick
        · exact htick
        · exact htick
        · exact htick
        · exact htick
        · exact htick.trans (quiet_modify (f := fun o => { o with triggered := true }) rfl rfl rfl
            fun _ h => absurd h.symm Bool.false_ne_true)

/-- The loop, by induction on the keys still to visit. -/
theorem quiet_evaluateOrders (priceMap : OrderedMap String JsNumber) (gates : Gates)
    (ids : List String) (e : LimitOrderEngine) :
    Quiet e (e.evaluateOrders priceMap gates ids).1 := by
  induction ids generalizing e with
  | nil => exact .refl e
  | cons id ids ih => exact (quiet_evaluateOrder e priceMap gates id).trans (ih _)

/-- After a quiet piece `maybeStopPolling` settles the timer. -/
theorem settled_maybeStopPolling {e e' : LimitOrderEngine} (h : polling.Settled e)
    (hq : Quiet e e') : polling.Settled e'.maybeStopPolling := by
  have hactive : e'.maybeStopPolling.hasActiveOrders = e'.hasActiveOrders := by
    unfold maybeStopPolling
    split <;> rfl
  refine h.idled ?_ (fun ha => hq.active (hactive ▸ ha)) ?_
  · show e'.maybeStopPolling.client = e.client
    unfold maybeStopPolling
    split <;> exact hq.client
  · show e'.maybeStopPolling.pollTimer = (e.pollTimer && e'.maybeStopPolling.hasActiveOrders)
    rw [hactive, ← hq.pollTimer]
    unfold maybeStopPolling
    cases ha : e'.hasActiveOrders <;> simp [stop]

/-- After a new waiting order `ensurePolling` settles the timer. -/
theorem settled_ensurePolling {e e' : LimitOrderEngine} (h : polling.Settled e)
    (hclient : e'.client = e.client) (htimer : e'.pollTimer = e.pollTimer)
    (hactive : e'.hasActiveOrders = true) : polling.Settled e'.ensurePolling := by
  refine h.started ?_ ?_ ?_
  · show e'.ensurePolling.client = e.client
    unfold ensurePolling
    split_ifs <;> exact hclient
  · show e'.ensurePolling.hasActiveOrders = true
    unfold ensurePolling
    split_ifs <;> exact hactive
  · show e'.ensurePolling.pollTimer = (e.pollTimer || e.client)
    rw [← hclient, ← htimer]
    unfold ensurePolling
    cases ht : e'.pollTimer <;> cases hc : e'.client <;> simp [ht]

/-! ## The steps -/

theorem settled_placeOrder {e : LimitOrderEngine} (h : polling.Settled e) (now : ℚ)
    (market : String) (side : TradeSide) (leverage collateralUsd limitPrice : JsNumber) :
    polling.Settled (e.placeOrder now market side leverage collateralUsd limitPrice).1 := by
  unfold placeOrder
  split
  · exact h
  · split
    · split
      · exact h
      · refine settled_ensurePolling h rfl rfl ?_
        exact hasActiveOrders_iff.mpr ⟨_, _, OrderedMap.get?_set_self _ _ _, rfl⟩
    · exact h

theorem settled_cancelOrder {e : LimitOrderEngine} (h : polling.Settled e) (id : String) :
    polling.Settled (e.cancelOrder id).1 := by
  unfold cancelOrder
  split
  · exact h
  · split
    · exact h
    · exact settled_maybeStopPolling h (quiet_delete e id)

theorem settled_evaluate {e : LimitOrderEngine} (h : polling.Settled e)
    (priceMap : OrderedMap String JsNumber) (gates : Gates) :
    polling.Settled (e.evaluate priceMap gates).1 := by
  unfold evaluate
  split
  · exact h
  · exact settled_maybeStopPolling h (quiet_evaluateOrders priceMap gates _ e)

theorem settled_pollTick {e : LimitOrderEngine} (h : polling.Settled e) :
    polling.Settled e.pollTick := by
  unfold pollTick
  split
  · exact h
  · split
    · next hidle =>
      -- nothing waits, and the timer stops
      have hnone : e.hasActiveOrders = false := by simpa using hidle
      refine h.idled rfl (fun ha => ha) ?_
      show false = (e.pollTimer && e.stop.hasActiveOrders)
      rw [show e.stop.hasActiveOrders = e.hasActiveOrders from rfl, hnone, Bool.and_false]
    · exact h

/-- **One step.** Where the timer's condition holds it stays settled, and where
it does not a waiting order is left without it. -/
theorem polling_step {e e' : LimitOrderEngine} {a : Action} {es : List Event}
    (hc : e.Consistent) (h : polling.Settled e) (hs : e.step a = some (e', es)) :
    polling.Decides (e.KeepsPolling a) e' := by
  cases a with
  | setOpenExecutor =>
    obtain ⟨rfl, -⟩ := Machine.some_pair hs
    exact (OnDemand.Settled.of_same h rfl rfl rfl).decides
  | setClient =>
    obtain ⟨rfl, -⟩ := Machine.some_pair hs
    exact h.readied rfl rfl rfl
  | stop =>
    obtain ⟨rfl, -⟩ := Machine.some_pair hs
    exact OnDemand.decides_stopped rfl rfl rfl
  | placeOrder now market side leverage collateralUsd limitPrice =>
    obtain ⟨rfl, -⟩ := Machine.some_pair hs
    exact (settled_placeOrder h _ _ _ _ _ _).decides
  | cancelOrder id =>
    obtain ⟨rfl, -⟩ := Machine.some_pair hs
    exact (settled_cancelOrder h id).decides
  | evaluate priceMap gates =>
    obtain ⟨rfl, -⟩ := Machine.some_pair hs
    exact (settled_evaluate h priceMap gates).decides
  | pollTick =>
    rw [step] at hs
    split at hs
    · obtain ⟨rfl, -⟩ := Machine.some_pair hs
      exact (settled_pollTick h).decides
    · cases hs
  | marketData answer gates =>
    rw [step] at hs
    split at hs
    · obtain ⟨rfl, -⟩ := Machine.some_pair hs
      cases answer with
      | none => exact (h.of_same rfl rfl rfl).decides
      | some marketData =>
        have hnew := settled_evaluate h (priceMapOf marketData) gates
        exact (hnew.of_same rfl rfl rfl).decides
    · cases hs
  | executorDone id ok =>
    rw [step] at hs
    split at hs
    · next hmem =>
      obtain ⟨rfl, -⟩ := Machine.some_pair hs
      cases ok with
      | true => exact (h.of_same rfl rfl rfl).decides
      | false =>
        -- the order of a running execution is still in the map, and waits again
        obtain ⟨order, hget, -⟩ := hc.triggered id hmem
        refine h.woken rfl ?_ rfl
        refine hasActiveOrders_iff.mpr
          ⟨id, { order with triggered := false, confirmationTicks := 0 }, ?_, rfl⟩
        rw [executeOpenDone_get?, if_pos ⟨rfl, rfl⟩, hget]
        rfl
    · cases hs

/-- **When the waiting orders are polled.** In every run, with a client and a
waiting order the timer runs in every state exactly when no client is registered
after an order that waits, no execution fails while nothing else waits, and the
timer is not stopped from outside. -/
theorem polled_iff (as : List Action) :
    limitOrders.Always (fun e _ => e.Polled) limitOrders.init [] as ↔
      limitOrders.Along (fun e _ a => e.KeepsPolling a) limitOrders.init [] as := by
  have hinit : limitOrders.init.Consistent ∧ polling.Settled limitOrders.init :=
    ⟨(limitOrders_refines "").inv Machine.Reachable.init, rfl⟩
  refine Machine.always_iff_along_of_step (I := fun e _ => e.Consistent ∧ polling.Settled e)
    (fun hI => hI.2.served) ?_ hinit as
  intro e h a e' es hI hs
  have hc' : e'.Consistent := (follows_step hs hI.1).1
  rcases polling_step hI.1 hI.2 hs with ⟨hgood, hnew⟩ | ⟨hbad, hnot⟩
  · exact .inl ⟨hgood, hc', hnew⟩
  · exact .inr ⟨hbad, hnot⟩

/-- The execution of the only order fails after the poll that started it has
stopped the timer. -/
def failsUnpolled : List Action :=
  let answer : Option (List (String × JsNumber)) := some [("SOL", .finite 82)]
  let gates : Gates := { breakerAllowed := fun _ => true, killSwitchAllowed := fun _ => true }
  [.setOpenExecutor, .setClient,
    .placeOrder 0 "SOL" .Long (.finite 2) (.finite 100) (.finite 85),
    .pollTick, .marketData answer gates, .pollTick, .marketData answer gates,
    .executorDone "order-1" false]

theorem failed_order_unpolled :
    ∃ e h, limitOrders.run failsUnpolled = some (e, h) ∧ ¬ e.Polled := by
  have hrun : (limitOrders.run failsUnpolled).map (fun r => decide r.1.Polled) = some false := by
    decide +kernel
  obtain ⟨⟨e, h⟩, he, hnot⟩ := Option.map_eq_some_iff.mp hrun
  exact ⟨e, h, he, of_decide_eq_false hnot⟩

end LimitOrderEngine

end FlashEdge
