import FlashEdge.Orders.OrderLifecycle

/-!
# What the orders' capacity is used for

`placeOrder` counts the entries of the map against `MAX_LIMIT_ORDERS`, and tells
the user to cancel an order first. An order leaves the map only in `cancelOrder`,
which a triggered order refuses: so an order that has been executed keeps its
place for the rest of the session (`finished_stays`), and a full map may hold
orders that no longer wait and that nobody can remove.

`capacity_iff`: a valid order is refused only while the maximum number of orders
wait, in every state of a run, exactly when no step of it fills the map beside a
triggered order or triggers an order in a full map.
-/

namespace FlashEdge

namespace LimitOrderEngine

/-- The parameters that pass the checks of `placeOrder`. -/
def ValidParameters (leverage collateralUsd limitPrice : JsNumber) : Prop :=
  limitPrice.finitePositive?.isSome ∧ collateralUsd.finitePositive?.isSome ∧
    ∃ l, leverage.finitePositive? = some l ∧ 1 ≤ l

/-- The orders that wait, as `formatOrderList` selects them. -/
def activeOrders (e : LimitOrderEngine) : List (String × LimitOrder) :=
  e.orders.entries.filter fun o => !o.2.triggered

/-- A valid order is refused only while the maximum number of orders wait. -/
def CapacityForWaiting (e : LimitOrderEngine) : Prop :=
  ∀ now market side leverage collateralUsd limitPrice,
    ValidParameters leverage collateralUsd limitPrice →
      (e.placeOrder now market side leverage collateralUsd limitPrice).2 = [] →
        e.activeOrders.length = MAX_LIMIT_ORDERS

/-- The order has been triggered. -/
def Triggered (e : LimitOrderEngine) (id : String) : Prop :=
  ∃ o, e.orders.get? id = some o ∧ o.triggered = true

/-- An evaluation with these prices and answers starts the order. -/
structure Due (e : LimitOrderEngine) (priceMap : OrderedMap String JsNumber) (gates : Gates)
    (id : String) (order : LimitOrder) (price : ℚ) : Prop where
  get? : e.orders.get? id = some order
  waiting : order.triggered = false
  priced : (priceMap.get? order.market).bind JsNumber.finitePositive? = some price
  met : conditionMet order price = true
  confirmed : REQUIRED_CONFIRMATION_TICKS ≤ order.confirmationTicks + 1
  free : id ∉ e.executingIds
  breaker : gates.breakerAllowed id = true
  killSwitch : gates.killSwitchAllowed id = true
  executor : e.openExecutor = true

/-- Some order would be started. -/
def AnyDue (e : LimitOrderEngine) (priceMap : OrderedMap String JsNumber) (gates : Gates) : Prop :=
  ∃ id order price, e.Due priceMap gates id order price

/-- What the capacity relies on, of a step and the state before it: the order
that fills the map finds only waiting ones in it, and nothing is started in a
full map. -/
def KeepsCapacity (e : LimitOrderEngine) : Action → Prop
  | .placeOrder _ _ _ leverage collateralUsd limitPrice =>
    ValidParameters leverage collateralUsd limitPrice →
      e.orders.size + 1 = MAX_LIMIT_ORDERS → ∀ id, ¬ e.Triggered id
  | .evaluate priceMap gates => e.orders.size = MAX_LIMIT_ORDERS → ¬ e.AnyDue priceMap gates
  | .marketData (some marketData) gates =>
    e.orders.size = MAX_LIMIT_ORDERS → ¬ e.AnyDue (priceMapOf marketData) gates
  | _ => True

/-! ## Capacity and the map -/

@[simp] theorem maybeStopPolling_orders (e : LimitOrderEngine) :
    e.maybeStopPolling.orders = e.orders := by
  unfold maybeStopPolling
  split <;> rfl

@[simp] theorem ensurePolling_orders (e : LimitOrderEngine) :
    e.ensurePolling.orders = e.orders := by
  unfold ensurePolling
  split_ifs <;> rfl

theorem placeOrder_refused_iff {e : LimitOrderEngine} {now : ℚ} {market : String}
    {side : TradeSide} {leverage collateralUsd limitPrice : JsNumber}
    (hv : ValidParameters leverage collateralUsd limitPrice) :
    (e.placeOrder now market side leverage collateralUsd limitPrice).2 = [] ↔
      MAX_LIMIT_ORDERS ≤ e.orders.size := by
  obtain ⟨hlimit, hcollateral, l, hl, hone⟩ := hv
  obtain ⟨p, hp⟩ := Option.isSome_iff_exists.mp hlimit
  obtain ⟨c, hc⟩ := Option.isSome_iff_exists.mp hcollateral
  unfold placeOrder
  split
  · next hfull => exact ⟨fun _ => hfull, fun _ => rfl⟩
  · next hroom =>
    simp only [hp, hc, hl, if_neg (not_lt.mpr hone)]
    exact ⟨fun h => absurd h (List.cons_ne_nil _ _), fun h => absurd h hroom⟩

/-- All the orders wait exactly when none has been triggered. -/
theorem activeOrders_length_iff {e : LimitOrderEngine} :
    e.activeOrders.length = e.orders.size ↔ ∀ id, ¬ e.Triggered id := by
  unfold activeOrders OrderedMap.size
  rw [List.length_filter_eq_length_iff]
  constructor
  · rintro hall id ⟨o, ho, htr⟩
    have hwait := hall (id, o) (OrderedMap.get?_eq_some_iff.mp ho)
    rw [htr] at hwait
    cases hwait
  · intro hnone p hp
    by_contra htr
    exact hnone p.1 ⟨p.2, OrderedMap.get?_eq_some_iff.mpr hp, by simpa using htr⟩

/-- The parameters of some valid order. -/
theorem exists_valid : ValidParameters (.finite 1) (.finite 1) (.finite 1) :=
  ⟨by decide +kernel, by decide +kernel, 1, by decide +kernel, le_refl 1⟩

/-- In terms of the map: a full one holds only waiting orders. -/
theorem capacityForWaiting_iff {e : LimitOrderEngine} (hsize : e.orders.size ≤ MAX_LIMIT_ORDERS) :
    e.CapacityForWaiting ↔ (e.orders.size = MAX_LIMIT_ORDERS → ∀ id, ¬ e.Triggered id) := by
  constructor
  · intro h hfull
    have hlen := h 0 "" .Long _ _ _ exists_valid ((placeOrder_refused_iff exists_valid).mpr hfull.ge)
    exact activeOrders_length_iff.mp (hlen.trans hfull.symm)
  · intro h now market side leverage collateralUsd limitPrice hv hrefused
    have hfull : e.orders.size = MAX_LIMIT_ORDERS :=
      le_antisymm hsize ((placeOrder_refused_iff hv).mp hrefused)
    exact (activeOrders_length_iff.mpr (h hfull)).trans hfull

/-! ## One iteration of the loop -/

/-- What an iteration leaves alone of another order, and what it does to its own. -/
structure Visits (e e' : LimitOrderEngine) (priceMap : OrderedMap String JsNumber) (gates : Gates)
    (id : String) : Prop where
  size : e'.orders.size = e.orders.size
  executor : e'.openExecutor = e.openExecutor
  get?_of_ne : ∀ k, k ≠ id → e'.orders.get? k = e.orders.get? k
  executing_of_ne : ∀ k, k ≠ id → (k ∈ e'.executingIds ↔ k ∈ e.executingIds)
  triggered : e'.Triggered id ↔ e.Triggered id ∨ ∃ order price, e.Due priceMap gates id order price

/-- A change of the entry of one order that keeps its flag, where it is not due. -/
theorem visits_of_not_due {e e' : LimitOrderEngine} {priceMap : OrderedMap String JsNumber}
    {gates : Gates} {id : String} {f : LimitOrder → LimitOrder}
    (horders : e'.orders = e.orders.modify id f) (hids : e'.executingIds = e.executingIds)
    (hexec : e'.openExecutor = e.openExecutor) (hf : ∀ o, (f o).triggered = o.triggered)
    (hnot : ∀ order price, ¬ e.Due priceMap gates id order price) :
    Visits e e' priceMap gates id := by
  refine ⟨by rw [horders, OrderedMap.size_modify], hexec, fun k hk => ?_, fun k _ => by rw [hids],
    ?_⟩
  · rw [horders, OrderedMap.get?_modify, if_neg hk]
  · have hsame : e'.Triggered id ↔ e.Triggered id := by
      unfold Triggered
      rw [horders, OrderedMap.get?_modify, if_pos rfl]
      cases e.orders.get? id <;> simp [hf]
    rw [hsame]
    exact (or_iff_left fun ⟨o, p, hd⟩ => hnot o p hd).symm

theorem visits_evaluateOrder (e : LimitOrderEngine) (priceMap : OrderedMap String JsNumber)
    (gates : Gates) (id : String) :
    Visits e (e.evaluateOrder priceMap gates id).1 priceMap gates id := by
  have hsame : (∀ order price, ¬ e.Due priceMap gates id order price) →
      Visits e e priceMap gates id := fun hnot =>
    { size := rfl
      executor := rfl
      get?_of_ne := fun _ _ => rfl
      executing_of_ne := fun _ _ => Iff.rfl
      triggered := (or_iff_left fun ⟨o, p, hd⟩ => hnot o p hd).symm }
  unfold evaluateOrder
  cases hget : e.orders.get? id with
  | none =>
    refine hsame fun order price hd => ?_
    rw [hd.get?] at hget
    cases hget
  | some order =>
    have horder : ∀ o p, e.Due priceMap gates id o p → o = order := fun o p hd =>
      Option.some.inj (hd.get?.symm.trans hget)
    dsimp only
    split
    · next htr =>
      refine hsame fun o p hd => ?_
      obtain rfl := horder o p hd
      rw [hd.waiting] at htr
      cases htr
    · next hwait =>
      cases hprice : (priceMap.get? order.market).bind JsNumber.finitePositive? with
      | none =>
        refine hsame fun o p hd => ?_
        obtain rfl := horder o p hd
        rw [hd.priced] at hprice
        cases hprice
      | some price =>
        dsimp only
        generalize hticks : (if conditionMet order price = true then order.confirmationTicks + 1
          else 0) = ticks
        -- an order that is due passes every guard
        have hdue : ∀ o p, e.Due priceMap gates id o p →
            conditionMet order price = true ∧ REQUIRED_CONFIRMATION_TICKS ≤ ticks := by
          intro o p hd
          obtain rfl := horder o p hd
          obtain rfl : p = price := Option.some.inj (hd.priced.symm.trans hprice)
          rw [← hticks, if_pos hd.met]
          exact ⟨hd.met, hd.confirmed⟩
        have hcounted : (∀ o p, ¬ e.Due priceMap gates id o p) → Visits e
            { e with
              orders := e.orders.modify id fun o => { o with confirmationTicks := ticks } }
            priceMap gates id := fun hnot =>
          visits_of_not_due (f := fun o => { o with confirmationTicks := ticks }) rfl rfl rfl
            (fun _ => rfl) hnot
        split_ifs with hfew hexec hbreaker hkill hopen
        · refine hcounted fun o p hd => ?_
          obtain ⟨hmet, hconf⟩ := hdue o p hd
          rw [hmet] at hfew
          simp only [Bool.not_true, Bool.false_or, decide_eq_true_eq] at hfew
          exact absurd hconf (not_le.mpr hfew)
        · exact hcounted fun o p hd => hd.free hexec
        · exact hcounted fun o p hd => by simp [hd.breaker] at hbreaker
        · exact hcounted fun o p hd => by simp [hd.killSwitch] at hkill
        · exact hcounted fun o p hd => by simp [hd.executor] at hopen
        · -- the order is started
          simp only [Bool.or_eq_true, Bool.not_eq_true', decide_eq_true_eq, not_or,
            Bool.not_eq_false, not_lt] at hfew
          rw [Bool.not_eq_true] at hwait
          simp only [Bool.not_eq_true', Bool.not_eq_false] at hbreaker hkill hopen
          have hd : e.Due priceMap gates id order price := by
            refine ⟨hget, hwait, hprice, hfew.1, ?_, hexec, hbreaker, hkill, hopen⟩
            have hconf := hfew.2
            rw [← hticks, if_pos hfew.1] at hconf
            exact hconf
          refine ⟨by simp, rfl, fun k hk => ?_, fun k hk => ?_, ?_⟩
          · simp only [OrderedMap.get?_modify, if_neg hk]
          · show k ∈ id :: e.executingIds ↔ _
            rw [List.mem_cons]
            exact or_iff_right hk
          · refine iff_of_true ?_ (.inr ⟨order, price, hd⟩)
            refine ⟨{ order with confirmationTicks := ticks, triggered := true }, ?_, rfl⟩
            simp only [OrderedMap.get?_modify, if_true, hget, Option.map_some]

/-! ## The loop -/

/-- Whether an order is due does not depend on the orders visited before it. -/
theorem Visits.due_iff {e e' : LimitOrderEngine} {priceMap : OrderedMap String JsNumber}
    {gates : Gates} {id k : String} (hv : Visits e e' priceMap gates id) (hk : k ≠ id)
    (order : LimitOrder) (price : ℚ) :
    e'.Due priceMap gates k order price ↔ e.Due priceMap gates k order price := by
  constructor
  · intro hd
    exact { hd with
      get? := (hv.get?_of_ne k hk).symm.trans hd.get?
      free := fun h => hd.free ((hv.executing_of_ne k hk).mpr h)
      executor := hv.executor.symm.trans hd.executor }
  · intro hd
    exact { hd with
      get? := (hv.get?_of_ne k hk).trans hd.get?
      free := fun h => hd.free ((hv.executing_of_ne k hk).mp h)
      executor := hv.executor.trans hd.executor }

theorem Visits.triggered_iff {e e' : LimitOrderEngine} {priceMap : OrderedMap String JsNumber}
    {gates : Gates} {id k : String} (hv : Visits e e' priceMap gates id) (hk : k ≠ id) :
    e'.Triggered k ↔ e.Triggered k := by
  unfold Triggered
  rw [hv.get?_of_ne k hk]

/-- The loop, by induction on the keys still to visit: it keeps the size of the
map, and what is triggered after it was before or was due when it began. -/
theorem evaluateOrders_triggered (priceMap : OrderedMap String JsNumber) (gates : Gates)
    (ids : List String) (hids : ids.Nodup) (e : LimitOrderEngine) :
    (e.evaluateOrders priceMap gates ids).1.orders.size = e.orders.size ∧
      ∀ k, (e.evaluateOrders priceMap gates ids).1.Triggered k ↔
        e.Triggered k ∨ (k ∈ ids ∧ ∃ order price, e.Due priceMap gates k order price) := by
  induction ids generalizing e with
  | nil => exact ⟨rfl, fun k => by simp [evaluateOrders]⟩
  | cons id ids ih =>
    obtain ⟨hnew, hrest⟩ := List.nodup_cons.mp hids
    have hv := visits_evaluateOrder e priceMap gates id
    obtain ⟨hsize, htr⟩ := ih hrest (e.evaluateOrder priceMap gates id).1
    refine ⟨hsize.trans hv.size, fun k => ?_⟩
    refine (htr k).trans ?_
    by_cases hk : k = id
    · subst hk
      rw [hv.triggered]
      simp [hnew]
    · rw [hv.triggered_iff hk]
      simp only [hv.due_iff hk, List.mem_cons, hk, false_or]

/-- An evaluation triggers something exactly when something is due. -/
theorem evaluate_triggered (e : LimitOrderEngine) (priceMap : OrderedMap String JsNumber)
    (gates : Gates) :
    (e.evaluate priceMap gates).1.orders.size = e.orders.size ∧
      ((∃ k, (e.evaluate priceMap gates).1.Triggered k) ↔
        (∃ k, e.Triggered k) ∨ e.AnyDue priceMap gates) := by
  unfold evaluate
  split
  · next hempty =>
    refine ⟨rfl, (or_iff_left ?_).symm⟩
    rintro ⟨id, order, price, hd⟩
    have hget := hd.get?
    rw [OrderedMap.eq_empty_of_size hempty] at hget
    cases hget
  · obtain ⟨hsize, htr⟩ := evaluateOrders_triggered priceMap gates e.orders.keys e.orders.nodup e
    -- stopping the timer leaves the orders alone
    have horders := maybeStopPolling_orders (e.evaluateOrders priceMap gates e.orders.keys).1
    have htr' : ∀ k, (e.evaluateOrders priceMap gates e.orders.keys).1.maybeStopPolling.Triggered
        k ↔ e.Triggered k ∨ (k ∈ e.orders.keys ∧ ∃ order price, e.Due priceMap gates k order price) :=
      fun k => by
        rw [← htr k]
        unfold Triggered
        rw [horders]
    refine ⟨(congrArg OrderedMap.size horders).trans hsize, ?_⟩
    constructor
    · rintro ⟨k, hk⟩
      rcases (htr' k).mp hk with hold | ⟨-, order, price, hd⟩
      · exact .inl ⟨k, hold⟩
      · exact .inr ⟨k, order, price, hd⟩
    · rintro (⟨k, hold⟩ | ⟨k, order, price, hd⟩)
      · exact ⟨k, (htr' k).mpr (.inl hold)⟩
      · have hkey : k ∈ e.orders.keys := OrderedMap.mem_keys_iff.mpr ⟨order, hd.get?⟩
        exact ⟨k, (htr' k).mpr (.inr ⟨hkey, order, price, hd⟩)⟩

/-! ## The steps -/

/-- The map is not overfull, and holds only waiting orders when it is full. -/
structure Uncrowded (e : LimitOrderEngine) : Prop where
  size_le : e.orders.size ≤ MAX_LIMIT_ORDERS
  waiting : e.orders.size = MAX_LIMIT_ORDERS → ∀ id, ¬ e.Triggered id

theorem Uncrowded.capacity {e : LimitOrderEngine} (h : e.Uncrowded) : e.CapacityForWaiting :=
  (capacityForWaiting_iff h.size_le).mpr h.waiting

/-- A step with the condition `C` keeps the map uncrowded under it, and fills it
with triggered orders otherwise. -/
def Decides (C : Prop) (e' : LimitOrderEngine) : Prop :=
  (C ∧ e'.Uncrowded) ∨ (¬ C ∧ ¬ e'.CapacityForWaiting)

/-- A map that is no larger and in which no more is triggered needs no condition. -/
theorem Uncrowded.mono {e e' : LimitOrderEngine} (h : e.Uncrowded)
    (hsize : e'.orders.size ≤ e.orders.size) (htr : ∀ id, e'.Triggered id → e.Triggered id) :
    Decides True e' := by
  refine .inl ⟨trivial, hsize.trans h.size_le, fun hfull id hid => ?_⟩
  have hbefore : e.orders.size = MAX_LIMIT_ORDERS := le_antisymm h.size_le (hfull ▸ hsize)
  exact h.waiting hbefore id (htr id hid)

/-- The same map. -/
theorem Uncrowded.same {e e' : LimitOrderEngine} (h : e.Uncrowded)
    (horders : e'.orders = e.orders) : Decides True e' := by
  refine h.mono (horders ▸ le_refl _) fun id => ?_
  unfold Triggered
  rw [horders]
  exact fun h => h

/-- A map within its bounds is decided by what it holds when it is full. -/
theorem decides_of_iff {e' : LimitOrderEngine} {C : Prop}
    (hsize : e'.orders.size ≤ MAX_LIMIT_ORDERS)
    (hiff : C ↔ (e'.orders.size = MAX_LIMIT_ORDERS → ∀ id, ¬ e'.Triggered id)) :
    Decides C e' := by
  by_cases hC : C
  · exact .inl ⟨hC, hsize, hiff.mp hC⟩
  · exact .inr ⟨hC, fun h => hC (hiff.mpr ((capacityForWaiting_iff hsize).mp h))⟩

/-- What `placeOrder` does to the map: nothing, or one waiting order under a new
id where there was room for it. -/
theorem placeOrder_orders (e : LimitOrderEngine) (now : ℚ) (market : String) (side : TradeSide)
    (leverage collateralUsd limitPrice : JsNumber) :
    let e' := (e.placeOrder now market side leverage collateralUsd limitPrice).1
    ((MAX_LIMIT_ORDERS ≤ e.orders.size ∨ ¬ ValidParameters leverage collateralUsd limitPrice) ∧
        e' = e) ∨
      (e.orders.size < MAX_LIMIT_ORDERS ∧ ValidParameters leverage collateralUsd limitPrice ∧
        ∃ order : LimitOrder, order.triggered = false ∧
          e'.orders = e.orders.set (orderId e.nextOrderNum) order) := by
  intro e'
  simp only [e', placeOrder, ValidParameters]
  split
  · next hfull => exact .inl ⟨.inl hfull, rfl⟩
  · next hroom =>
    cases hp : limitPrice.finitePositive? with
    | none => exact .inl ⟨.inr fun h => (by simpa using h.1), rfl⟩
    | some p =>
      cases hc : collateralUsd.finitePositive? with
      | none => exact .inl ⟨.inr fun h => (by simpa using h.2.1), rfl⟩
      | some c =>
        cases hl : leverage.finitePositive? with
        | none =>
          refine .inl ⟨.inr ?_, rfl⟩
          rintro ⟨-, -, l, hl', -⟩
          cases hl'
        | some l =>
          dsimp only
          split
          · next hlow =>
            refine .inl ⟨.inr ?_, rfl⟩
            rintro ⟨-, -, l', hl', hone⟩
            obtain rfl := Option.some.inj hl'
            exact absurd hone (not_le.mpr hlow)
          · next hone =>
            let order : LimitOrder :=
              { market := toUpperCase market
                side, leverage := l, collateralUsd := c, limitPrice := p
                triggered := false
                confirmationTicks := 0
                createdAt := now }
            refine .inr ⟨not_le.mp hroom, ⟨rfl, rfl, l, rfl, not_lt.mp hone⟩, order, rfl, ?_⟩
            exact ensurePolling_orders _

theorem decides_placeOrder {e : LimitOrderEngine} (hc : e.Consistent) (h : e.Uncrowded) (now : ℚ)
    (market : String) (side : TradeSide) (leverage collateralUsd limitPrice : JsNumber) :
    Decides (e.KeepsCapacity (.placeOrder now market side leverage collateralUsd limitPrice))
      (e.placeOrder now market side leverage collateralUsd limitPrice).1 := by
  rcases placeOrder_orders e now market side leverage collateralUsd limitPrice with
    ⟨hrefused, hsame⟩ | ⟨hroom, hv, order, hwait, horders⟩
  · -- the order is refused, and its condition is empty
    rw [hsame]
    refine decides_of_iff h.size_le (iff_of_true ?_ h.waiting)
    intro hv hlast
    rcases hrefused with hfull | hinvalid
    · omega
    · exact absurd hv hinvalid
  · have hfresh := hc.fresh.1
    have hsize : (e.placeOrder now market side leverage collateralUsd limitPrice).1.orders.size =
        e.orders.size + 1 := by
      rw [horders, OrderedMap.size_set_of_none hfresh]
    -- the new order waits, and the others are as they were
    have htr : ∀ id, (e.placeOrder now market side leverage collateralUsd limitPrice).1.Triggered
        id ↔ e.Triggered id := by
      intro id
      unfold Triggered
      rw [horders]
      by_cases hid : id = orderId e.nextOrderNum
      · rw [hid, OrderedMap.get?_set_self, hfresh]
        simp [hwait]
      · rw [OrderedMap.get?_set_of_ne hid]
    refine decides_of_iff (hsize ▸ hroom) ?_
    simp only [hsize, htr]
    exact ⟨fun hkeeps => hkeeps hv, fun hnone _ => hnone⟩

/-- An evaluation, and whatever else of the engine changes with it. -/
theorem decides_evaluate {e e' : LimitOrderEngine} (h : e.Uncrowded)
    (priceMap : OrderedMap String JsNumber) (gates : Gates)
    (horders : e'.orders = (e.evaluate priceMap gates).1.orders) :
    Decides (e.orders.size = MAX_LIMIT_ORDERS → ¬ e.AnyDue priceMap gates) e' := by
  obtain ⟨hsize, htr⟩ := evaluate_triggered e priceMap gates
  rw [← horders] at hsize
  refine decides_of_iff (hsize ▸ h.size_le) ?_
  rw [hsize]
  refine forall_congr' fun hfull => ?_
  have hsame : ∀ k, e'.Triggered k ↔ (e.evaluate priceMap gates).1.Triggered k := fun k => by
    unfold Triggered
    rw [horders]
  rw [← not_exists]
  simp only [hsame]
  rw [htr]
  have hnone : ¬ ∃ id, e.Triggered id := fun ⟨id, hid⟩ => h.waiting hfull id hid
  exact not_congr (or_iff_right hnone).symm

/-- **One step.** -/
theorem capacity_step {e e' : LimitOrderEngine} {a : Action} {es : List Event}
    (hc : e.Consistent) (h : e.Uncrowded) (hs : e.step a = some (e', es)) :
    Decides (e.KeepsCapacity a) e' := by
  cases a with
  | setOpenExecutor =>
    obtain ⟨rfl, -⟩ := Machine.some_pair hs
    exact h.same rfl
  | setClient =>
    obtain ⟨rfl, -⟩ := Machine.some_pair hs
    exact h.same rfl
  | stop =>
    obtain ⟨rfl, -⟩ := Machine.some_pair hs
    exact h.same rfl
  | placeOrder now market side leverage collateralUsd limitPrice =>
    obtain ⟨rfl, -⟩ := Machine.some_pair hs
    exact decides_placeOrder hc h now market side leverage collateralUsd limitPrice
  | cancelOrder id =>
    obtain ⟨rfl, -⟩ := Machine.some_pair hs
    show Decides True (e.cancelOrder id).1
    unfold cancelOrder
    split
    · exact h.same rfl
    · split
      · exact h.same rfl
      · refine h.mono ?_ fun k hk => ?_
        · rw [maybeStopPolling_orders]
          exact OrderedMap.size_delete_le e.orders id
        obtain ⟨o, ho, htr⟩ := hk
        rw [maybeStopPolling_orders] at ho
        exact ⟨o, (OrderedMap.get?_delete_eq_some.mp ho).2, htr⟩
  | evaluate priceMap gates =>
    obtain ⟨rfl, -⟩ := Machine.some_pair hs
    exact decides_evaluate h priceMap gates rfl
  | pollTick =>
    rw [step] at hs
    split at hs
    · obtain ⟨rfl, -⟩ := Machine.some_pair hs
      refine h.same ?_
      unfold pollTick
      split_ifs <;> rfl
    · cases hs
  | marketData answer gates =>
    rw [step] at hs
    split at hs
    · obtain ⟨rfl, -⟩ := Machine.some_pair hs
      cases answer with
      | none => exact h.same rfl
      | some marketData =>
        exact decides_evaluate h (priceMapOf marketData) gates rfl
    · cases hs
  | executorDone id ok =>
    rw [step] at hs
    split at hs
    · obtain ⟨rfl, -⟩ := Machine.some_pair hs
      refine h.mono ?_ fun k hk => ?_
      · cases ok <;> simp [executeOpenDone]
      · obtain ⟨o, ho, htr⟩ := hk
        rw [executeOpenDone_get?] at ho
        split at ho
        · obtain ⟨o', -, rfl⟩ := Option.map_eq_some_iff.mp ho
          cases htr
        · exact ⟨o, ho, htr⟩
    · cases hs

/-- **When the capacity is used by waiting orders only.** In every run, in every
state a valid order is refused only while the maximum number of orders wait,
exactly when no order fills the map beside a triggered one and no evaluation
finds an order due in a full map. -/
theorem capacity_iff (as : List Action) :
    limitOrders.Always (fun e _ => e.CapacityForWaiting) limitOrders.init [] as ↔
      limitOrders.Along (fun e _ a => e.KeepsCapacity a) limitOrders.init [] as := by
  have hempty : Uncrowded limitOrders.init :=
    ⟨Nat.zero_le _, fun hfull => absurd hfull (by decide)⟩
  have hinit : limitOrders.init.Consistent ∧ Uncrowded limitOrders.init :=
    ⟨(limitOrders_refines "").inv Machine.Reachable.init, hempty⟩
  refine Machine.always_iff_along_of_step (I := fun e _ => e.Consistent ∧ e.Uncrowded)
    (fun hI => hI.2.capacity) ?_ hinit as
  intro e h a e' es hI hs
  have hc' : e'.Consistent := (follows_step hs hI.1).1
  rcases capacity_step hI.1 hI.2 hs with ⟨hgood, hnew⟩ | ⟨hbad, hnot⟩
  · exact .inl ⟨hgood, hc', hnew⟩
  · exact .inr ⟨hbad, hnot⟩

/-- One order is executed, and 49 more are placed: the map is full of 49 waiting
orders, and a 51st is refused. -/
def fillsBesideExecuted : List Action :=
  let price : OrderedMap String JsNumber := OrderedMap.empty.set "SOL" (.finite 82)
  let gates : Gates := { breakerAllowed := fun _ => true, killSwitchAllowed := fun _ => true }
  let place : Action := .placeOrder 0 "SOL" .Long (.finite 2) (.finite 100) (.finite 85)
  [.setOpenExecutor, place, .evaluate price gates, .evaluate price gates,
    .executorDone "order-1" true] ++ List.replicate 49 place

theorem refused_with_49_waiting :
    ∃ e h, limitOrders.run fillsBesideExecuted = some (e, h) ∧ ¬ e.CapacityForWaiting := by
  have hrun : (limitOrders.run fillsBesideExecuted).map
      (fun r => (r.1.orders.size, r.1.activeOrders.length)) = some (50, 49) := by
    decide +kernel
  obtain ⟨⟨e, h⟩, he, hcount⟩ := Option.map_eq_some_iff.mp hrun
  obtain ⟨hsize, hactive⟩ := Prod.mk.inj hcount
  refine ⟨e, h, he, fun hcap => ?_⟩
  have hfull : MAX_LIMIT_ORDERS ≤ e.orders.size := hsize.ge
  have hlen := hcap 0 "" .Long _ _ _ exists_valid ((placeOrder_refused_iff exists_valid).mpr hfull)
  rw [hactive] at hlen
  exact absurd hlen (by decide)

/-- **An executed order keeps its place.** Once its execution has succeeded, an
order is in the map, triggered, after every further step. -/
theorem finished_stays {id : String} {e : LimitOrderEngine} {h : List Event} {as : List Action}
    {e' : LimitOrderEngine} {h' : List Event} (hr : limitOrders.Reachable e h)
    (hdone : phase id e = .done) (hrun : limitOrders.runFrom e h as = some (e', h')) :
    e'.Triggered id := by
  -- the protocol of a done order has no further event
  have hkept : e'.Consistent ∧ phase id e' = .done := by
    refine Machine.invariant_of_runFrom (M := limitOrders)
      (I := fun e _ => e.Consistent ∧ phase id e = .done) ?_
      ⟨(limitOrders_refines id).inv hr, hdone⟩ hrun
    intro e e' h es a hI hs
    obtain ⟨hc', hread⟩ := follows_step hs hI.1
    refine ⟨hc', ?_⟩
    have hone := hread id
    rw [hI.2] at hone
    cases hev : es.flatMap (Event.ofOrder id) with
    | nil =>
      rw [hev] at hone
      exact (Option.some.inj hone).symm
    | cons ev evs =>
      rw [hev] at hone
      cases ev <;> cases hone
  have hphase := hkept.2
  unfold phase at hphase
  cases hget : e'.orders.get? id with
  | none =>
    rw [hget] at hphase
    dsimp only at hphase
    split at hphase <;> cases hphase
  | some o =>
    rw [hget] at hphase
    refine ⟨o, hget, ?_⟩
    by_contra htr
    dsimp only at hphase
    split_ifs at hphase

/-- The executed order of a full map is there after whatever follows. -/
theorem finished_stays_full : ∃ e h, limitOrders.run fillsBesideExecuted = some (e, h) ∧
    ∀ as e' h', limitOrders.runFrom e h as = some (e', h') → e'.Triggered "order-1" := by
  have hrun : (limitOrders.run fillsBesideExecuted).map (fun r => phase "order-1" r.1) =
      some .done := by
    decide +kernel
  obtain ⟨⟨e, h⟩, he, hdone⟩ := Option.map_eq_some_iff.mp hrun
  exact ⟨e, h, he, fun as e' h' hfrom =>
    finished_stays (Machine.reachable_of_run he) hdone hfrom⟩

end LimitOrderEngine

end FlashEdge
