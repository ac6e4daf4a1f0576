import FlashEdge.Theory.Acceptor
import FlashEdge.Orders.LimitOrderEngine

/-!
# The life of a limit order

What the engine promises about one order, said without maps, ticks or timers: it
is placed once, an execution starts only while it waits, at most one execution
runs, a failed one makes it wait again, a successful one ends it, and it can be
cancelled only while it waits, which ends it too. `lifecycle` is that protocol.

`limitOrders_refines` shows that the engine follows it for every order id, with
`Consistent` as the invariant that relates the map of orders, the set
`executingIds` and the executions in progress. The three promises of the engine
(`executions_exclusive`) are then read off the protocol by the until rule.
-/

namespace FlashEdge

/-! ## The protocol -/

inductive OrderPhase where
  | absent
  | waiting
  | running
  | done
  | cancelled
deriving DecidableEq, Repr

inductive OrderEvent where
  | placed
  | cancelled
  | started
  | succeeded
  | failed
deriving DecidableEq, Repr

/-- The protocol of one order. -/
def lifecycle : Acceptor OrderPhase OrderEvent where
  start := .absent
  next
    | .absent, .placed => some .waiting
    | .waiting, .started => some .running
    | .waiting, .cancelled => some .cancelled
    | .running, .succeeded => some .done
    | .running, .failed => some .waiting
    | _, _ => none

/-- An order that has been executed is not executed again. -/
theorem lifecycle_succeeds_once {c d : OrderPhase} {pre mid post : List OrderEvent} :
    lifecycle.read c (pre ++ .succeeded :: mid ++ .succeeded :: post) ≠ some d := by
  refine Acceptor.never_after (Q := (· = .done)) ?_ ?_ ?_
  · intro c c' hc
    cases c <;> cases hc
    rfl
  · rintro c e c' rfl hc
    cases e <;> cases hc
  · rintro c rfl
    rfl

/-- A cancelled order is not started. -/
theorem lifecycle_no_start_after_cancel {c d : OrderPhase} {pre mid post : List OrderEvent} :
    lifecycle.read c (pre ++ .cancelled :: mid ++ .started :: post) ≠ some d := by
  refine Acceptor.never_after (Q := (· = .cancelled)) ?_ ?_ ?_
  · intro c c' hc
    cases c <;> cases hc
    rfl
  · rintro c e c' rfl hc
    cases e <;> cases hc
  · rintro c rfl
    rfl

/-- Between two starts of an order the first execution has failed. -/
theorem lifecycle_restart_needs_failure {c d : OrderPhase} {pre mid post : List OrderEvent}
    (h : lifecycle.read c (pre ++ .started :: mid ++ .started :: post) = some d) :
    .failed ∈ mid := by
  have hbetween : ∃ k ∈ mid, k = .failed := by
    refine Acceptor.exists_between (A := lifecycle) (Q := fun c => c = .running ∨ c = .done)
      (K := (· = .failed)) ?_ ?_ ?_ h
    · intro c c' hc
      cases c <;> cases hc
      exact .inl rfl
    · -- a running execution can only succeed or fail, and a done order does nothing
      rintro c e c' (rfl | rfl) hc hne
      · cases e <;> cases hc
        · exact .inr rfl
        · exact absurd rfl hne
      · cases e <;> cases hc
    · rintro c (rfl | rfl) <;> rfl
  obtain ⟨_, hmem, rfl⟩ := hbetween
  exact hmem

namespace LimitOrderEngine

/-! ## The engine follows it -/

/-- The events of the order `id`. -/
def Event.ofOrder (id : String) : Event → List OrderEvent
  | .placed k => if k = id then [.placed] else []
  | .cancelled k => if k = id then [.cancelled] else []
  | .started k => if k = id then [.started] else []
  | .succeeded k => if k = id then [.succeeded] else []
  | .failed k => if k = id then [.failed] else []

/-- The id was given to an order. -/
def Issued (e : LimitOrderEngine) (id : String) : Prop :=
  ∃ n < e.nextOrderNum, 0 < n ∧ id = orderId n

instance (e : LimitOrderEngine) (id : String) : Decidable (e.Issued id) :=
  inferInstanceAs (Decidable (∃ n < e.nextOrderNum, 0 < n ∧ id = orderId n))

/-- Where the order `id` stands. -/
def phase (id : String) (e : LimitOrderEngine) : OrderPhase :=
  match e.orders.get? id with
  | some order => if id ∈ e.executions then .running else if order.triggered then .done else .waiting
  | none => if e.Issued id then .cancelled else .absent

/-- The three records of an execution agree: `executingIds` lists exactly the
executions in progress, none is listed twice, each belongs to a triggered order,
and the map only holds ids that were given out. -/
structure Consistent (e : LimitOrderEngine) : Prop where
  pos : 0 < e.nextOrderNum
  nodup : e.executions.Nodup
  executing : ∀ id, id ∈ e.executingIds ↔ id ∈ e.executions
  triggered : ∀ id ∈ e.executions, ∃ o, e.orders.get? id = some o ∧ o.triggered = true
  issued : ∀ id o, e.orders.get? id = some o → e.Issued id

theorem orderId_injective {m n : ℕ} (h : orderId m = orderId n) : m = n := by
  have htail : Nat.repr m = Nat.repr n := String.append_right_inj _ |>.mp h
  have hdigits : Nat.toDigits 10 m = Nat.toDigits 10 n := by
    rw [← Nat.toList_repr, htail, Nat.toList_repr]
  -- reading the digits back
  calc m = Nat.ofDigitChars 10 (Nat.toDigits 10 m) 0 := Nat.ofDigitChars_ten_toDigits.symm
    _ = Nat.ofDigitChars 10 (Nat.toDigits 10 n) 0 := by rw [hdigits]
    _ = n := Nat.ofDigitChars_ten_toDigits

/-- The id of the next order is in nobody's hands. -/
theorem Consistent.fresh {e : LimitOrderEngine} (hc : e.Consistent) :
    e.orders.get? (orderId e.nextOrderNum) = none ∧ ¬ e.Issued (orderId e.nextOrderNum) := by
  have hnot : ¬ e.Issued (orderId e.nextOrderNum) := by
    rintro ⟨n, hn, -, heq⟩
    exact absurd (orderId_injective heq) (Nat.ne_of_gt hn)
  refine ⟨?_, hnot⟩
  cases ho : e.orders.get? (orderId e.nextOrderNum) with
  | none => rfl
  | some o => exact absurd (hc.issued _ o ho) hnot

/-- A piece of a step that concerns other orders: no event of this one, the same
entry, the same executions, the same id. -/
theorem read_of_untouched {e e' : LimitOrderEngine} {id : String} {es : List Event}
    (hev : es.flatMap (Event.ofOrder id) = [])
    (hget : e'.orders.get? id = e.orders.get? id)
    (hex : id ∈ e'.executions ↔ id ∈ e.executions) (hiss : e'.Issued id ↔ e.Issued id) :
    lifecycle.read (phase id e) (es.flatMap (Event.ofOrder id)) = some (phase id e') := by
  have hphase : phase id e' = phase id e := by
    unfold phase
    rw [hget]
    simp only [hex, hiss]
  rw [hev, hphase]
  rfl

/-- A piece of a step, from `e` to `e'` with events `es`, follows the protocol
of every order and keeps the records consistent. -/
abbrev Follows (e e' : LimitOrderEngine) (es : List Event) : Prop :=
  lifecycle.Follows Consistent phase Event.ofOrder e e' es

/-- A change that no look-up of an order's `triggered` flag, no execution record
and no counter of ids shows is no event for any order. -/
theorem follows_of_same {e e' : LimitOrderEngine}
    (hex : e'.executions = e.executions) (hids : e'.executingIds = e.executingIds)
    (hnum : e'.nextOrderNum = e.nextOrderNum)
    (horders : ∀ id, (e'.orders.get? id).map LimitOrder.triggered =
      (e.orders.get? id).map LimitOrder.triggered) :
    Follows e e' [] := by
  intro hc
  -- the same orders are there, with the same flags
  have hsome : ∀ id o', e'.orders.get? id = some o' →
      ∃ o, e.orders.get? id = some o ∧ o.triggered = o'.triggered := by
    intro id o' ho'
    have h := horders id
    rw [ho', Option.map_some] at h
    exact Option.map_eq_some_iff.mp h.symm
  have hissued : ∀ id, e'.Issued id ↔ e.Issued id := fun id => by
    unfold Issued
    rw [hnum]
  constructor
  · refine ⟨hnum ▸ hc.pos, hex ▸ hc.nodup, fun id => ?_, fun id hid => ?_, fun id o' ho' => ?_⟩
    · rw [hids, hex]
      exact hc.executing id
    · obtain ⟨o, ho, htr⟩ := hc.triggered id (hex ▸ hid)
      have h := horders id
      rw [ho, Option.map_some, htr] at h
      exact Option.map_eq_some_iff.mp h
    · obtain ⟨o, ho, -⟩ := hsome id o' ho'
      exact (hissued id).mpr (hc.issued id o ho)
  · intro id
    show some (phase id e) = some (phase id e')
    have h := horders id
    unfold phase
    cases ho : e.orders.get? id with
    | none =>
      rw [ho, Option.map_none] at h
      rw [Option.map_eq_none_iff.mp h]
      simp only [hissued id]
    | some o =>
      rw [ho, Option.map_some] at h
      obtain ⟨o', ho', htr⟩ := Option.map_eq_some_iff.mp h
      rw [ho']
      simp only [hex, htr]

/-- The timer, the client and the poll flag are no part of the protocol. -/
theorem follows_maybeStopPolling (e : LimitOrderEngine) : Follows e e.maybeStopPolling [] := by
  unfold maybeStopPolling
  split
  · exact follows_of_same rfl rfl rfl fun _ => rfl
  · exact .refl e

theorem follows_ensurePolling (e : LimitOrderEngine) : Follows e e.ensurePolling [] := by
  unfold ensurePolling
  split
  · exact .refl e
  · split
    · exact .refl e
    · exact follows_of_same rfl rfl rfl fun _ => rfl

/-- Storing a new order under the next id places it. -/
theorem follows_place (e : LimitOrderEngine) (order : LimitOrder)
    (hnew : order.triggered = false) :
    Follows e
      { e with
        nextOrderNum := e.nextOrderNum + 1
        orders := e.orders.set (orderId e.nextOrderNum) order }
      [.placed (orderId e.nextOrderNum)] := by
  intro hc
  obtain ⟨hnone, hunissued⟩ := hc.fresh
  -- an execution belongs to an order in the map, and the new id is not there
  have hnotrunning : orderId e.nextOrderNum ∉ e.executions := by
    intro hmem
    obtain ⟨o, ho, -⟩ := hc.triggered _ hmem
    rw [hnone] at ho
    cases ho
  constructor
  · refine ⟨Nat.succ_pos _, hc.nodup, hc.executing, fun id hid => ?_, fun id o ho => ?_⟩
    · have hne : id ≠ orderId e.nextOrderNum := fun h => hnotrunning (h ▸ hid)
      show ∃ o, (e.orders.set (orderId e.nextOrderNum) order).get? id = some o ∧ _
      rw [OrderedMap.get?_set_of_ne hne]
      exact hc.triggered id hid
    · change (e.orders.set (orderId e.nextOrderNum) order).get? id = some o at ho
      by_cases hid : id = orderId e.nextOrderNum
      · exact ⟨e.nextOrderNum, Nat.lt_succ_self _, hc.pos, hid⟩
      · rw [OrderedMap.get?_set_of_ne hid] at ho
        obtain ⟨n, hn, heq⟩ := hc.issued id o ho
        exact ⟨n, Nat.lt_succ_of_lt hn, heq⟩
  · intro id
    by_cases hid : id = orderId e.nextOrderNum
    · subst hid
      -- the new order: from absent to waiting
      have hbefore : phase (orderId e.nextOrderNum) e = .absent := by
        unfold phase
        rw [hnone]
        exact if_neg hunissued
      rw [hbefore]
      simp [Event.ofOrder, phase, lifecycle, hnotrunning, hnew]
    · refine read_of_untouched (by simp [Event.ofOrder, Ne.symm hid])
        (OrderedMap.get?_set_of_ne hid) Iff.rfl ?_
      constructor
      · rintro ⟨n, hn, hpos, heq⟩
        have hne : n ≠ e.nextOrderNum := fun h => hid (h ▸ heq)
        exact ⟨n, Nat.lt_of_le_of_ne (Nat.le_of_lt_succ hn) hne, hpos, heq⟩
      · rintro ⟨n, hn, heq⟩
        exact ⟨n, Nat.lt_succ_of_lt hn, heq⟩

theorem follows_placeOrder (e : LimitOrderEngine) (now : ℚ) (market : String) (side : TradeSide)
    (leverage collateralUsd limitPrice : JsNumber) :
    Follows e (e.placeOrder now market side leverage collateralUsd limitPrice).1
      (e.placeOrder now market side leverage collateralUsd limitPrice).2 := by
  unfold placeOrder
  split
  · exact .refl e
  · split
    · split
      · exact .refl e
      · exact (follows_place e _ rfl).trans_nil (follows_ensurePolling _)
    · exact .refl e

/-- Deleting an order that is not triggered cancels it. -/
theorem follows_cancel (e : LimitOrderEngine) {id : String} {order : LimitOrder}
    (hget : e.orders.get? id = some order) (hwait : order.triggered = false) :
    Follows e { e with orders := e.orders.delete id } [.cancelled id] := by
  intro hc
  -- whatever is executed has a triggered order
  have hnotrunning : id ∉ e.executions := by
    intro hmem
    obtain ⟨o, ho, htr⟩ := hc.triggered id hmem
    rw [hget] at ho
    obtain rfl := Option.some.inj ho
    rw [hwait] at htr
    cases htr
  constructor
  · refine ⟨hc.pos, hc.nodup, hc.executing, fun k hk => ?_, fun k o ho => ?_⟩
    · have hne : k ≠ id := fun h => hnotrunning (h ▸ hk)
      show ∃ o, (e.orders.delete id).get? k = some o ∧ _
      rw [OrderedMap.get?_delete_of_ne hne]
      exact hc.triggered k hk
    · change (e.orders.delete id).get? k = some o at ho
      exact hc.issued k o (OrderedMap.get?_delete_eq_some.mp ho).2
  · intro k
    by_cases hk : k = id
    · subst hk
      have hissued : e.Issued k := hc.issued k order hget
      have hissued' : ({ e with orders := e.orders.delete k } : LimitOrderEngine).Issued k :=
        hissued
      simp [Event.ofOrder, phase, lifecycle, hget, hnotrunning, hwait, hissued']
    · exact read_of_untouched (by simp [Event.ofOrder, Ne.symm hk])
        (OrderedMap.get?_delete_of_ne hk) Iff.rfl Iff.rfl

theorem follows_cancelOrder (e : LimitOrderEngine) (id : String) :
    Follows e (e.cancelOrder id).1 (e.cancelOrder id).2 := by
  unfold cancelOrder
  split
  · exact .refl e
  · next order hget =>
    split
    · exact .refl e
    · next hwait =>
      exact (follows_cancel e hget (Bool.eq_false_iff.mpr hwait)).trans_nil
        (follows_maybeStopPolling _)

/-- Marking a waiting order triggered and recording its execution starts it. -/
theorem follows_start (e : LimitOrderEngine) {id : String} (order : LimitOrder)
    (hget : e.orders.get? id = some order) (hwait : order.triggered = false)
    (hfree : id ∉ e.executingIds) :
    Follows e
      { e with
        orders := e.orders.modify id fun o => { o with triggered := true }
        executingIds := id :: e.executingIds
        executions := id :: e.executions }
      [.started id] := by
  intro hc
  -- `executingIds` is what the guard reads, `executions` what is running
  have hnotrunning : id ∉ e.executions := fun h => hfree ((hc.executing id).mpr h)
  constructor
  · refine ⟨hc.pos, List.nodup_cons.mpr ⟨hnotrunning, hc.nodup⟩, fun k => ?_, fun k hk => ?_,
      fun k o ho => ?_⟩
    · show k ∈ id :: e.executingIds ↔ k ∈ id :: e.executions
      rw [List.mem_cons, List.mem_cons, hc.executing k]
    · show ∃ o, (e.orders.modify id _).get? k = some o ∧ _
      rw [OrderedMap.get?_modify]
      rcases List.mem_cons.mp hk with rfl | hk
      · rw [if_pos rfl, hget]
        exact ⟨_, rfl, rfl⟩
      · have hne : k ≠ id := fun h => hnotrunning (h ▸ hk)
        rw [if_neg hne]
        exact hc.triggered k hk
    · change (e.orders.modify id _).get? k = some o at ho
      rw [OrderedMap.get?_modify] at ho
      split at ho
      · next hk =>
        subst hk
        exact hc.issued k order hget
      · exact hc.issued k o ho
  · intro k
    by_cases hk : k = id
    · subst hk
      simp [Event.ofOrder, phase, lifecycle, hget, hnotrunning, hwait, OrderedMap.get?_modify]
    · refine read_of_untouched (by simp [Event.ofOrder, Ne.symm hk]) ?_ ?_ Iff.rfl
      · show (e.orders.modify id _).get? k = _
        rw [OrderedMap.get?_modify, if_neg hk]
      · show k ∈ id :: e.executions ↔ _
        rw [List.mem_cons]
        exact or_iff_right hk

/-- Counting a tick is no event. -/
theorem follows_tick (e : LimitOrderEngine) (id : String) (ticks : ℕ) :
    Follows e
      { e with orders := e.orders.modify id fun o => { o with confirmationTicks := ticks } } [] := by
  refine follows_of_same rfl rfl rfl fun k => ?_
  show ((e.orders.modify id _).get? k).map LimitOrder.triggered = _
  rw [OrderedMap.get?_modify]
  split
  · rw [Option.map_map]
    rfl
  · rfl

theorem follows_evaluateOrder (e : LimitOrderEngine) (priceMap : OrderedMap String JsNumber)
    (gates : Gates) (id : String) :
    Follows e (e.evaluateOrder priceMap gates id).1 (e.evaluateOrder priceMap gates id).2 := by
  unfold evaluateOrder
  split
  · exact .refl e
  · next order hget =>
    split
    · exact .refl e
    · next hwait =>
      split
      · exact .refl e
      · dsimp only
        -- whatever the guards decide, the tick is counted first
        generalize hticks : (if conditionMet order _ = true then order.confirmationTicks + 1
          else 0) = ticks
        have htick := follows_tick e id ticks
        split_ifs with _ hexec
        · exact htick
        · exact htick
        · exact htick
        · exact htick
        · exact htick
        · refine htick.trans (follows_start _ { order with confirmationTicks := ticks }
            ?_ (Bool.eq_false_iff.mpr hwait) hexec)
          show (e.orders.modify id _).get? id = _
          rw [OrderedMap.get?_modify, if_pos rfl, hget]
          rfl

/-- The loop, by induction on the keys still to visit. -/
theorem follows_evaluateOrders (priceMap : OrderedMap String JsNumber) (gates : Gates)
    (ids : List String) (e : LimitOrderEngine) :
    Follows e (e.evaluateOrders priceMap gates ids).1 (e.evaluateOrders priceMap gates ids).2 := by
  induction ids generalizing e with
  | nil => exact .refl e
  | cons id ids ih => exact (follows_evaluateOrder e priceMap gates id).trans (ih _)

theorem follows_evaluate (e : LimitOrderEngine) (priceMap : OrderedMap String JsNumber)
    (gates : Gates) :
    Follows e (e.evaluate priceMap gates).1 (e.evaluate priceMap gates).2 := by
  unfold evaluate
  split
  · exact .refl e
  · exact (follows_evaluateOrders priceMap gates e.orders.keys e).trans_nil
      (follows_maybeStopPolling _)

theorem follows_pollResume (e : LimitOrderEngine)
    (answer : Option (List (String × JsNumber))) (gates : Gates) :
    Follows e (e.pollResume answer gates).1 (e.pollResume answer gates).2 := by
  cases answer with
  | none => exact follows_of_same rfl rfl rfl fun _ => rfl
  | some marketData =>
    exact (follows_evaluate e (priceMapOf marketData) gates).trans_nil
      (follows_of_same rfl rfl rfl fun _ => rfl)

/-- What an executor's answer leaves in the map. -/
theorem executeOpenDone_get? (e : LimitOrderEngine) (id k : String) (ok : Bool) :
    (e.executeOpenDone id ok).1.orders.get? k =
      if k = id ∧ ok = false then
        (e.orders.get? k).map fun o => { o with triggered := false, confirmationTicks := 0 }
      else e.orders.get? k := by
  cases ok
  · simp only [executeOpenDone, Bool.false_eq_true, if_false, OrderedMap.get?_modify]
    by_cases hk : k = id <;> simp [hk]
  · simp [executeOpenDone]

/-- An executor's answer ends the execution it belongs to. -/
theorem follows_executeOpenDone (e : LimitOrderEngine) {id : String} (ok : Bool)
    (hmem : id ∈ e.executions) :
    Follows e (e.executeOpenDone id ok).1 (e.executeOpenDone id ok).2 := by
  intro hc
  obtain ⟨order, hget, htr⟩ := hc.triggered id hmem
  -- the execution is listed once, so none of this order is left
  have hgone : id ∉ e.executions.erase id := hc.nodup.not_mem_erase
  have hother : ∀ k, k ≠ id →
      (e.executeOpenDone id ok).1.orders.get? k = e.orders.get? k := fun k hk => by
    rw [executeOpenDone_get?, if_neg fun h => hk h.1]
  have hmemk : ∀ k, k ≠ id → (k ∈ e.executions.erase id ↔ k ∈ e.executions) :=
    fun k hk => List.mem_erase_of_ne hk
  constructor
  · refine ⟨hc.pos, hc.nodup.erase id, fun k => ?_, fun k hk => ?_, fun k o ho => ?_⟩
    · show k ∈ e.executingIds.filter (· ≠ id) ↔ k ∈ e.executions.erase id
      by_cases hk : k = id
      · subst hk
        simp [hgone]
      · rw [hmemk k hk, List.mem_filter, hc.executing k]
        simp [hk]
    · change k ∈ e.executions.erase id at hk
      have hne : k ≠ id := fun h => hgone (h ▸ hk)
      rw [hother k hne]
      exact hc.triggered k ((hmemk k hne).mp hk)
    · by_cases hk : k = id
      · subst hk
        exact hc.issued k order hget
      · rw [hother k hk] at ho
        exact hc.issued k o ho
  · intro k
    by_cases hk : k = id
    · subst hk
      have hbefore : phase k e = .running := by
        unfold phase
        rw [hget]
        exact if_pos hmem
      have hself := executeOpenDone_get? e k k ok
      have hnot : k ∉ (e.executeOpenDone k ok).1.executions := hgone
      rw [hbefore]
      cases ok with
      | false =>
        -- a failed order waits again
        rw [if_pos ⟨rfl, rfl⟩, hget] at hself
        have hafter : phase k (e.executeOpenDone k false).1 = .waiting := by
          unfold phase
          rw [hself]
          exact if_neg hnot
        rw [hafter]
        simp [executeOpenDone, Event.ofOrder, lifecycle]
      | true =>
        rw [if_neg fun h => nomatch h.2, hget] at hself
        have hafter : phase k (e.executeOpenDone k true).1 = .done := by
          unfold phase
          rw [hself, hget]
          exact (if_neg hnot).trans (if_pos htr)
        rw [hafter]
        simp [executeOpenDone, Event.ofOrder, lifecycle]
    · have hev : (e.executeOpenDone id ok).2.flatMap (Event.ofOrder k) = [] := by
        cases ok <;> simp [executeOpenDone, Event.ofOrder, Ne.symm hk]
      exact read_of_untouched hev (hother k hk) (hmemk k hk) Iff.rfl

/-- Every step follows the protocol of every order. -/
theorem follows_step {e e' : LimitOrderEngine} {a : Action} {es : List Event}
    (hs : e.step a = some (e', es)) : Follows e e' es := by
  cases a with
  | setOpenExecutor =>
    obtain ⟨rfl, rfl⟩ := Machine.some_pair hs
    exact follows_of_same rfl rfl rfl fun _ => rfl
  | setClient =>
    obtain ⟨rfl, rfl⟩ := Machine.some_pair hs
    exact follows_of_same rfl rfl rfl fun _ => rfl
  | stop =>
    obtain ⟨rfl, rfl⟩ := Machine.some_pair hs
    exact follows_of_same rfl rfl rfl fun _ => rfl
  | placeOrder now market side leverage collateralUsd limitPrice =>
    obtain ⟨rfl, rfl⟩ := Machine.some_pair hs
    exact follows_placeOrder e now market side leverage collateralUsd limitPrice
  | cancelOrder id =>
    obtain ⟨rfl, rfl⟩ := Machine.some_pair hs
    exact follows_cancelOrder e id
  | evaluate priceMap gates =>
    obtain ⟨rfl, rfl⟩ := Machine.some_pair hs
    exact follows_evaluate e priceMap gates
  | pollTick =>
    rw [step] at hs
    split at hs
    · obtain ⟨rfl, rfl⟩ := Machine.some_pair hs
      show Follows e e.pollTick []
      unfold pollTick
      split_ifs <;> exact follows_of_same rfl rfl rfl fun _ => rfl
    · cases hs
  | marketData answer gates =>
    rw [step] at hs
    split at hs
    · obtain ⟨rfl, rfl⟩ := Machine.some_pair hs
      exact follows_pollResume e answer gates
    · cases hs
  | executorDone id ok =>
    rw [step] at hs
    split at hs
    · next hmem =>
      obtain ⟨rfl, rfl⟩ := Machine.some_pair hs
      exact follows_executeOpenDone e ok hmem
    · cases hs

/-- **The engine refines the protocol of every order.** -/
theorem limitOrders_refines (id : String) :
    limitOrders.Refines lifecycle Consistent (phase id) (Event.ofOrder id) := by
  refine Machine.refines_of_follows (fun id => ?_) ?_ follows_step id
  · have hunissued : ¬ limitOrders.init.Issued id := by
      rintro ⟨n, hn, hpos, -⟩
      exact absurd hn (Nat.not_lt.mpr hpos)
    unfold phase
    exact if_neg hunissued
  · exact ⟨Nat.one_pos, List.nodup_nil, fun _ => Iff.rfl, fun _ h => (nomatch h),
      fun _ _ h => (nomatch h)⟩

/-- Only a failed execution of an order reads as its failure. -/
theorem mem_failed_of_ofOrder {es : List Event} {id : String}
    (h : OrderEvent.failed ∈ es.flatMap (Event.ofOrder id)) : .failed id ∈ es := by
  obtain ⟨e, he, hmem⟩ := List.mem_flatMap.mp h
  cases e with
  | failed k =>
    by_cases hk : k = id
    · exact hk ▸ he
    · simp [Event.ofOrder, hk] at hmem
  | placed k => by_cases hk : k = id <;> simp [Event.ofOrder, hk] at hmem
  | cancelled k => by_cases hk : k = id <;> simp [Event.ofOrder, hk] at hmem
  | started k => by_cases hk : k = id <;> simp [Event.ofOrder, hk] at hmem
  | succeeded k => by_cases hk : k = id <;> simp [Event.ofOrder, hk] at hmem

/-- **What the engine never does**, over every interleaving of ticks, placed and
cancelled orders and executor answers: run two executions of one order at once
(of two starts the first has failed before the second), execute an order
successfully twice, start an order that was cancelled. -/
theorem executions_exclusive {e : LimitOrderEngine} {h : List Event}
    (hr : limitOrders.Reachable e h) :
    e.executions.Nodup ∧
    (∀ id pre mid post, h = pre ++ .started id :: mid ++ .started id :: post → .failed id ∈ mid) ∧
    (∀ id pre mid post, h ≠ pre ++ .succeeded id :: mid ++ .succeeded id :: post) ∧
    (∀ id pre mid post, h ≠ pre ++ .cancelled id :: mid ++ .started id :: post) := by
  refine ⟨((limitOrders_refines "").inv hr).nodup, ?_, ?_, ?_⟩
  · intro id pre mid post hh
    have hread := (limitOrders_refines id).read hr
    rw [flatMap_split (Event.ofOrder id) hh (if_pos rfl) (if_pos rfl)] at hread
    exact mem_failed_of_ofOrder (lifecycle_restart_needs_failure hread)
  · intro id pre mid post hh
    have hread := (limitOrders_refines id).read hr
    rw [flatMap_split (Event.ofOrder id) hh (if_pos rfl) (if_pos rfl)] at hread
    exact lifecycle_succeeds_once hread
  · intro id pre mid post hh
    have hread := (limitOrders_refines id).read hr
    rw [flatMap_split (Event.ofOrder id) hh (if_pos rfl) (if_pos rfl)] at hread
    exact lifecycle_no_start_after_cancel hread

/-- A run in which an order fails once, is started again and succeeds. -/
def failsThenSucceeds : List Action :=
  let price : OrderedMap String JsNumber := OrderedMap.empty.set "SOL" (.finite 82)
  let gates : Gates := { breakerAllowed := fun _ => true, killSwitchAllowed := fun _ => true }
  [.setOpenExecutor, .placeOrder 0 "sol" .Long (.finite 2) (.finite 100) (.finite 85),
    .evaluate price gates, .evaluate price gates, .executorDone "order-1" false,
    .evaluate price gates, .cancelOrder "order-7", .evaluate price gates,
    .executorDone "order-1" true]

theorem executions_exclusive_failsThenSucceeds :
    ∃ e h, limitOrders.run failsThenSucceeds = some (e, h) ∧
      h = [.placed "order-1", .started "order-1", .failed "order-1", .started "order-1",
        .succeeded "order-1"] ∧
      (∀ id pre mid post, h = pre ++ .started id :: mid ++ .started id :: post →
        .failed id ∈ mid) := by
  have hrun : (limitOrders.run failsThenSucceeds).map Prod.snd = some
      [.placed "order-1", .started "order-1", .failed "order-1", .started "order-1",
        .succeeded "order-1"] := by decide +kernel
  obtain ⟨⟨e, h⟩, he, rfl⟩ := Option.map_eq_some_iff.mp hrun
  exact ⟨e, _, he, rfl, (executions_exclusive (Machine.reachable_of_run he)).2.1⟩

end LimitOrderEngine

end FlashEdge
