import FlashEdge.Theory.Acceptor
import FlashEdge.Risk.TpSlEngine

/-!
# The closes of the TP/SL engine are latched

Seen from one market-side the engine is a latch (`Theory/Latch.lean`): setting
or changing its target arms it, deleting the target disarms it, a trigger fires
it, and it is busy until the close executor answers. `tpSl_refines_latch` proves
this of every key at once, with `Locked` as the invariant: the keys the code
locks are the closes in flight.

`closes_latched` states what follows for the engine, over every interleaving of
ticks, user calls and executor answers.
-/

namespace FlashEdge

namespace TpSlEngine

/-- The events of the latch of `key`. -/
def Event.latch (key : String) : Event → List LatchEvent
  | .targetSet k => if k = key then [.arm] else []
  | .targetChanged k => if k = key then [.arm] else []
  | .targetDeleted k => if k = key then [.disarm] else []
  | .evaluation => []
  | .read _ _ _ => []
  | .triggered k _ _ => if k = key then [.fire] else []
  | .closeDone k _ => if k = key then [.finish] else []

/-- Whether the key has a target that waits. -/
def armed (key : String) (e : TpSlEngine) : Bool :=
  (e.targets.get? key).any fun t => !t.triggered

/-- The latch of `key`. -/
def latchState (key : String) (e : TpSlEngine) : LatchState :=
  { armed := armed key e, busy := decide (key ∈ e.closes) }

/-- The locked keys are those of the closes in flight, one close a key. -/
structure Locked (e : TpSlEngine) : Prop where
  nodup : e.closes.Nodup
  closing : ∀ key, key ∈ e.closingKeys ↔ key ∈ e.closes

/-- A piece of a step follows the latch of every key. -/
abbrev Latches (e e' : TpSlEngine) (es : List Event) : Prop :=
  latch.Follows Locked latchState Event.latch e e' es

/-- A change of the timer, the client or a counter is no event for any latch. -/
theorem latches_of_same {e e' : TpSlEngine} {es : List Event}
    (hcloses : e'.closes = e.closes) (hkeys : e'.closingKeys = e.closingKeys)
    (harmed : ∀ key, armed key e' = armed key e)
    (hes : ∀ key, es.flatMap (Event.latch key) = []) : Latches e e' es := by
  intro hl
  refine ⟨⟨hcloses ▸ hl.nodup, fun key => ?_⟩, fun key => ?_⟩
  · rw [hkeys, hcloses]
    exact hl.closing key
  · have hstate : latchState key e' = latchState key e := by
      unfold latchState
      rw [harmed, hcloses]
    rw [hes, hstate]
    rfl

/-- A new state of the target of one key, the closes left alone: the latch of
this key is armed or disarmed, and the others are left alone. -/
theorem latches_of_target {e e' : TpSlEngine} {key : String} {ev : Event} {le : LatchEvent}
    {b : Bool} (hcloses : e'.closes = e.closes) (hkeys : e'.closingKeys = e.closingKeys)
    (hself : armed key e' = b) (hother : ∀ k, k ≠ key → armed k e' = armed k e)
    (hev : ∀ k, Event.latch k ev = if key = k then [le] else [])
    (hle : ∀ c, latch.next c le = some { c with armed := b }) : Latches e e' [ev] := by
  intro hl
  refine ⟨⟨hcloses ▸ hl.nodup, fun k => ?_⟩, fun k => ?_⟩
  · rw [hkeys, hcloses]
    exact hl.closing k
  · rw [List.flatMap_singleton, hev]
    by_cases hk : key = k
    · subst hk
      rw [if_pos rfl, Acceptor.read_singleton, hle]
      unfold latchState
      rw [hself, hcloses]
    · rw [if_neg hk]
      have hstate : latchState k e' = latchState k e := by
        unfold latchState
        rw [hother k (Ne.symm hk), hcloses]
      rw [hstate]
      rfl

theorem latches_ensurePolling (e : TpSlEngine) : Latches e e.ensurePolling [] := by
  obtain ⟨b, hb⟩ := ensurePolling_eq e
  rw [hb]
  exact latches_of_same rfl rfl (fun _ => rfl) fun _ => rfl

theorem latches_maybeStopPolling (e : TpSlEngine) : Latches e e.maybeStopPolling [] := by
  obtain ⟨b, hb⟩ := maybeStopPolling_eq e
  rw [hb]
  exact latches_of_same rfl rfl (fun _ => rfl) fun _ => rfl

/-! ## The user's calls -/

theorem latches_setTarget (e : TpSlEngine) (market side : String) (tp sl : Option JsNumber) :
    Latches e (e.setTarget market side tp sl).1 (e.setTarget market side tp sl).2 := by
  unfold setTarget
  dsimp only
  split
  · exact .refl e
  · refine Acceptor.Follows.trans_nil ?_ (latches_ensurePolling _)
    refine latches_of_target (b := true) rfl rfl ?_ (fun k hk => ?_) (fun k => rfl) fun c => rfl
    · unfold armed
      rw [OrderedMap.get?_set_self]
      rfl
    · unfold armed
      rw [OrderedMap.get?_set_of_ne hk]

theorem latches_removeTarget (e : TpSlEngine) (market side : String) (type : TargetType) :
    Latches e (e.removeTarget market side type).1 (e.removeTarget market side type).2 := by
  unfold removeTarget
  dsimp only
  split
  · exact .refl e
  · next existing hget =>
    split
    · refine Acceptor.Follows.trans_nil ?_ (latches_maybeStopPolling _)
      -- no value is left, and the target goes
      refine latches_of_target (b := false) rfl rfl ?_ (fun k hk => ?_) (fun k => rfl) fun c => rfl
      · unfold armed
        rw [OrderedMap.get?_delete_self]
        rfl
      · unfold armed
        rw [OrderedMap.get?_delete_of_ne hk]
    · refine latches_of_target (b := true) rfl rfl ?_ (fun k hk => ?_) (fun k => rfl) fun c => rfl
      · unfold armed
        rw [OrderedMap.get?_modify, if_pos rfl, hget]
        rfl
      · unfold armed
        rw [OrderedMap.get?_modify, if_neg hk]

/-! ## The evaluation -/

/-- Counting a reading is no event for any latch. -/
theorem latches_countTicks (e : TpSlEngine) (key : String) (ticks : ℕ) (position : PositionId)
    (met : List CloseReason) :
    Latches e (e.countTicks key ticks) [.read key position met] := by
  refine latches_of_same rfl rfl (fun k => ?_) fun _ => rfl
  unfold armed
  rw [countTicks_get?]
  split
  · exact Option.any_map
  · rfl

/-- Starting a close fires the latch of its key. -/
theorem latches_startClose {e : TpSlEngine} {key : String} {position : PositionId}
    {reason : CloseReason} (harmed : armed key e = true) (hfree : key ∉ e.closingKeys) :
    Latches e (e.startClose key) [.triggered key position reason] := by
  intro hl
  have hidle : key ∉ e.closes := fun h => hfree ((hl.closing key).mpr h)
  constructor
  · refine ⟨List.nodup_cons.mpr ⟨hidle, hl.nodup⟩, fun k => ?_⟩
    show k ∈ key :: e.closingKeys ↔ k ∈ key :: e.closes
    rw [List.mem_cons, List.mem_cons, hl.closing]
  · intro k
    have hev : [Event.triggered key position reason].flatMap (Event.latch k) =
        if key = k then [.fire] else [] := List.flatMap_singleton _ _
    rw [hev]
    by_cases hk : key = k
    · subst hk
      -- the latch of this key fires
      have hafter : latchState key (e.startClose key) = { armed := false, busy := true } := by
        have hdisarmed : armed key (e.startClose key) = false := by
          unfold armed
          rw [startClose_get?, if_pos rfl]
          cases e.targets.get? key <;> rfl
        have hbusy : key ∈ (e.startClose key).closes := List.mem_cons_self
        unfold latchState
        rw [hdisarmed, decide_eq_true hbusy]
      rw [if_pos rfl, hafter, Acceptor.read_singleton]
      unfold latchState
      rw [harmed, decide_eq_false hidle]
      rfl
    · -- the latches of the other keys see nothing
      have hsame : latchState k (e.startClose key) = latchState k e := by
        have harm : armed k (e.startClose key) = armed k e := by
          unfold armed
          rw [startClose_get?, if_neg (Ne.symm hk)]
        have hmem : k ∈ (e.startClose key).closes ↔ k ∈ e.closes := by
          show k ∈ key :: e.closes ↔ _
          rw [List.mem_cons]
          exact or_iff_right (Ne.symm hk)
        unfold latchState
        rw [harm, decide_eq_decide.mpr hmem]
      rw [if_neg hk, hsame]
      rfl

theorem latches_evaluatePosition (e : TpSlEngine) (gates : Gates) (pos : Position) :
    Latches e (e.evaluatePosition gates pos).1 (e.evaluatePosition gates pos).2 := by
  rcases evaluatePosition_cases e gates pos with
    ⟨-, hskip⟩ | ⟨target, price, hreads, hread | ⟨reason, -, -, hfree, hfire⟩⟩
  · rw [hskip]
    exact .refl e
  · rw [hread]
    exact latches_countTicks _ _ _ _ _
  · rw [hfire]
    refine (latches_countTicks e pos.key _ pos.id _).trans (latches_startClose ?_ hfree)
    unfold armed
    rw [countTicks_get?, if_pos rfl, hreads.get?, Option.map_some]
    show (!target.triggered) = true
    rw [hreads.waiting]
    rfl

/-- The loop, by induction on the positions still to visit. -/
theorem latches_evaluatePositions (gates : Gates) (positions : List Position) (e : TpSlEngine) :
    Latches e (e.evaluatePositions gates positions).1 (e.evaluatePositions gates positions).2 := by
  induction positions generalizing e with
  | nil => exact .refl e
  | cons pos rest ih => exact (latches_evaluatePosition e gates pos).trans (ih _)

theorem latches_evaluate (e : TpSlEngine) (gates : Gates) (positions : List Position) :
    Latches e (e.evaluate gates positions).1 (e.evaluate gates positions).2 := by
  have hmarker : Latches e e [.evaluation] := latches_of_same rfl rfl (fun _ => rfl) fun _ => rfl
  unfold evaluate
  split
  · exact hmarker
  · exact (hmarker.trans (latches_evaluatePositions gates positions e)).trans_nil
      (latches_maybeStopPolling _)

/-! ## The end of a close -/

theorem latches_executeCloseDone (e : TpSlEngine) {key : String} (ok : Bool)
    (hmem : key ∈ e.closes) :
    Latches e (e.executeCloseDone key ok).1 (e.executeCloseDone key ok).2 := by
  intro hl
  -- one close per key, so none of this key is left
  have hgone : key ∉ e.closes.erase key := hl.nodup.not_mem_erase
  constructor
  · refine ⟨hl.nodup.erase key, fun k => ?_⟩
    show k ∈ e.closingKeys.filter (· ≠ key) ↔ k ∈ e.closes.erase key
    by_cases hk : k = key
    · subst hk
      simp [hgone]
    · rw [List.mem_erase_of_ne hk, List.mem_filter, hl.closing]
      simp [hk]
  · intro k
    have hev : (e.executeCloseDone key ok).2.flatMap (Event.latch k) =
        if key = k then [.finish] else [] := List.flatMap_singleton _ _
    rw [hev]
    by_cases hk : key = k
    · subst hk
      -- the target stays triggered: the latch is idle, and armed only if it was set again
      have hbefore : latchState key e = { armed := armed key e, busy := true } := by
        unfold latchState
        rw [decide_eq_true hmem]
      have hafter : latchState key (e.executeCloseDone key ok).1 =
          { armed := armed key e, busy := false } := by
        have hidle : decide (key ∈ (e.executeCloseDone key ok).1.closes) = false :=
          decide_eq_false hgone
        unfold latchState
        rw [hidle]
        rfl
      rw [if_pos rfl, hbefore, hafter]
      rfl
    · have hsame : latchState k (e.executeCloseDone key ok).1 = latchState k e := by
        have hiff : k ∈ (e.executeCloseDone key ok).1.closes ↔ k ∈ e.closes :=
          List.mem_erase_of_ne (Ne.symm hk)
        unfold latchState
        rw [decide_eq_decide.mpr hiff]
        rfl
      rw [if_neg hk, hsame]
      rfl

/-- Every step follows the latch of every key. -/
theorem latches_step {e e' : TpSlEngine} {a : Action} {es : List Event}
    (hs : e.step a = some (e', es)) : Latches e e' es := by
  have hsame : ∀ {e' : TpSlEngine}, e'.closes = e.closes → e'.closingKeys = e.closingKeys →
      e'.targets = e.targets → Latches e e' [] := fun hcloses hkeys htargets =>
    latches_of_same hcloses hkeys (fun key => by unfold armed; rw [htargets]) fun _ => rfl
  cases a with
  | setCloseExecutor =>
    obtain ⟨rfl, rfl⟩ := Machine.some_pair hs
    exact hsame rfl rfl rfl
  | setClient =>
    obtain ⟨rfl, rfl⟩ := Machine.some_pair hs
    exact hsame rfl rfl rfl
  | stop =>
    obtain ⟨rfl, rfl⟩ := Machine.some_pair hs
    exact hsame rfl rfl rfl
  | setTarget market side tp sl =>
    obtain ⟨rfl, rfl⟩ := Machine.some_pair hs
    exact latches_setTarget e market side tp sl
  | removeTarget market side type =>
    obtain ⟨rfl, rfl⟩ := Machine.some_pair hs
    exact latches_removeTarget e market side type
  | evaluate gates positions =>
    obtain ⟨rfl, rfl⟩ := Machine.some_pair hs
    exact latches_evaluate e gates positions
  | pollTick =>
    rw [step] at hs
    split at hs
    · obtain ⟨rfl, rfl⟩ := Machine.some_pair hs
      obtain ⟨b, c, hbc⟩ := pollTick_eq e
      show Latches e e.pollTick []
      rw [hbc]
      exact hsame rfl rfl rfl
    · cases hs
  | positions gates answer =>
    rw [step] at hs
    split at hs
    · obtain ⟨rfl, rfl⟩ := Machine.some_pair hs
      cases answer with
      | none => exact hsame rfl rfl rfl
      | some positions =>
        exact (latches_evaluate e gates positions).trans_nil
          (latches_of_same rfl rfl (fun _ => rfl) fun _ => rfl)
    · cases hs
  | executorDone key ok =>
    rw [step] at hs
    split at hs
    · next hmem =>
      obtain ⟨rfl, rfl⟩ := Machine.some_pair hs
      exact latches_executeCloseDone e ok hmem
    · cases hs

/-- **From every market-side the engine is a latch.** -/
theorem tpSl_refines_latch (key : String) :
    tpSl.Refines latch Locked (latchState key) (Event.latch key) := by
  refine Machine.refines_of_follows (fun key => ?_) ?_ latches_step key
  · rfl
  · exact ⟨List.nodup_nil, fun _ => Iff.rfl⟩

/-- Only a call that sets or changes the target of a key arms its latch. -/
theorem exists_target_call_of_arm {es : List Event} {key : String}
    (h : LatchEvent.arm ∈ es.flatMap (Event.latch key)) :
    .targetSet key ∈ es ∨ .targetChanged key ∈ es := by
  obtain ⟨ev, hev, hmem⟩ := List.mem_flatMap.mp h
  cases ev with
  | targetSet k =>
    by_cases hk : k = key
    · exact .inl (hk ▸ hev)
    · simp [Event.latch, hk] at hmem
  | targetChanged k =>
    by_cases hk : k = key
    · exact .inr (hk ▸ hev)
    · simp [Event.latch, hk] at hmem
  | targetDeleted k => by_cases hk : k = key <;> simp [Event.latch, hk] at hmem
  | evaluation => cases hmem
  | read k p met => cases hmem
  | triggered k p r => by_cases hk : k = key <;> simp [Event.latch, hk] at hmem
  | closeDone k ok => by_cases hk : k = key <;> simp [Event.latch, hk] at hmem

theorem exists_closeDone_of_finish {es : List Event} {key : String}
    (h : LatchEvent.finish ∈ es.flatMap (Event.latch key)) : ∃ ok, .closeDone key ok ∈ es := by
  obtain ⟨ev, hev, hmem⟩ := List.mem_flatMap.mp h
  cases ev with
  | closeDone k ok =>
    by_cases hk : k = key
    · exact ⟨ok, hk ▸ hev⟩
    · simp [Event.latch, hk] at hmem
  | targetSet k => by_cases hk : k = key <;> simp [Event.latch, hk] at hmem
  | targetChanged k => by_cases hk : k = key <;> simp [Event.latch, hk] at hmem
  | targetDeleted k => by_cases hk : k = key <;> simp [Event.latch, hk] at hmem
  | evaluation => cases hmem
  | read k p met => cases hmem
  | triggered k p r => by_cases hk : k = key <;> simp [Event.latch, hk] at hmem

/-- **At most one close per market-side, and one per arming.** In every state
reached, no key has two closes in flight; of two triggers of one key the close
of the first has ended before the second, and a `setTarget` or `removeTarget` of
that key came between them. -/
theorem closes_latched {e : TpSlEngine} {h : List Event} (hr : tpSl.Reachable e h) :
    e.closes.Nodup ∧
    ∀ key p r p' r' pre mid post,
      h = pre ++ .triggered key p r :: mid ++ .triggered key p' r' :: post →
      (∃ ok, .closeDone key ok ∈ mid) ∧ (.targetSet key ∈ mid ∨ .targetChanged key ∈ mid) := by
  refine ⟨((tpSl_refines_latch "").inv hr).nodup, ?_⟩
  intro key p r p' r' pre mid post hh
  have hread := (tpSl_refines_latch key).read hr
  rw [flatMap_split (Event.latch key) hh (if_pos rfl) (if_pos rfl)] at hread
  have harm := latch_fire_needs_arm hread
  have hfinish := latch_fire_needs_finish hread
  exact ⟨exists_closeDone_of_finish hfinish, exists_target_call_of_arm harm⟩

/-- A run in which a take profit is triggered, set again while its close is in
flight, and triggered again after the close. -/
def closesTwice : List Action :=
  let pos : Position :=
    { pubkey := "P", market := "SOL", side := .Long
      currentPrice := .finite 100, markPrice := .finite 101, timestamp := 0 }
  let gates : Gates := { breakerAllowed := fun _ => true, killSwitchAllowed := fun _ => true }
  [.setCloseExecutor, .setTarget "sol" "LONG" (some (.finite 100)) none,
    .evaluate gates [pos], .evaluate gates [pos], .setTarget "SOL" "long" none none,
    .evaluate gates [pos], .executorDone "SOL-long" true, .setTarget "SOL" "long" none
      (some (.finite 50)), .evaluate gates [pos], .evaluate gates [pos]]

theorem closes_latched_closesTwice :
    ∃ e h p r p' r' pre mid post, tpSl.run closesTwice = some (e, h) ∧
      h = pre ++ .triggered "SOL-long" p r :: mid ++ .triggered "SOL-long" p' r' :: post ∧
      (∃ ok, .closeDone "SOL-long" ok ∈ mid) ∧
      (.targetSet "SOL-long" ∈ mid ∨ .targetChanged "SOL-long" ∈ mid) := by
  let p : PositionId := { pubkey := "P", timestamp := 0 }
  let reading : Event := .read "SOL-long" p [.TAKE_PROFIT]
  let pre : List Event := [.targetSet "SOL-long", .evaluation, reading, .evaluation, reading]
  let mid : List Event := [.targetSet "SOL-long", .evaluation, reading,
    .closeDone "SOL-long" true, .targetSet "SOL-long", .evaluation, reading, .evaluation, reading]
  have hrun : (tpSl.run closesTwice).map Prod.snd = some (pre ++
      .triggered "SOL-long" p .TAKE_PROFIT :: mid ++ [.triggered "SOL-long" p .TAKE_PROFIT]) := by
    decide +kernel
  obtain ⟨⟨e, h⟩, he, hh⟩ := Option.map_eq_some_iff.mp hrun
  exact ⟨e, h, p, _, p, _, pre, mid, [], he, hh,
    (closes_latched (Machine.reachable_of_run he)).2 _ _ _ _ _ _ _ _ hh⟩

end TpSlEngine

end FlashEdge
