import FlashEdge.Risk.CloseLatch
import FlashEdge.Theory.OnDemand

/-!
# The targets that are polled, and the stops that are tried again

Two promises of the engine about an armed target. Positions are polled by itself
while one exists; and a stop loss is not lost: if its close fails it becomes
armed again, or it has been removed.

The timer is started in `setTarget` and stopped in `removeTarget` (when the
target goes) and at the end of an evaluation. `setClient` does not start it for
targets that exist, and neither does a `removeTarget` that leaves the other value
and so arms the target again. A failed close is only logged: nothing but a call of
the user arms the target again. `targets_guarded_iff` says that this is all.
-/

namespace FlashEdge

namespace TpSlEngine

/-! ## The two promises -/

/-- The engine's poll timer. -/
def polling : OnDemand TpSlEngine where
  ready := client
  work := hasActiveTargets
  timer := pollTimer

/-- With a client and an armed target of an open position the timer runs,
whichever positions are open. -/
def TargetsPolled (e : TpSlEngine) : Prop :=
  ∀ isOpen : String → Prop, e.client = true →
    (∃ key, isOpen key ∧ armed key e = true) → e.pollTimer = true

/-- How the last close of a key stands. -/
inductive CloseStatus where
  | none
  | closing (reason : CloseReason)
  | closed (reason : CloseReason)
  | failed (reason : CloseReason)
deriving DecidableEq, Repr

/-- What one event says of the last close of `key`. -/
def nextStatus (key : String) : CloseStatus → Event → CloseStatus
  | status, .triggered k _ reason => if k = key then .closing reason else status
  | .closing reason, .closeDone k ok =>
    if k = key then (if ok then .closed reason else .failed reason) else .closing reason
  | status, _ => status

/-- The last close of `key` in a history. -/
def closeStatus (key : String) (h : List Event) : CloseStatus :=
  h.foldl (nextStatus key) .none

/-- The target of the key is armed, or there is none. -/
def NotStuck (e : TpSlEngine) (key : String) : Prop :=
  ∀ t, e.targets.get? key = some t → t.triggered = false

/-- A stop loss whose close has failed is armed again or was removed. -/
def StopsRecovered (e : TpSlEngine) (h : List Event) : Prop :=
  ∀ key, closeStatus key h = .failed .STOP_LOSS → e.NotStuck key

/-- Both promises. -/
def TargetsGuarded (e : TpSlEngine) (h : List Event) : Prop :=
  e.TargetsPolled ∧ e.StopsRecovered h

/-- The call removes one of two values, so that the target stays. -/
def LeavesValue (e : TpSlEngine) (market side : String) (type : TargetType) : Prop :=
  ∃ existing, e.targets.get? (makeKey market side) = some existing ∧
    ((clearedTarget existing type).tp.isNone && (clearedTarget existing type).sl.isNone) = false

/-- What the timer relies on, of a step and the state before it. -/
def KeepsPolling (e : TpSlEngine) : Action → Prop
  | .setClient => e.client = false → e.hasActiveTargets = false
  | .stop => e.client = true → e.hasActiveTargets = false
  | .removeTarget market side type =>
    e.LeavesValue market side type → e.client = true → e.hasActiveTargets = true
  | _ => True

/-- What the stop losses rely on: when the close of one fails, the user has
already armed or removed the target. -/
def KeepsStops (e : TpSlEngine) (h : List Event) : Action → Prop
  | .executorDone key false => closeStatus key h = .closing .STOP_LOSS → e.NotStuck key
  | _ => True

/-! ## The timer -/

theorem hasActiveTargets_iff {e : TpSlEngine} :
    e.hasActiveTargets = true ↔ ∃ key, armed key e = true := by
  simp only [hasActiveTargets, armed, List.any_eq_true, Option.any_eq_true,
    OrderedMap.get?_eq_some_iff, Prod.exists]

theorem targetsPolled_iff {e : TpSlEngine} : e.TargetsPolled ↔ polling.Served e := by
  constructor
  · intro h hclient hactive
    obtain ⟨key, harmed⟩ := hasActiveTargets_iff.mp hactive
    exact h (fun _ => True) hclient ⟨key, trivial, harmed⟩
  · rintro h isOpen hclient ⟨key, -, harmed⟩
    exact h hclient (hasActiveTargets_iff.mpr ⟨key, harmed⟩)

/-- A piece of a step that arms nothing and leaves the client and the timer alone. -/
structure Quiet (e e' : TpSlEngine) : Prop where
  client : e'.client = e.client
  pollTimer : e'.pollTimer = e.pollTimer
  armed : ∀ key, TpSlEngine.armed key e' = true → TpSlEngine.armed key e = true

theorem Quiet.refl (e : TpSlEngine) : Quiet e e := ⟨rfl, rfl, fun _ h => h⟩

theorem Quiet.trans {e e' e'' : TpSlEngine} (h : Quiet e e') (h' : Quiet e' e'') : Quiet e e'' :=
  ⟨h'.client.trans h.client, h'.pollTimer.trans h.pollTimer,
    fun key ha => h.armed key (h'.armed key ha)⟩

theorem Quiet.active {e e' : TpSlEngine} (h : Quiet e e') (ha : e'.hasActiveTargets = true) :
    e.hasActiveTargets = true := by
  obtain ⟨key, harmed⟩ := hasActiveTargets_iff.mp ha
  exact hasActiveTargets_iff.mpr ⟨key, h.armed key harmed⟩

theorem quiet_countTicks (e : TpSlEngine) (key : String) (ticks : ℕ) :
    Quiet e (e.countTicks key ticks) := by
  refine ⟨rfl, rfl, fun k hk => ?_⟩
  unfold armed at hk ⊢
  rw [countTicks_get?] at hk
  split at hk
  · rw [Option.any_map] at hk
    exact hk
  · exact hk

theorem quiet_startClose (e : TpSlEngine) (key : String) : Quiet e (e.startClose key) := by
  refine ⟨rfl, rfl, fun k hk => ?_⟩
  unfold armed at hk ⊢
  rw [startClose_get?] at hk
  split at hk
  · -- the target of this key is triggered now
    rw [Option.any_map] at hk
    cases hget : e.targets.get? k <;> simp [hget] at hk
  · exact hk

theorem quiet_evaluatePosition (e : TpSlEngine) (gates : Gates) (pos : Position) :
    Quiet e (e.evaluatePosition gates pos).1 := by
  rcases evaluatePosition_cases e gates pos with
    ⟨-, hskip⟩ | ⟨target, price, -, hread | ⟨reason, -, -, -, hfire⟩⟩
  · rw [hskip]
    exact .refl e
  · rw [hread]
    exact quiet_countTicks e _ _
  · rw [hfire]
    exact (quiet_countTicks e _ _).trans (quiet_startClose _ _)

/-- The loop, by induction on the positions still to visit. -/
theorem quiet_evaluatePositions (gates : Gates) (positions : List Position) (e : TpSlEngine) :
    Quiet e (e.evaluatePositions gates positions).1 := by
  induction positions generalizing e with
  | nil => exact .refl e
  | cons pos rest ih => exact (quiet_evaluatePosition e gates pos).trans (ih _)

/-- After a quiet piece `maybeStopPolling` settles the timer. -/
theorem settled_maybeStopPolling {e e' : TpSlEngine} (h : polling.Settled e) (hq : Quiet e e') :
    polling.Settled e'.maybeStopPolling := by
  have hactive : e'.maybeStopPolling.hasActiveTargets = e'.hasActiveTargets := by
    obtain ⟨b, hb⟩ := maybeStopPolling_eq e'
    rw [hb]
    rfl
  refine h.idled ?_ (fun ha => hq.active (hactive ▸ ha)) ?_
  · obtain ⟨b, hb⟩ := maybeStopPolling_eq e'
    rw [hb]
    exact hq.client
  · show e'.maybeStopPolling.pollTimer = (e.pollTimer && e'.maybeStopPolling.hasActiveTargets)
    rw [hactive, ← hq.pollTimer]
    unfold maybeStopPolling
    cases ha : e'.hasActiveTargets <;> simp [stop]

/-- After a target was armed `ensurePolling` settles the timer. -/
theorem settled_ensurePolling {e e' : TpSlEngine} (h : polling.Settled e)
    (hclient : e'.client = e.client) (htimer : e'.pollTimer = e.pollTimer)
    (hactive : e'.hasActiveTargets = true) : polling.Settled e'.ensurePolling := by
  refine h.started ?_ ?_ ?_
  · obtain ⟨b, hb⟩ := ensurePolling_eq e'
    rw [hb]
    exact hclient
  · obtain ⟨b, hb⟩ := ensurePolling_eq e'
    rw [hb]
    exact hactive
  · show e'.ensurePolling.pollTimer = (e.pollTimer || e.client)
    rw [← hclient, ← htimer]
    unfold ensurePolling
    cases ht : e'.pollTimer <;> cases hc : e'.client <;> simp [ht]

theorem settled_setTarget {e : TpSlEngine} (h : polling.Settled e) (market side : String)
    (tp sl : Option JsNumber) : polling.Settled (e.setTarget market side tp sl).1 := by
  unfold setTarget
  dsimp only
  split
  · exact h
  · refine settled_ensurePolling h rfl rfl (hasActiveTargets_iff.mpr ⟨makeKey market side, ?_⟩)
    unfold armed
    rw [OrderedMap.get?_set_self]
    rfl

/-- A removed value: with the target gone the timer is looked at, with a value
left the target is armed and the timer is not. -/
theorem decides_removeTarget {e : TpSlEngine} (h : polling.Settled e) (market side : String)
    (type : TargetType) :
    polling.Decides (e.KeepsPolling (.removeTarget market side type))
      (e.removeTarget market side type).1 := by
  unfold removeTarget
  dsimp only
  cases hget : e.targets.get? (makeKey market side) with
  | none =>
    refine .inl ⟨?_, h⟩
    rintro ⟨existing, hsome, -⟩
    rw [hget] at hsome
    cases hsome
  | some existing =>
    dsimp only
    split
    · next hgone =>
      refine .inl ⟨?_, settled_maybeStopPolling h ⟨rfl, rfl, fun key ha => ?_⟩⟩
      · rintro ⟨existing', hsome, hleft⟩
        obtain rfl := Option.some.inj (hget.symm.trans hsome)
        rw [hgone] at hleft
        cases hleft
      · unfold armed at ha ⊢
        obtain ⟨t, ht, hwait⟩ := (Option.any_eq_true _ _).mp ha
        exact (Option.any_eq_true _ _).mpr ⟨t, (OrderedMap.get?_delete_eq_some.mp ht).2, hwait⟩
    · next hleft =>
      have hleaves : e.LeavesValue market side type :=
        ⟨existing, hget, Bool.eq_false_iff.mpr hleft⟩
      have hactive : ∀ e' : TpSlEngine,
          e'.targets = e.targets.modify (makeKey market side) (fun t => clearedTarget t type) →
            e'.hasActiveTargets = true := by
        intro e' htargets
        refine hasActiveTargets_iff.mpr ⟨makeKey market side, ?_⟩
        unfold armed
        rw [htargets, OrderedMap.get?_modify, if_pos rfl, hget]
        rfl
      have hwoken : polling.Decides (e.client = true → e.hasActiveTargets = true)
          { e with
            targets := e.targets.modify (makeKey market side) fun t => clearedTarget t type } :=
        h.woken rfl (hactive _ rfl) rfl
      rcases hwoken with ⟨hC, hnew⟩ | ⟨hC, hnot⟩
      · exact .inl ⟨fun _ => hC, hnew⟩
      · exact .inr ⟨fun hkeeps => hC (hkeeps hleaves), hnot⟩

theorem settled_evaluate {e : TpSlEngine} (h : polling.Settled e) (gates : Gates)
    (positions : List Position) : polling.Settled (e.evaluate gates positions).1 := by
  unfold evaluate
  split
  · exact h
  · exact settled_maybeStopPolling h (quiet_evaluatePositions gates positions e)

/-- **One step, for the timer.** -/
theorem polling_step {e e' : TpSlEngine} {a : Action} {es : List Event} (h : polling.Settled e)
    (hs : e.step a = some (e', es)) : polling.Decides (e.KeepsPolling a) e' := by
  cases a with
  | setCloseExecutor =>
    obtain ⟨rfl, -⟩ := Machine.some_pair hs
    exact (OnDemand.Settled.of_same h rfl rfl rfl).decides
  | setClient =>
    obtain ⟨rfl, -⟩ := Machine.some_pair hs
    exact h.readied rfl rfl rfl
  | stop =>
    obtain ⟨rfl, -⟩ := Machine.some_pair hs
    exact OnDemand.decides_stopped rfl rfl rfl
  | setTarget market side tp sl =>
    obtain ⟨rfl, -⟩ := Machine.some_pair hs
    exact (settled_setTarget h market side tp sl).decides
  | removeTarget market side type =>
    obtain ⟨rfl, -⟩ := Machine.some_pair hs
    exact decides_removeTarget h market side type
  | evaluate gates positions =>
    obtain ⟨rfl, -⟩ := Machine.some_pair hs
    exact (settled_evaluate h gates positions).decides
  | pollTick =>
    rw [step] at hs
    split at hs
    · obtain ⟨rfl, -⟩ := Machine.some_pair hs
      have hnew : polling.Settled e.pollTick := by
        unfold pollTick
        split
        · exact h
        · split
          · next hidle =>
            have hnone : e.hasActiveTargets = false := by simpa using hidle
            refine h.idled rfl (fun ha => ha) ?_
            show false = (e.pollTimer && e.stop.hasActiveTargets)
            rw [show e.stop.hasActiveTargets = e.hasActiveTargets from rfl, hnone, Bool.and_false]
          · exact h
      exact hnew.decides
    · cases hs
  | positions gates answer =>
    rw [step] at hs
    split at hs
    · obtain ⟨rfl, -⟩ := Machine.some_pair hs
      cases answer with
      | none => exact (h.of_same rfl rfl rfl).decides
      | some positions =>
        have hnew := settled_evaluate h gates positions
        exact (hnew.of_same rfl rfl rfl).decides
    · cases hs
  | executorDone key ok =>
    rw [step] at hs
    split at hs
    · obtain ⟨rfl, -⟩ := Machine.some_pair hs
      exact (h.of_same rfl rfl rfl).decides
    · cases hs

/-! ## The stop losses -/

/-- What relates the closes in flight and the history. -/
structure Accounted (e : TpSlEngine) (h : List Event) : Prop where
  locked : e.Locked
  closing : ∀ key ∈ e.closes, ∃ reason, closeStatus key h = .closing reason
  recovered : e.StopsRecovered h

theorem closeStatus_append (key : String) (h es : List Event) :
    closeStatus key (h ++ es) = es.foldl (nextStatus key) (closeStatus key h) :=
  List.foldl_append

/-- A piece of a step keeps the account, after whatever history. -/
def Keeps (e e' : TpSlEngine) (es : List Event) : Prop :=
  ∀ h, e.Accounted h → e'.Accounted (h ++ es)

theorem Keeps.refl (e : TpSlEngine) : Keeps e e [] := fun h hacc => by
  rw [List.append_nil]
  exact hacc

theorem Keeps.trans {e e' e'' : TpSlEngine} {es es' : List Event} (h : Keeps e e' es)
    (h' : Keeps e' e'' es') : Keeps e e'' (es ++ es') := fun past hacc => by
  rw [← List.append_assoc]
  exact h' _ (h past hacc)

theorem Keeps.trans_nil {e e' e'' : TpSlEngine} {es : List Event} (h : Keeps e e' es)
    (h' : Keeps e' e'' []) : Keeps e e'' es := by
  have htrans := h.trans h'
  rw [List.append_nil] at htrans
  exact htrans

/-- A piece that starts and ends no close and triggers no target. -/
theorem keeps_of_same {e e' : TpSlEngine} {es : List Event} (hcloses : e'.closes = e.closes)
    (hkeys : e'.closingKeys = e.closingKeys)
    (hfree : ∀ key, e.NotStuck key → e'.NotStuck key)
    (hes : ∀ key status, es.foldl (nextStatus key) status = status) : Keeps e e' es := by
  intro h hacc
  refine ⟨⟨hcloses ▸ hacc.locked.nodup, fun key => ?_⟩, fun key hkey => ?_, fun key hkey => ?_⟩
  · rw [hkeys, hcloses]
    exact hacc.locked.closing key
  · rw [closeStatus_append, hes]
    exact hacc.closing key (hcloses ▸ hkey)
  · rw [closeStatus_append, hes] at hkey
    exact hfree key (hacc.recovered key hkey)

/-- The timer, the client and the poll flag do not count. -/
theorem keeps_of_targets {e e' : TpSlEngine} (hcloses : e'.closes = e.closes)
    (hkeys : e'.closingKeys = e.closingKeys) (htargets : e'.targets = e.targets) :
    Keeps e e' [] :=
  keeps_of_same hcloses hkeys
    (fun key hfree => by
      unfold NotStuck at hfree ⊢
      rw [htargets]
      exact hfree)
    fun _ _ => rfl

theorem keeps_setTarget (e : TpSlEngine) (market side : String) (tp sl : Option JsNumber) :
    Keeps e (e.setTarget market side tp sl).1 (e.setTarget market side tp sl).2 := by
  unfold setTarget
  dsimp only
  split
  · exact .refl e
  · obtain ⟨b, hb⟩ := ensurePolling_eq { e with targets := e.targets.set (makeKey market side) _ }
    rw [hb]
    refine keeps_of_same rfl rfl (fun key hfree t ht => ?_) fun _ _ => rfl
    -- the new target is armed, and the others are as they were
    rcases OrderedMap.get?_set_eq_some.mp ht with ⟨-, rfl⟩ | ⟨-, hold⟩
    · rfl
    · exact hfree t hold

theorem keeps_removeTarget (e : TpSlEngine) (market side : String) (type : TargetType) :
    Keeps e (e.removeTarget market side type).1 (e.removeTarget market side type).2 := by
  unfold removeTarget
  dsimp only
  split
  · exact .refl e
  · split
    · obtain ⟨b, hb⟩ :=
        maybeStopPolling_eq { e with targets := e.targets.delete (makeKey market side) }
      rw [hb]
      refine keeps_of_same rfl rfl (fun key hfree t ht => ?_) fun _ _ => rfl
      exact hfree t (OrderedMap.get?_delete_eq_some.mp ht).2
    · refine keeps_of_same rfl rfl (fun key hfree t ht => ?_) fun _ _ => rfl
      change (e.targets.modify (makeKey market side) _).get? key = some t at ht
      rw [OrderedMap.get?_modify] at ht
      split at ht
      · obtain ⟨t', -, rfl⟩ := Option.map_eq_some_iff.mp ht
        rfl
      · exact hfree t ht

theorem keeps_countTicks (e : TpSlEngine) (key : String) (ticks : ℕ) (position : PositionId)
    (met : List CloseReason) : Keeps e (e.countTicks key ticks) [.read key position met] := by
  refine keeps_of_same rfl rfl (fun k hfree t ht => ?_) fun _ _ => rfl
  rw [countTicks_get?] at ht
  split at ht
  · obtain ⟨t', hold, rfl⟩ := Option.map_eq_some_iff.mp ht
    exact hfree t' hold
  · exact hfree t ht

/-- A trigger: from now on the last close of the key is in flight. -/
theorem keeps_startClose {e : TpSlEngine} {key : String} {position : PositionId}
    {reason : CloseReason} (hfree : key ∉ e.closingKeys) :
    Keeps e (e.startClose key) [.triggered key position reason] := by
  intro h hacc
  have hidle : key ∉ e.closes := fun hmem => hfree ((hacc.locked.closing key).mpr hmem)
  have hstatus : ∀ k, closeStatus k (h ++ [.triggered key position reason]) =
      if key = k then .closing reason else closeStatus k h := fun k => closeStatus_append k h _
  refine ⟨⟨List.nodup_cons.mpr ⟨hidle, hacc.locked.nodup⟩, fun k => ?_⟩, fun k hk => ?_,
    fun k hk t ht => ?_⟩
  · show k ∈ key :: e.closingKeys ↔ k ∈ key :: e.closes
    rw [List.mem_cons, List.mem_cons, hacc.locked.closing]
  · rw [hstatus]
    split
    · exact ⟨reason, rfl⟩
    · next hne =>
      exact hacc.closing k ((List.mem_cons.mp hk).resolve_left (Ne.symm hne))
  · rw [hstatus] at hk
    split at hk
    · cases hk
    · next hne =>
      rw [startClose_get?, if_neg (Ne.symm hne)] at ht
      exact hacc.recovered k hk t ht

theorem keeps_evaluatePosition (e : TpSlEngine) (gates : Gates) (pos : Position) :
    Keeps e (e.evaluatePosition gates pos).1 (e.evaluatePosition gates pos).2 := by
  rcases evaluatePosition_cases e gates pos with
    ⟨-, hskip⟩ | ⟨target, price, -, hread | ⟨reason, -, -, hfree, hfire⟩⟩
  · rw [hskip]
    exact .refl e
  · rw [hread]
    exact keeps_countTicks _ _ _ _ _
  · rw [hfire]
    exact (keeps_countTicks e pos.key _ pos.id _).trans (keeps_startClose hfree)

/-- The loop, by induction on the positions still to visit. -/
theorem keeps_evaluatePositions (gates : Gates) (positions : List Position) (e : TpSlEngine) :
    Keeps e (e.evaluatePositions gates positions).1 (e.evaluatePositions gates positions).2 := by
  induction positions generalizing e with
  | nil => exact .refl e
  | cons pos rest ih => exact (keeps_evaluatePosition e gates pos).trans (ih _)

theorem keeps_evaluate (e : TpSlEngine) (gates : Gates) (positions : List Position) :
    Keeps e (e.evaluate gates positions).1 (e.evaluate gates positions).2 := by
  have hmarker : Keeps e e [.evaluation] := keeps_of_same rfl rfl (fun _ h => h) fun _ _ => rfl
  unfold evaluate
  split
  · exact hmarker
  · obtain ⟨b, hb⟩ := maybeStopPolling_eq (e.evaluatePositions gates positions).1
    have hstop : Keeps (e.evaluatePositions gates positions).1
        (e.evaluatePositions gates positions).1.maybeStopPolling [] := by
      rw [hb]
      exact keeps_of_targets rfl rfl rfl
    exact (hmarker.trans (keeps_evaluatePositions gates positions e)).trans_nil hstop

/-- The end of a close: only a failed one of a stop loss needs the target freed. -/
theorem executorDone_stops {e : TpSlEngine} {h : List Event} (hacc : e.Accounted h) {key : String}
    (ok : Bool) (hmem : key ∈ e.closes) :
    let e' := (e.executeCloseDone key ok).1
    let h' := h ++ (e.executeCloseDone key ok).2
    (e.KeepsStops h (.executorDone key ok) ∧ e'.Accounted h') ∨
      (¬ e.KeepsStops h (.executorDone key ok) ∧ ¬ e'.StopsRecovered h') := by
  intro e' h'
  obtain ⟨reason, hreason⟩ := hacc.closing key hmem
  have hself : closeStatus key h' = if ok then .closed reason else .failed reason := by
    simp only [h', executeCloseDone, closeStatus_append, hreason, List.foldl_cons, List.foldl_nil,
      nextStatus, if_true]
  have hother : ∀ k, k ≠ key → closeStatus k h' = closeStatus k h := fun k hk => by
    simp only [h', executeCloseDone, closeStatus_append, List.foldl_cons, List.foldl_nil]
    cases closeStatus k h <;> simp [nextStatus, Ne.symm hk]
  have hlocked : e'.Locked := (latches_executeCloseDone e ok hmem hacc.locked).1
  have hgone : key ∉ e.closes.erase key := hacc.locked.nodup.not_mem_erase
  -- all but the recovery of this key
  have hnew : (closeStatus key h' = .failed .STOP_LOSS → e.NotStuck key) → e'.Accounted h' := by
    intro hkey
    refine ⟨hlocked, fun k hk => ?_, fun k hk => ?_⟩
    · change k ∈ e.closes.erase key at hk
      have hne : k ≠ key := fun heq => hgone (heq ▸ hk)
      rw [hother k hne]
      exact hacc.closing k ((List.mem_erase_of_ne hne).mp hk)
    · by_cases hne : k = key
      · subst hne
        exact hkey hk
      · rw [hother k hne] at hk
        exact hacc.recovered k hk
  cases ok with
  | true =>
    refine .inl ⟨trivial, hnew fun hfailed => ?_⟩
    rw [hself] at hfailed
    cases hfailed
  | false =>
    by_cases hC : e.KeepsStops h (.executorDone key false)
    · refine .inl ⟨hC, hnew fun hfailed => hC ?_⟩
      rw [hself] at hfailed
      cases hfailed
      exact hreason
    · refine .inr ⟨hC, fun hrec => hC fun hstop => ?_⟩
      -- the failed close of a stop loss, whose target is as it was
      rw [hreason] at hstop
      have hfree : e'.NotStuck key := hrec key (by rw [hself]; cases hstop; rfl)
      exact hfree

/-- **One step, for the stop losses.** -/
theorem stops_step {e e' : TpSlEngine} {h : List Event} {a : Action} {es : List Event}
    (hacc : e.Accounted h) (hs : e.step a = some (e', es)) :
    (e.KeepsStops h a ∧ e'.Accounted (h ++ es)) ∨
      (¬ e.KeepsStops h a ∧ ¬ e'.StopsRecovered (h ++ es)) := by
  have hsame : ∀ e' : TpSlEngine, e'.closes = e.closes → e'.closingKeys = e.closingKeys →
      e'.targets = e.targets → e'.Accounted (h ++ []) := fun e' hcloses hkeys htargets =>
    keeps_of_targets hcloses hkeys htargets h hacc
  cases a with
  | setCloseExecutor =>
    obtain ⟨rfl, rfl⟩ := Machine.some_pair hs
    exact .inl ⟨trivial, hsame _ rfl rfl rfl⟩
  | setClient =>
    obtain ⟨rfl, rfl⟩ := Machine.some_pair hs
    exact .inl ⟨trivial, hsame _ rfl rfl rfl⟩
  | stop =>
    obtain ⟨rfl, rfl⟩ := Machine.some_pair hs
    exact .inl ⟨trivial, hsame _ rfl rfl rfl⟩
  | setTarget market side tp sl =>
    obtain ⟨rfl, rfl⟩ := Machine.some_pair hs
    exact .inl ⟨trivial, keeps_setTarget e market side tp sl h hacc⟩
  | removeTarget market side type =>
    obtain ⟨rfl, rfl⟩ := Machine.some_pair hs
    exact .inl ⟨trivial, keeps_removeTarget e market side type h hacc⟩
  | evaluate gates positions =>
    obtain ⟨rfl, rfl⟩ := Machine.some_pair hs
    exact .inl ⟨trivial, keeps_evaluate e gates positions h hacc⟩
  | pollTick =>
    rw [step] at hs
    split at hs
    · obtain ⟨rfl, rfl⟩ := Machine.some_pair hs
      obtain ⟨b, c, hbc⟩ := pollTick_eq e
      refine .inl ⟨trivial, ?_⟩
      show e.pollTick.Accounted (h ++ [])
      rw [hbc]
      exact hsame _ rfl rfl rfl
    · cases hs
  | positions gates answer =>
    rw [step] at hs
    split at hs
    · obtain ⟨rfl, rfl⟩ := Machine.some_pair hs
      refine .inl ⟨trivial, ?_⟩
      cases answer with
      | none => exact hsame _ rfl rfl rfl
      | some positions =>
        have hdone : Keeps (e.evaluate gates positions).1
            (e.pollResume gates (some positions)).1 [] := keeps_of_targets rfl rfl rfl
        exact (keeps_evaluate e gates positions).trans_nil hdone h hacc
    · cases hs
  | executorDone key ok =>
    rw [step] at hs
    split at hs
    · next hmem =>
      obtain ⟨rfl, rfl⟩ := Machine.some_pair hs
      exact executorDone_stops hacc ok hmem
    · cases hs

/-! ## Both promises -/

/-- **When armed targets are polled and stop losses recovered.** In every run
both promises hold in every state exactly when no client is registered after a
target that is armed, no value is removed from a target while a client is set and
nothing is armed, the timer is not stopped from outside, and no close of a stop
loss fails whose target is still triggered. -/
theorem targets_guarded_iff (as : List Action) :
    tpSl.Always TargetsGuarded tpSl.init [] as ↔
      tpSl.Along (fun e h a => e.KeepsPolling a ∧ e.KeepsStops h a) tpSl.init [] as := by
  have hacc : Accounted tpSl.init [] :=
    { locked := (tpSl_refines_latch "").inv Machine.Reachable.init
      closing := fun _ hkey => absurd hkey List.not_mem_nil
      recovered := fun _ _ _ ht => absurd ht (Option.some_ne_none _).symm }
  have hinit : polling.Settled tpSl.init ∧ Accounted tpSl.init [] := ⟨rfl, hacc⟩
  refine Machine.always_iff_along_of_step
    (I := fun e h => polling.Settled e ∧ e.Accounted h)
    (fun hI => ⟨targetsPolled_iff.mpr hI.1.served, hI.2.recovered⟩) ?_ hinit as
  intro e h a e' es hI hs
  rcases polling_step hI.1 hs with ⟨hpoll, hsettled⟩ | ⟨hpoll, hnot⟩
  · rcases stops_step hI.2 hs with ⟨hstops, hnew⟩ | ⟨hstops, hnot⟩
    · exact .inl ⟨⟨hpoll, hstops⟩, hsettled, hnew⟩
    · exact .inr ⟨fun hC => hstops hC.2, fun hP => hnot hP.2⟩
  · exact .inr ⟨fun hC => hpoll hC.1, fun hP => hnot (targetsPolled_iff.mp hP.1)⟩

/-- The stop loss of a position is triggered by two polls, and its close fails. -/
def stopLossFails : List Action :=
  let pos : Position :=
    { pubkey := "P", market := "SOL", side := .Long
      currentPrice := .finite 80, markPrice := .finite 80, timestamp := 0 }
  let gates : Gates := { breakerAllowed := fun _ => true, killSwitchAllowed := fun _ => true }
  [.setCloseExecutor, .setClient, .setTarget "SOL" "long" none (some (.finite 90)),
    .pollTick, .positions gates (some [pos]), .pollTick, .positions gates (some [pos]),
    .executorDone "SOL-long" false]

/-- It stays triggered, and nobody polls any more. -/
theorem stop_loss_lost :
    ∃ e h, tpSl.run stopLossFails = some (e, h) ∧ e.pollTimer = false ∧
      armed "SOL-long" e = false ∧ ¬ e.TargetsGuarded h := by
  have hrun : (tpSl.run stopLossFails).map
      (fun r => (r.1.pollTimer, (r.1.targets.get? "SOL-long").map TpSlTarget.triggered,
        closeStatus "SOL-long" r.2)) = some (false, some true, .failed .STOP_LOSS) := by
    decide +kernel
  obtain ⟨⟨e, h⟩, he, hend⟩ := Option.map_eq_some_iff.mp hrun
  simp only [Prod.mk.injEq] at hend
  obtain ⟨htimer, htarget, hstatus⟩ := hend
  obtain ⟨t, ht, htr⟩ := Option.map_eq_some_iff.mp htarget
  refine ⟨e, h, he, htimer, ?_, fun hP => ?_⟩
  · rw [armed, ht, Option.any_some, htr]
    rfl
  · rw [hP.2 _ hstatus t ht] at htr
    cases htr

/-- **A stuck target stays stuck.** Where the target of a key is not armed, no
run without a call of the user that sets or changes it arms it again. -/
theorem stuck_stays {key : String} {e e' : TpSlEngine} {h es : List Event} {as : List Action}
    (hr : tpSl.Reachable e h) (hstuck : armed key e = false)
    (hrun : tpSl.runFrom e h as = some (e', h ++ es)) (hset : .targetSet key ∉ es)
    (hchanged : .targetChanged key ∉ es) : armed key e' = false := by
  -- the latch of the key has read what happened since
  have hread : e'.Locked ∧ ∃ es', h ++ es = h ++ es' ∧
      latch.read (latchState key e) (es'.flatMap (Event.latch key)) =
        some (latchState key e') := by
    refine Machine.invariant_of_runFrom (M := tpSl)
      (I := fun s past => s.Locked ∧ ∃ es', past = h ++ es' ∧
        latch.read (latchState key e) (es'.flatMap (Event.latch key)) = some (latchState key s))
      ?_ ⟨(tpSl_refines_latch key).inv hr, [], by simp, rfl⟩ hrun
    rintro s s' past new a ⟨hlocked, es', rfl, hread⟩ hs
    obtain ⟨hlocked', hnew⟩ := latches_step hs hlocked
    refine ⟨hlocked', es' ++ new, List.append_assoc _ _ _, ?_⟩
    rw [List.flatMap_append, Acceptor.read_append, hread]
    exact hnew key
  obtain ⟨-, es', hsplit, hread⟩ := hread
  obtain rfl := List.append_cancel_left hsplit
  refine Acceptor.read_stays (A := latch) (Q := fun c => c.armed = false) (K := (· = .arm))
    (fun hc hn hne => latch_stays_disarmed hc hn hne) hstuck hread ?_
  rintro ev hev rfl
  rcases exists_target_call_of_arm hev with hcall | hcall
  · exact hset hcall
  · exact hchanged hcall

/-- The stop loss whose close has failed stays stuck while the user does not touch it. -/
theorem stuck_stays_stopLossFails : ∃ e h, tpSl.run stopLossFails = some (e, h) ∧
    ∀ as e' es, tpSl.runFrom e h as = some (e', h ++ es) → .targetSet "SOL-long" ∉ es →
      .targetChanged "SOL-long" ∉ es → armed "SOL-long" e' = false := by
  have hrun : (tpSl.run stopLossFails).map (fun r => armed "SOL-long" r.1) = some false := by
    decide +kernel
  obtain ⟨⟨e, h⟩, he, hstuck⟩ := Option.map_eq_some_iff.mp hrun
  exact ⟨e, h, he, fun as e' es hfrom hset hchanged =>
    stuck_stays (Machine.reachable_of_run he) hstuck hfrom hset hchanged⟩

end TpSlEngine

end FlashEdge
