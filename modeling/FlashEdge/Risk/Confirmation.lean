import FlashEdge.Theory.Machine
import FlashEdge.Risk.TpSlEngine

/-!
# Two consecutive confirmations of one reason

The engine's spike protection is a counter of readings. What it is for is a
statement about the past of a trigger: `Confirmed` says that the reason's own
condition held in the evaluation that triggers and in the one before it, for the
same open position. The counter does not know that much: it counts a reading of
either reason, it survives an evaluation that does not read the position, and it
does not ask which position was read.

- `not_confirmed`: a run with a trigger that is not confirmed.
- `Steady`: the readings for which the counter and the purpose agree.
- `confirmed_of_steady`: in every run whose evaluations are steady every trigger
  is confirmed. The link is `Counted`: a counter that stands is owed to the last
  reading since the target was changed.
-/

namespace FlashEdge

namespace TpSlEngine

/-! ## What a trigger should mean -/

def Event.isEvaluation : Event → Bool
  | .evaluation => true
  | _ => false

/-- The events of the preceding evaluation and of the current one. -/
def lastEvaluations (h : List Event) : List Event × List Event :=
  lastRounds Event.isEvaluation h

/-- The event reads the position with the condition of `reason` holding. -/
def Event.holds (key : String) (position : PositionId) (reason : CloseReason) : Event → Bool
  | .read k p met => k = key && p = position && reason ∈ met
  | _ => false

/-- The evaluation read the position, and the condition of `reason` held. -/
def HeldIn (evaluation : List Event) (key : String) (position : PositionId)
    (reason : CloseReason) : Prop :=
  ∃ ev ∈ evaluation, ev.holds key position reason = true

instance (evaluation : List Event) (key : String) (position : PositionId) (reason : CloseReason) :
    Decidable (HeldIn evaluation key position reason) :=
  inferInstanceAs (Decidable (∃ ev ∈ evaluation, ev.holds key position reason = true))

theorem heldIn_of_read {evaluation : List Event} {key : String} {position : PositionId}
    {reason : CloseReason} {met : List CloseReason}
    (hread : .read key position met ∈ evaluation) (hmet : reason ∈ met) :
    HeldIn evaluation key position reason := by
  refine ⟨_, hread, ?_⟩
  show (key = key && position = position && reason ∈ met : Bool) = true
  simp [hmet]

/-- A trigger is confirmed by the current evaluation and by the preceding one. -/
def Confirmed (h : List Event) : Event → Prop
  | .triggered key position reason =>
    HeldIn (lastEvaluations h).2 key position reason ∧
      HeldIn (lastEvaluations h).1 key position reason
  | _ => True

/-- A take profit at 100 and a stop loss at 90 on a long position that is read at
101 and then at 89. -/
def mixedReasons : List Action :=
  let pos (price : ℚ) : Position :=
    { pubkey := "P", market := "SOL", side := .Long
      currentPrice := .finite price, markPrice := .finite price, timestamp := 0 }
  let gates : Gates := { breakerAllowed := fun _ => true, killSwitchAllowed := fun _ => true }
  [.setCloseExecutor, .setTarget "SOL" "long" (some (.finite 100)) (some (.finite 90)),
    .evaluate gates [pos 101], .evaluate gates [pos 89]]

/-- One reading above the take profit and one below the stop loss trigger the
stop loss. -/
theorem not_confirmed : ∃ e h, tpSl.Reachable e h ∧ ¬ Each Confirmed h := by
  let p : PositionId := { pubkey := "P", timestamp := 0 }
  let pre : List Event := [.targetSet "SOL-long", .evaluation, .read "SOL-long" p [.TAKE_PROFIT],
    .evaluation, .read "SOL-long" p [.STOP_LOSS]]
  have hrun : (tpSl.run mixedReasons).map Prod.snd =
      some (pre ++ [Event.triggered "SOL-long" p .STOP_LOSS]) := by
    decide +kernel
  obtain ⟨⟨e, h⟩, he, hh⟩ := Option.map_eq_some_iff.mp hrun
  refine ⟨e, h, Machine.reachable_of_run he, fun hall => ?_⟩
  have hconfirmed : Confirmed pre (.triggered "SOL-long" p .STOP_LOSS) := hall.of_split hh
  have hnot : ¬ HeldIn (lastEvaluations pre).1 "SOL-long" p .STOP_LOSS := by decide
  exact hnot hconfirmed.2

/-! ## The readings for which the counter is right -/

/-- One event more: the last reading of a key since its target was changed. -/
def nextReading (key : String) (last : Option (PositionId × List CloseReason)) :
    Event → Option (PositionId × List CloseReason)
  | .read k position met => if k = key then some (position, met) else last
  | .targetSet k => if k = key then none else last
  | .targetChanged k => if k = key then none else last
  | .targetDeleted k => if k = key then none else last
  | .evaluation => last
  | .triggered _ _ _ => last
  | .closeDone _ _ => last

/-- The last reading of a key since its target was changed. -/
def lastReading (key : String) (h : List Event) : Option (PositionId × List CloseReason) :=
  h.foldl (nextReading key) none

theorem lastReading_append (key : String) (h es : List Event) :
    lastReading key (h ++ es) = es.foldl (nextReading key) (lastReading key h) := by
  unfold lastReading
  rw [List.foldl_append]

/-- The positions an action hands to `evaluate`. -/
def evaluated? : Action → Option (List Position)
  | .evaluate _ evaluated => some evaluated
  | .positions _ answer => answer
  | _ => none

/-- The evaluation of `positions` is steady: where it meets a reason, no other
position of this market-side listed before meets one, and the last reading since
the target was changed, if it met a reason too, was made by the preceding
evaluation, of the same open position, and met this same reason. -/
def SteadyEvaluation (e : TpSlEngine) (h : List Event) (positions : List Position) : Prop :=
  ∀ pre pos post, positions = pre ++ pos :: post →
    ∀ target price reason, e.Reads pos target price →
      reason? target pos.side price = some reason →
      (∀ q ∈ pre, q.key = pos.key → ∀ price', valuationPrice q = some price' →
        metReasons target q.side price' = []) ∧
      (∀ position met, lastReading pos.key h = some (position, met) → met ≠ [] →
        position = pos.id ∧ reason ∈ met ∧ .read pos.key position met ∈ (lastEvaluations h).2)

/-- A step is steady when the evaluation it makes, if any, is. -/
def Steady (e : TpSlEngine) (h : List Event) (a : Action) : Prop :=
  ∀ positions, evaluated? a = some positions → SteadyEvaluation e h positions

/-! ## A counter that stands is owed to the last reading -/

/-- A waiting target with a confirmation met some reason at its last reading. -/
def Counted (e : TpSlEngine) (h : List Event) : Prop :=
  ∀ key target, e.targets.get? key = some target → target.triggered = false →
    1 ≤ target.confirmationTicks →
    ∃ position met, lastReading key h = some (position, met) ∧ met ≠ []

/-- What each key's target and last reading may turn into. -/
theorem Counted.piece {e e' : TpSlEngine} {h es : List Event} (hc : Counted e h)
    (hkey : ∀ key,
      (e'.targets.get? key = e.targets.get? key ∧
        es.foldl (nextReading key) (lastReading key h) = lastReading key h) ∨
      (∀ target, e'.targets.get? key = some target →
        target.triggered = true ∨ target.confirmationTicks = 0) ∨
      ∃ position met, es.foldl (nextReading key) (lastReading key h) = some (position, met) ∧
        met ≠ []) : Counted e' (h ++ es) := by
  intro key target hget hwait hticks
  rw [lastReading_append]
  rcases hkey key with ⟨hsame, hread⟩ | hreset | hread
  · rw [hread]
    exact hc key target (hsame ▸ hget) hwait hticks
  · rcases hreset target hget with htr | hzero
    · rw [hwait] at htr
      cases htr
    · omega
  · exact hread

/-- The timer, the client, the locks and the marker of an evaluation leave every
counter and every reading alone. -/
theorem Counted.same {e e' : TpSlEngine} {h es : List Event} (hc : Counted e h)
    (htargets : e'.targets = e.targets)
    (hes : ∀ key, es.foldl (nextReading key) (lastReading key h) = lastReading key h) :
    Counted e' (h ++ es) :=
  hc.piece fun key => .inl ⟨by rw [htargets], hes key⟩

theorem counted_setTarget {e : TpSlEngine} {h : List Event} (hc : Counted e h)
    (market side : String) (tp sl : Option JsNumber) :
    Counted (e.setTarget market side tp sl).1 (h ++ (e.setTarget market side tp sl).2) := by
  unfold setTarget
  dsimp only
  split
  · exact hc.same rfl fun _ => rfl
  · obtain ⟨b, hb⟩ := ensurePolling_eq
      { e with targets := e.targets.set (makeKey market side) _ }
    rw [hb]
    refine hc.piece fun key => ?_
    by_cases hk : key = makeKey market side
    · subst hk
      -- a target that is set starts with a counter of zero
      refine .inr (.inl fun target hget => .inr ?_)
      change (e.targets.set (makeKey market side) _).get? (makeKey market side) = _ at hget
      rw [OrderedMap.get?_set_self] at hget
      obtain rfl := Option.some.inj hget
      rfl
    · exact .inl ⟨OrderedMap.get?_set_of_ne hk, by simp [nextReading, Ne.symm hk]⟩

theorem counted_removeTarget {e : TpSlEngine} {h : List Event} (hc : Counted e h)
    (market side : String) (type : TargetType) :
    Counted (e.removeTarget market side type).1 (h ++ (e.removeTarget market side type).2) := by
  unfold removeTarget
  dsimp only
  split
  · exact hc.same rfl fun _ => rfl
  · next existing hget =>
    split
    · obtain ⟨b, hb⟩ := maybeStopPolling_eq
        { e with targets := e.targets.delete (makeKey market side) }
      rw [hb]
      refine hc.piece fun key => ?_
      by_cases hk : key = makeKey market side
      · subst hk
        refine .inr (.inl fun target hget' => ?_)
        change (e.targets.delete (makeKey market side)).get? (makeKey market side) = _ at hget'
        rw [OrderedMap.get?_delete_self] at hget'
        cases hget'
      · exact .inl ⟨OrderedMap.get?_delete_of_ne hk, by simp [nextReading, Ne.symm hk]⟩
    · refine hc.piece fun key => ?_
      by_cases hk : key = makeKey market side
      · subst hk
        refine .inr (.inl fun target hget' => .inr ?_)
        change (e.targets.modify (makeKey market side) _).get? (makeKey market side) = _ at hget'
        rw [OrderedMap.get?_modify, if_pos rfl, hget] at hget'
        obtain rfl := Option.some.inj hget'
        rfl
      · refine .inl ⟨?_, by simp [nextReading, Ne.symm hk]⟩
        show (e.targets.modify (makeKey market side) _).get? key = _
        rw [OrderedMap.get?_modify, if_neg hk]

/-- Counting a reading: without a reason the counter is zero, with one it is owed
to this reading. -/
theorem counted_read {e : TpSlEngine} {h : List Event} (hc : Counted e h) (pos : Position)
    (target : TpSlTarget) (price : ℚ) :
    Counted (e.countTicks pos.key (ticksAfter target pos.side price))
      (h ++ [Event.read pos.key pos.id (metReasons target pos.side price)]) := by
  refine hc.piece fun key => ?_
  by_cases hk : key = pos.key
  · subst hk
    right
    -- the counter is zero without a reason, and otherwise this reading met one
    cases hreason : reason? target pos.side price with
    | none =>
      refine .inl fun t hget => .inr ?_
      rw [countTicks_get?, if_pos rfl] at hget
      obtain ⟨t', -, rfl⟩ := Option.map_eq_some_iff.mp hget
      show ticksAfter target pos.side price = 0
      rw [ticksAfter, hreason]
      rfl
    | some reason =>
      refine .inr ⟨pos.id, metReasons target pos.side price, by simp [nextReading],
        fun hnil => ?_⟩
      rw [reason?_eq_none_iff.mpr hnil] at hreason
      cases hreason
  · refine .inl ⟨?_, by simp [nextReading, Ne.symm hk]⟩
    rw [countTicks_get?, if_neg hk]

theorem counted_startClose {e : TpSlEngine} {h : List Event} (hc : Counted e h) (key : String)
    (position : PositionId) (reason : CloseReason) :
    Counted (e.startClose key) (h ++ [Event.triggered key position reason]) := by
  refine hc.piece fun k => ?_
  by_cases hk : k = key
  · subst hk
    refine .inr (.inl fun t hget => .inl ?_)
    rw [startClose_get?, if_pos rfl] at hget
    obtain ⟨t', -, rfl⟩ := Option.map_eq_some_iff.mp hget
    rfl
  · refine .inl ⟨?_, rfl⟩
    rw [startClose_get?, if_neg hk]

theorem counted_evaluatePosition {e : TpSlEngine} {h : List Event} (hc : Counted e h)
    (gates : Gates) (pos : Position) :
    Counted (e.evaluatePosition gates pos).1 (h ++ (e.evaluatePosition gates pos).2) := by
  rcases evaluatePosition_cases e gates pos with
    ⟨-, hskip⟩ | ⟨target, price, -, hread | ⟨reason, -, -, -, hfire⟩⟩
  · rw [hskip]
    exact hc.same rfl fun _ => rfl
  · rw [hread]
    exact counted_read hc pos target price
  · rw [hfire]
    have hcounted := counted_read hc pos target price
    have hfired := counted_startClose hcounted pos.key pos.id reason
    rwa [List.append_assoc] at hfired

theorem counted_evaluatePositions (gates : Gates) (positions : List Position) {e : TpSlEngine}
    {h : List Event} (hc : Counted e h) :
    Counted (e.evaluatePositions gates positions).1
      (h ++ (e.evaluatePositions gates positions).2) := by
  induction positions generalizing e h with
  | nil => exact hc.same rfl fun _ => rfl
  | cons pos rest ih =>
    have hrest := ih (counted_evaluatePosition hc gates pos)
    rwa [List.append_assoc] at hrest

theorem counted_evaluate {e : TpSlEngine} {h : List Event} (hc : Counted e h) (gates : Gates)
    (positions : List Position) :
    Counted (e.evaluate gates positions).1 (h ++ (e.evaluate gates positions).2) := by
  have hmarker : Counted e (h ++ [Event.evaluation]) := hc.same rfl fun _ => rfl
  unfold evaluate
  split
  · exact hmarker
  · obtain ⟨b, hb⟩ := maybeStopPolling_eq (e.evaluatePositions gates positions).1
    dsimp only
    rw [hb]
    have hloop := counted_evaluatePositions gates positions hmarker
    rw [List.append_assoc] at hloop
    exact fun key target => hloop key target

theorem counted_step {e e' : TpSlEngine} {a : Action} {h es : List Event} (hc : Counted e h)
    (hs : e.step a = some (e', es)) : Counted e' (h ++ es) := by
  cases a with
  | setCloseExecutor =>
    obtain ⟨rfl, rfl⟩ := Machine.some_pair hs
    exact hc.same rfl fun _ => rfl
  | setClient =>
    obtain ⟨rfl, rfl⟩ := Machine.some_pair hs
    exact hc.same rfl fun _ => rfl
  | stop =>
    obtain ⟨rfl, rfl⟩ := Machine.some_pair hs
    exact hc.same rfl fun _ => rfl
  | setTarget market side tp sl =>
    obtain ⟨rfl, rfl⟩ := Machine.some_pair hs
    exact counted_setTarget hc market side tp sl
  | removeTarget market side type =>
    obtain ⟨rfl, rfl⟩ := Machine.some_pair hs
    exact counted_removeTarget hc market side type
  | evaluate gates positions =>
    obtain ⟨rfl, rfl⟩ := Machine.some_pair hs
    exact counted_evaluate hc gates positions
  | pollTick =>
    rw [step] at hs
    split at hs
    · obtain ⟨rfl, rfl⟩ := Machine.some_pair hs
      obtain ⟨b, c, hbc⟩ := pollTick_eq e
      refine hc.same ?_ fun _ => rfl
      show e.pollTick.targets = e.targets
      rw [hbc]
    · cases hs
  | positions gates answer =>
    rw [step] at hs
    split at hs
    · obtain ⟨rfl, rfl⟩ := Machine.some_pair hs
      cases answer with
      | none => exact hc.same rfl fun _ => rfl
      | some positions => exact fun key target => counted_evaluate hc gates positions key target
    · cases hs
  | executorDone key ok =>
    rw [step] at hs
    split at hs
    · obtain ⟨rfl, rfl⟩ := Machine.some_pair hs
      exact hc.same rfl fun _ => rfl
    · cases hs

/-! ## What the loop leaves of a target -/

/-- The loop changes counters and flags: the values of a target stay, and a
target that waits after it was waiting before. -/
structure SameTarget (t t₀ : TpSlTarget) : Prop where
  tp : t.tp = t₀.tp
  sl : t.sl = t₀.sl
  waiting : t.triggered = false → t₀.triggered = false

theorem SameTarget.reason? {t t₀ : TpSlTarget} (h : SameTarget t t₀) (side : TradeSide)
    (price : ℚ) : TpSlEngine.reason? t side price = TpSlEngine.reason? t₀ side price := by
  unfold TpSlEngine.reason? tpMet slMet
  rw [h.tp, h.sl]

theorem SameTarget.metReasons {t t₀ : TpSlTarget} (h : SameTarget t t₀) (side : TradeSide)
    (price : ℚ) : TpSlEngine.metReasons t side price = TpSlEngine.metReasons t₀ side price := by
  unfold TpSlEngine.metReasons tpMet slMet
  rw [h.tp, h.sl]

theorem SameTarget.trans {t t₁ t₀ : TpSlTarget} (h₁ : SameTarget t t₁) (h₀ : SameTarget t₁ t₀) :
    SameTarget t t₀ :=
  ⟨h₁.tp.trans h₀.tp, h₁.sl.trans h₀.sl, fun h => h₀.waiting (h₁.waiting h)⟩

/-- Every target after an iteration was there before it. -/
theorem evaluatePosition_target {e : TpSlEngine} {gates : Gates} {pos : Position} {key : String}
    {t : TpSlTarget} (hget : (e.evaluatePosition gates pos).1.targets.get? key = some t) :
    ∃ t₀, e.targets.get? key = some t₀ ∧ SameTarget t t₀ := by
  have hcount : ∀ {n t}, (e.countTicks pos.key n).targets.get? key = some t →
      ∃ t₀, e.targets.get? key = some t₀ ∧ SameTarget t t₀ := by
    intro n t hget
    rw [countTicks_get?] at hget
    split at hget
    · obtain ⟨t₀, ht₀, rfl⟩ := Option.map_eq_some_iff.mp hget
      exact ⟨t₀, ht₀, rfl, rfl, id⟩
    · exact ⟨t, hget, rfl, rfl, id⟩
  rcases evaluatePosition_cases e gates pos with
    ⟨-, hskip⟩ | ⟨target, price, -, hread | ⟨reason, -, -, -, hfire⟩⟩
  · rw [hskip] at hget
    exact ⟨t, hget, rfl, rfl, id⟩
  · rw [hread] at hget
    exact hcount hget
  · rw [hfire] at hget
    dsimp only at hget
    rw [startClose_get?] at hget
    split at hget
    · obtain ⟨t₁, ht₁, rfl⟩ := Option.map_eq_some_iff.mp hget
      obtain ⟨t₀, ht₀, htp, hsl, -⟩ := hcount ht₁
      exact ⟨t₀, ht₀, htp, hsl, fun hwait => (by cases hwait)⟩
    · exact hcount hget

theorem evaluatePositions_target {gates : Gates} {key : String} {t : TpSlTarget}
    (positions : List Position) {e : TpSlEngine}
    (hget : (e.evaluatePositions gates positions).1.targets.get? key = some t) :
    ∃ t₀, e.targets.get? key = some t₀ ∧ SameTarget t t₀ := by
  induction positions generalizing e with
  | nil => exact ⟨t, hget, rfl, rfl, id⟩
  | cons pos rest ih =>
    obtain ⟨t₁, ht₁, hsame₁⟩ := ih hget
    obtain ⟨t₀, ht₀, hsame₀⟩ := evaluatePosition_target ht₁
    exact ⟨t₀, ht₀, hsame₁.trans hsame₀⟩

/-- The last reading after an iteration is its own or the one before it. -/
theorem lastReading_evaluatePosition (e : TpSlEngine) (gates : Gates) (pos : Position)
    (key : String) (last : Option (PositionId × List CloseReason)) :
    (∃ t price, pos.key = key ∧ e.Reads pos t price ∧
      (e.evaluatePosition gates pos).2.foldl (nextReading key) last =
        some (pos.id, metReasons t pos.side price)) ∨
    (e.evaluatePosition gates pos).2.foldl (nextReading key) last = last := by
  rcases evaluatePosition_cases e gates pos with
    ⟨-, hskip⟩ | ⟨target, price, hreads, hread | ⟨reason, -, -, -, hfire⟩⟩
  · rw [hskip]
    exact .inr rfl
  · rw [hread]
    by_cases hk : pos.key = key
    · exact .inl ⟨target, price, hk, hreads, by simp [nextReading, hk]⟩
    · exact .inr (by simp [nextReading, hk])
  · rw [hfire]
    by_cases hk : pos.key = key
    · exact .inl ⟨target, price, hk, hreads, by simp [nextReading, hk]⟩
    · exact .inr (by simp [nextReading, hk])

/-- The last reading after the loop is of a position it visited, by the target it
found, or the one before the loop. -/
theorem lastReading_evaluatePositions {gates : Gates} {key : String}
    {position : PositionId} {met : List CloseReason} (positions : List Position) {e : TpSlEngine}
    {last : Option (PositionId × List CloseReason)}
    (hlast : (e.evaluatePositions gates positions).2.foldl (nextReading key) last =
      some (position, met)) :
    (∃ q ∈ positions, q.key = key ∧ ∃ t price, e.targets.get? key = some t ∧
      valuationPrice q = some price ∧ met = metReasons t q.side price) ∨
    last = some (position, met) := by
  induction positions generalizing e last with
  | nil => exact .inr hlast
  | cons pos rest ih =>
    change ((e.evaluatePosition gates pos).2 ++ _).foldl _ _ = _ at hlast
    rw [List.foldl_append] at hlast
    -- the reading was made by the rest of the loop, by its head, or before it
    rcases ih hlast with ⟨q, hq, hkey, t, price, hget, hprice, hmet⟩ | hhead
    · obtain ⟨t₀, ht₀, hsame⟩ := evaluatePosition_target hget
      exact .inl ⟨q, List.mem_cons_of_mem _ hq, hkey, t₀, price, ht₀, hprice,
        hmet.trans (hsame.metReasons _ _)⟩
    · rcases lastReading_evaluatePosition e gates pos key last with
        ⟨t, price, hkey, hreads, hown⟩ | hsame
      · rw [hown] at hhead
        obtain ⟨-, rfl⟩ := Prod.mk.inj (Option.some.inj hhead)
        exact .inl ⟨pos, List.mem_cons_self, hkey, t, price, hkey ▸ hreads.get?, hreads.valid, rfl⟩
      · exact .inr (hsame.symm.trans hhead)

/-- The loop emits no marker. -/
theorem evaluatePositions_no_marker (gates : Gates) (positions : List Position) (e : TpSlEngine) :
    ∀ ev ∈ (e.evaluatePositions gates positions).2, ev.isEvaluation = false := by
  induction positions generalizing e with
  | nil => exact fun _ h => nomatch h
  | cons pos rest ih =>
    intro ev hev
    rcases List.mem_append.mp hev with hhead | hrest
    · rcases evaluatePosition_cases e gates pos with
        ⟨-, hskip⟩ | ⟨target, price, -, hread | ⟨reason, -, -, -, hfire⟩⟩
      · rw [hskip] at hhead
        cases hhead
      · rw [hread, List.mem_singleton] at hhead
        exact hhead ▸ rfl
      · rw [hfire] at hhead
        simp only [List.mem_cons, List.not_mem_nil, or_false] at hhead
        rcases hhead with rfl | rfl <;> rfl
    · exact ih _ ev hrest

theorem evaluatePositions_snoc (gates : Gates) (positions : List Position) (pos : Position)
    (e : TpSlEngine) :
    (e.evaluatePositions gates (positions ++ [pos])).2 =
      (e.evaluatePositions gates positions).2 ++
        ((e.evaluatePositions gates positions).1.evaluatePosition gates pos).2 := by
  induction positions generalizing e with
  | nil => exact List.append_nil _
  | cons q rest ih =>
    calc (e.evaluatePositions gates (q :: rest ++ [pos])).2
        = (e.evaluatePosition gates q).2 ++
            ((e.evaluatePosition gates q).1.evaluatePositions gates (rest ++ [pos])).2 := rfl
      _ = _ := by
          rw [ih, ← List.append_assoc]
          rfl

/-! ## Steady evaluations confirm their triggers -/

/-- A trigger of the iteration that follows `done` is confirmed. -/
theorem confirmed_trigger {e : TpSlEngine} {h : List Event} {gates : Gates}
    {positions done rest : List Position} {pos : Position} {target : TpSlTarget} {price : ℚ}
    {reason : CloseReason} (hc : Counted e h) (hsteady : SteadyEvaluation e h positions)
    (hsplit : positions = done ++ pos :: rest)
    (hreads : (e.evaluatePositions gates done).1.Reads pos target price)
    (hreason : reason? target pos.side price = some reason)
    (hticks : 1 ≤ target.confirmationTicks) :
    Confirmed
      ((h ++ [Event.evaluation] ++ (e.evaluatePositions gates done).2) ++
        [.read pos.key pos.id (metReasons target pos.side price)])
      (.triggered pos.key pos.id reason) := by
  -- the target the loop has reached is the one the evaluation started with
  obtain ⟨t₀, ht₀, hsame⟩ := evaluatePositions_target done hreads.get?
  have hreads₀ : e.Reads pos t₀ price := ⟨ht₀, hsame.waiting hreads.waiting, hreads.valid⟩
  have hreason₀ : reason? t₀ pos.side price = some reason := by
    rw [← hsame.reason?]
    exact hreason
  obtain ⟨hfirst, hlast⟩ := hsteady done pos rest hsplit t₀ price reason hreads₀ hreason₀
  -- its confirmation is owed to a reading, which no position of this evaluation made
  have hmarker : Counted e (h ++ [Event.evaluation]) := hc.same rfl fun _ => rfl
  obtain ⟨position, met, hread, hmet⟩ :=
    counted_evaluatePositions gates done hmarker _ _ hreads.get? hreads.waiting hticks
  rw [lastReading_append] at hread
  have hbefore : lastReading pos.key h = some (position, met) := by
    rcases lastReading_evaluatePositions done hread with
      ⟨q, hq, hkey, t, price', hget, hprice, hmet'⟩ | hsame'
    · rw [ht₀] at hget
      obtain rfl := Option.some.inj hget
      exact absurd (hmet'.trans (hfirst q hq hkey price' hprice)) hmet
    · rw [lastReading_append] at hsame'
      exact hsame'
  obtain ⟨rfl, hin, hpreceding⟩ := hlast position met hbefore hmet
  have hrounds : lastEvaluations ((h ++ [Event.evaluation] ++ (e.evaluatePositions gates done).2) ++
      [.read pos.key pos.id (metReasons target pos.side price)]) =
      ((lastEvaluations h).2, (e.evaluatePositions gates done).2 ++
        [.read pos.key pos.id (metReasons target pos.side price)]) := by
    unfold lastEvaluations
    rw [List.append_assoc, lastRounds_append, lastRounds_marker _ _ rfl, List.nil_append]
    intro ev hev
    rcases List.mem_append.mp hev with hloop | hown
    · exact evaluatePositions_no_marker gates done e ev hloop
    · rw [List.mem_singleton] at hown
      exact hown ▸ rfl
  show HeldIn _ _ _ _ ∧ HeldIn _ _ _ _
  rw [hrounds]
  refine ⟨heldIn_of_read ?_ (reason?_mem_metReasons hreason), heldIn_of_read hpreceding hin⟩
  exact List.mem_append_right _ (List.mem_singleton_self _)

/-- The loop, by induction on the positions visited. -/
theorem confirmed_evaluatePositions {e : TpSlEngine} {h : List Event} (gates : Gates)
    {positions : List Position} (hc : Counted e h) (hsteady : SteadyEvaluation e h positions)
    (hh : Each Confirmed h) (done : List Position) :
    (∃ rest, positions = done ++ rest) →
    Each Confirmed (h ++ [Event.evaluation] ++ (e.evaluatePositions gates done).2) := by
  induction done using List.reverseRecOn with
  | nil =>
    intro _
    show Each Confirmed (h ++ [Event.evaluation] ++ [])
    rw [List.append_nil]
    exact hh.snoc trivial
  | append_singleton done pos ih =>
    rintro ⟨rest, hsplit⟩
    rw [List.append_assoc, List.singleton_append] at hsplit
    have hdone := ih ⟨_, hsplit⟩
    rw [evaluatePositions_snoc, ← List.append_assoc]
    rcases evaluatePosition_cases (e.evaluatePositions gates done).1 gates pos with
      ⟨-, hskip⟩ | ⟨target, price, hreads, hread | ⟨reason, hreason, hticks, -, hfire⟩⟩
    · rw [hskip, List.append_nil]
      exact hdone
    · rw [hread]
      exact hdone.snoc trivial
    · rw [hfire]
      have hread : Each Confirmed _ :=
        hdone.snoc (e := .read pos.key pos.id (metReasons target pos.side price)) trivial
      have hall := hread.snoc (confirmed_trigger hc hsteady hsplit hreads hreason hticks)
      rwa [List.append_assoc] at hall

theorem confirmed_evaluate {e : TpSlEngine} {h : List Event} {gates : Gates}
    {positions : List Position} (hc : Counted e h) (hsteady : SteadyEvaluation e h positions)
    (hh : Each Confirmed h) : Each Confirmed (h ++ (e.evaluate gates positions).2) := by
  unfold evaluate
  split
  · exact hh.snoc trivial
  · have hloop := confirmed_evaluatePositions gates hc hsteady hh positions
      ⟨[], (List.append_nil _).symm⟩
    rwa [List.append_assoc] at hloop

/-- An action that evaluates nothing triggers nothing. -/
theorem step_no_trigger {e e' : TpSlEngine} {a : Action} {es : List Event}
    (hs : e.step a = some (e', es)) (hnone : evaluated? a = none) :
    ∀ pre, ∀ ev ∈ es, Confirmed pre ev := by
  intro pre ev hev
  cases a with
  | setCloseExecutor =>
    obtain ⟨-, rfl⟩ := Machine.some_pair hs
    cases hev
  | setClient =>
    obtain ⟨-, rfl⟩ := Machine.some_pair hs
    cases hev
  | stop =>
    obtain ⟨-, rfl⟩ := Machine.some_pair hs
    cases hev
  | setTarget market side tp sl =>
    obtain ⟨-, rfl⟩ := Machine.some_pair hs
    change ev ∈ (e.setTarget market side tp sl).2 at hev
    unfold setTarget at hev
    dsimp only at hev
    split at hev
    · cases hev
    · rw [List.mem_singleton] at hev
      exact hev ▸ trivial
  | removeTarget market side type =>
    obtain ⟨-, rfl⟩ := Machine.some_pair hs
    change ev ∈ (e.removeTarget market side type).2 at hev
    unfold removeTarget at hev
    dsimp only at hev
    split at hev
    · cases hev
    · split at hev
      · rw [List.mem_singleton] at hev
        exact hev ▸ trivial
      · rw [List.mem_singleton] at hev
        exact hev ▸ trivial
  | evaluate gates positions => cases hnone
  | pollTick =>
    rw [step] at hs
    split at hs
    · obtain ⟨-, rfl⟩ := Machine.some_pair hs
      cases hev
    · cases hs
  | positions gates answer =>
    obtain rfl : answer = none := hnone
    rw [step] at hs
    split at hs
    · obtain ⟨-, rfl⟩ := Machine.some_pair hs
      cases hev
    · cases hs
  | executorDone key ok =>
    rw [step] at hs
    split at hs
    · obtain ⟨-, rfl⟩ := Machine.some_pair hs
      rw [executeCloseDone, List.mem_singleton] at hev
      exact hev ▸ trivial
    · cases hs

/-- **Steady readings are confirmed.** In every run whose evaluations are steady,
every trigger has its reason's own condition holding in the evaluation that
triggers and in the preceding one, of the same open position. -/
theorem confirmed_of_steady {e : TpSlEngine} {h : List Event} (hr : tpSl.Reaches Steady e h) :
    ∀ pre key position reason post, h = pre ++ .triggered key position reason :: post →
      HeldIn (lastEvaluations pre).2 key position reason ∧
        HeldIn (lastEvaluations pre).1 key position reason := by
  have hinv : Counted e h ∧ Each Confirmed h := by
    refine hr.invariant (I := fun e h => Counted e h ∧ Each Confirmed h) ⟨?_, Each.nil⟩ ?_
    · exact fun _ _ hget => nomatch hget
    · rintro e e' h es a - ⟨hc, hh⟩ hsteady hs
      refine ⟨counted_step hc hs, ?_⟩
      cases hev : evaluated? a with
      | none => exact hh.append_of_forall (step_no_trigger hs hev)
      | some positions =>
        have hevaluation := hsteady positions hev
        cases a with
        | evaluate gates evaluated =>
          obtain rfl := Option.some.inj hev
          obtain ⟨-, rfl⟩ := Machine.some_pair hs
          exact confirmed_evaluate hc hevaluation hh
        | positions gates answer =>
          obtain rfl : answer = some positions := hev
          change (if e.pollInProgress then _ else none) = _ at hs
          split at hs
          · obtain ⟨-, rfl⟩ := Machine.some_pair hs
            exact confirmed_evaluate hc hevaluation hh
          · cases hs
        | _ => cases hev
  intro pre key position reason post hh
  exact hinv.2.of_split hh

/-- An action that evaluates nothing is steady. -/
theorem steady_of_none {e : TpSlEngine} {h : List Event} {a : Action}
    (ha : evaluated? a = none) : Steady e h a := by
  intro positions hpositions
  rw [ha] at hpositions
  cases hpositions

/-- The evaluation of a single position is steady when its target has no reading
yet, or the preceding evaluation read the same position and met the reason that
is met now. -/
theorem steady_singleton {e : TpSlEngine} {h : List Event} {gates : Gates} {pos : Position}
    (hlast : lastReading pos.key h = none ∨ ∃ met, lastReading pos.key h = some (pos.id, met) ∧
      .read pos.key pos.id met ∈ (lastEvaluations h).2 ∧
      ∀ target price reason, e.Reads pos target price →
        reason? target pos.side price = some reason → reason ∈ met) :
    Steady e h (.evaluate gates [pos]) := by
  intro positions hpositions
  obtain rfl := Option.some.inj hpositions
  intro pre pos' post hsplit target price reason hreads hreason
  obtain ⟨rfl, rfl⟩ : pre = [] ∧ pos' = pos := by
    cases pre with
    | nil => exact ⟨rfl, (List.cons.inj hsplit).1.symm⟩
    | cons q pre => exact absurd (List.cons.inj hsplit).2 (by simp)
  refine ⟨fun _ hq => (nomatch hq), fun position met hread _ => ?_⟩
  rcases hlast with hnone | ⟨met', hsome, hmem, hin⟩
  · rw [hnone] at hread
    cases hread
  · rw [hsome] at hread
    obtain ⟨rfl, rfl⟩ := Prod.mk.inj (Option.some.inj hread)
    exact ⟨rfl, hin target price reason hreads hreason, hmem⟩

/-- A take profit at 100 on a long position that is read at 101 and then at 102. -/
def steadyReadings : List Action :=
  let pos (price : ℚ) : Position :=
    { pubkey := "P", market := "SOL", side := .Long
      currentPrice := .finite price, markPrice := .finite price, timestamp := 0 }
  let gates : Gates := { breakerAllowed := fun _ => true, killSwitchAllowed := fun _ => true }
  [.setCloseExecutor, .setTarget "SOL" "long" (some (.finite 100)) none,
    .evaluate gates [pos 101], .evaluate gates [pos 102]]

theorem confirmed_of_steady_steadyReadings :
    ∃ e h pre position, tpSl.run steadyReadings = some (e, h) ∧
      h = pre ++ [.triggered "SOL-long" position .TAKE_PROFIT] ∧
      HeldIn (lastEvaluations pre).2 "SOL-long" position .TAKE_PROFIT ∧
      HeldIn (lastEvaluations pre).1 "SOL-long" position .TAKE_PROFIT := by
  let p : PositionId := { pubkey := "P", timestamp := 0 }
  let reading : Event := .read "SOL-long" p [.TAKE_PROFIT]
  let pre : List Event := [.targetSet "SOL-long", .evaluation, reading, .evaluation, reading]
  have hrun : (tpSl.run steadyReadings).map Prod.snd =
      some (pre ++ [Event.triggered "SOL-long" p .TAKE_PROFIT]) := by
    decide +kernel
  obtain ⟨⟨e, h⟩, he, hh⟩ := Option.map_eq_some_iff.mp hrun
  have halong : tpSl.Along Steady tpSl.init [] steadyReadings := by
    intro e₁ es₁ hs₁
    refine ⟨steady_of_none rfl, ?_⟩
    obtain ⟨rfl, rfl⟩ := Machine.some_pair hs₁
    intro e₂ es₂ hs₂
    refine ⟨steady_of_none rfl, ?_⟩
    obtain ⟨rfl, rfl⟩ := Machine.some_pair hs₂
    intro e₃ es₃ hs₃
    refine ⟨steady_singleton (.inl (by decide +kernel)), ?_⟩
    obtain ⟨rfl, rfl⟩ := Machine.some_pair hs₃
    intro e₄ es₄ hs₄
    refine ⟨steady_singleton (.inr ⟨[.TAKE_PROFIT], by decide +kernel, by decide +kernel, ?_⟩),
      trivial⟩
    intro target price reason hreads hreason
    have hsl : (tpSl.run (steadyReadings.take 3)).bind
        (fun r => (r.1.targets.get? "SOL-long").map TpSlTarget.sl) = some none := by
      decide +kernel
    have htarget : target.sl = none := by
      have hget := congrArg (Option.map TpSlTarget.sl) hreads.get?
      exact Option.some.inj (hget.symm.trans hsl)
    unfold reason? slMet at hreason
    rw [htarget] at hreason
    split_ifs at hreason with htp hno
    · obtain rfl := Option.some.inj hreason
      exact List.mem_singleton_self _
    · exact absurd hno (by simp)
  have hr := Machine.reaches_of_along Machine.Reaches.init halong he
  exact ⟨e, h, pre, p, he, hh, confirmed_of_steady hr pre _ _ _ [] hh⟩

end TpSlEngine

end FlashEdge
