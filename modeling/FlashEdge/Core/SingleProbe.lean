import FlashEdge.Core.ExecutionCircuitBreaker

/-!
# The single-probe rule of the execution circuit breaker

"`HALF_OPEN` — one test request allowed to probe recovery". The rule is about
the calls of all users together: from the moment the circuit trips until the
result of a probe has been recorded, at most one execution is admitted.

`probes` reads the rule's window off the events of a run. The code keeps the
rule on some runs and not on others, because the transition out of `OPEN`
admits its caller without setting `halfOpenProbeInFlight`, so the next caller
is admitted as well. `singleProbe_iff` says on which: those where nobody calls
`checkExecution` while the result of an admitted probe is outstanding, unless
the circuit is again cooling down.
-/

namespace FlashEdge

/-- The probe window: `none` when no window is open, otherwise the executions
admitted since the trip that opened it. A trip opens a window (or leaves an open
one open), the recorded result of one of its probes closes it. -/
def probeStep (w : Option (List ℕ)) : BreakerEvent → Option (List ℕ)
  | .tripped => some (w.getD [])
  | .admitted exec => w.map (exec :: ·)
  | .recorded exec => w.filter (exec ∉ ·)
  | .refused _ => w

/-- The window after the events `h`. -/
def probes (h : List BreakerEvent) : Option (List ℕ) :=
  h.foldl probeStep none

theorem probes_append (h es : List BreakerEvent) :
    probes (h ++ es) = es.foldl probeStep (probes h) :=
  List.foldl_append

/-- At most one execution was admitted in the open window, if there is one. -/
def SingleProbe (h : List BreakerEvent) : Prop :=
  ∀ ps, probes h = some ps → ps.length ≤ 1

/-- The condition on a step: no `checkExecution` while the result of an admitted
probe is outstanding, except when the circuit is `OPEN` and still cooling down. -/
def NoCheckWhileProbing (s : BreakerState) (h : List BreakerEvent) : BreakerCall → Prop
  | .checkExecution now =>
    ∀ p, probes h = some [p] → s.cb.state = .OPEN ∧ s.cb.cooledDown now = false
  | _ => True

/-- What holds between the breaker and the window while the condition is met:
at most one probe, none only before the cooldown is over, and the flag is never
set while a window is open. -/
structure ProbeInv (s : BreakerState) (h : List BreakerEvent) : Prop where
  single : SingleProbe h
  waiting : probes h = some [] → s.cb.state = .OPEN
  flag : s.cb.halfOpenProbeInFlight = true → s.cb.state = .HALF_OPEN ∧ probes h = none

theorem probeInv_init : ProbeInv breaker.init [] where
  single ps hps := by cases hps
  waiting hps := by cases hps
  flag hf := by cases hf

/-- An open window with at most one probe is empty or holds one probe. -/
theorem ProbeInv.window_cases {s : BreakerState} {h : List BreakerEvent} (hI : ProbeInv s h) :
    probes h = none ∨ probes h = some [] ∨ ∃ p, probes h = some [p] := by
  cases hw : probes h with
  | none => exact .inl rfl
  | some ps =>
    match ps, hI.single ps hw with
    | [], _ => exact .inr (.inl rfl)
    | [p], _ => exact .inr (.inr ⟨p, rfl⟩)

/-- Recording a result keeps the window or closes it. -/
theorem probes_recorded (h : List BreakerEvent) (exec : ℕ) :
    probes (h ++ [BreakerEvent.recorded exec]) = probes h ∨
      probes (h ++ [BreakerEvent.recorded exec]) = none := by
  rw [probes_append, List.foldl_cons, List.foldl_nil, probeStep]
  cases hw : probes h with
  | none => exact .inl rfl
  | some ps =>
    by_cases hmem : exec ∈ ps
    · exact .inr (by simp [hmem])
    · exact .inl (by simp [hmem])

theorem singleProbe_of_eq {h h' : List BreakerEvent} (hs : SingleProbe h)
    (heq : probes h' = probes h ∨ probes h' = none) : SingleProbe h' := by
  intro ps hps
  rcases heq with heq | heq
  · exact hs ps (heq ▸ hps)
  · rw [heq] at hps
    cases hps

/-- A refused call changes nothing. -/
theorem probeInv_refused {s : BreakerState} {h : List BreakerEvent} (hI : ProbeInv s h)
    (e : ExecutionError) : ProbeInv s (h ++ [BreakerEvent.refused e]) := by
  have hw : probes (h ++ [BreakerEvent.refused e]) = probes h := probes_append h _
  exact ⟨singleProbe_of_eq hI.single (.inl hw), fun hp => hI.waiting (hw ▸ hp),
    fun hf => hw ▸ hI.flag hf⟩

/-- A call admitted without an outstanding probe keeps the invariant: it opens
no window, and in an open one it is the first. -/
theorem probeInv_admitted {s : BreakerState} {h : List BreakerEvent} {now : ℚ}
    {cb : ExecutionCircuitBreaker} (hI : ProbeInv s h)
    (hfree : ∀ p, probes h ≠ some [p]) (hok : s.cb.checkExecution now = .ok cb) :
    ProbeInv ⟨cb, s.executions + 1⟩ (h ++ [BreakerEvent.admitted s.executions]) := by
  have hw : probes (h ++ [BreakerEvent.admitted s.executions]) =
      (probes h).map (s.executions :: ·) :=
    probes_append h _
  rcases hI.window_cases with hnone | hempty | ⟨p, hp⟩
  · rw [hnone] at hw
    -- no window: whichever way the call was admitted, a set flag means `HALF_OPEN`
    refine ⟨fun ps hps => ?_, fun hps => ?_, fun hf => ⟨?_, hw⟩⟩
    · rw [hw] at hps; cases hps
    · rw [hw] at hps; cases hps
    · rcases ExecutionCircuitBreaker.checkExecution_ok hok with
        ⟨-, rfl⟩ | ⟨hst, -, rfl⟩ | ⟨hst, -, rfl⟩
      · exact (hI.flag hf).1
      · rfl
      · exact hst
  · -- the first call after the cooldown: the circuit is `OPEN`, so the flag is not set
    rw [hempty] at hw
    have hopen := hI.waiting hempty
    refine ⟨fun ps hps => ?_, fun hps => ?_, fun hf => ?_⟩
    · rw [hw] at hps
      obtain rfl : [s.executions] = ps := Option.some.inj hps
      exact le_refl 1
    · rw [hw] at hps
      cases hps
    · rcases ExecutionCircuitBreaker.checkExecution_ok hok with
        ⟨hst, -⟩ | ⟨-, -, rfl⟩ | ⟨hst, -⟩
      · rw [hopen] at hst; cases hst
      · have := (hI.flag hf).1
        rw [hopen] at this
        cases this
      · rw [hopen] at hst; cases hst
  · exact absurd hp (hfree p)

/-- Recording a success keeps the invariant. -/
theorem probeInv_recordSuccess {s : BreakerState} {h : List BreakerEvent} (hI : ProbeInv s h)
    (exec : ℕ) (now : ℚ) (l : Option ℚ) :
    ProbeInv { s with cb := s.cb.recordSuccess now l } (h ++ [BreakerEvent.recorded exec]) := by
  have hw := probes_recorded h exec
  refine ⟨singleProbe_of_eq hI.single hw, fun hp => ?_, fun hf => ?_⟩
  · -- a window without a probe: the circuit is `OPEN`, where a success changes nothing
    have hopen : s.cb.state = .OPEN := by
      rcases hw with hw | hw
      · exact hI.waiting (hw ▸ hp)
      · rw [hw] at hp; cases hp
    rcases s.cb.recordSuccess_circuit now l with ⟨hst, -⟩ | ⟨-, hst, -⟩
    · rw [hopen] at hst; cases hst
    · exact hst.trans hopen
  · rcases s.cb.recordSuccess_circuit now l with ⟨-, -, hflag⟩ | ⟨hne, -, hflag⟩
    · rw [hflag] at hf; cases hf
    · exact absurd (hI.flag (hflag ▸ hf)).1 hne

/-- Recording a failure keeps the invariant, whether it trips the circuit or not. -/
theorem probeInv_recordFailure {s : BreakerState} {h : List BreakerEvent} (hI : ProbeInv s h)
    (exec : ℕ) (now : ℚ) (c : Option String) (l : Option ℚ) :
    ProbeInv { s with cb := s.cb.recordFailure now c l }
      (h ++ .recorded exec ::
        if (s.cb.recordFailure now c l).tripCount = s.cb.tripCount then [] else [.tripped]) := by
  have hw := probes_recorded h exec
  have hsingle := singleProbe_of_eq hI.single hw
  rcases s.cb.recordFailure_circuit now c l with
    ⟨-, hst, htrip, hflag⟩ | ⟨hne, hst, htrip, hflag⟩
  · -- the failure trips the circuit: a window is open and the circuit is `OPEN`
    rw [if_neg (by rw [htrip]; exact Nat.succ_ne_self _), List.append_cons]
    have hw' : probes (h ++ [BreakerEvent.recorded exec] ++ [BreakerEvent.tripped]) =
        some ((probes (h ++ [BreakerEvent.recorded exec])).getD []) := probes_append _ _
    refine ⟨fun ps hps => ?_, fun _ => hst, fun hf => ?_⟩
    · rw [hw'] at hps
      obtain rfl := Option.some.inj hps
      cases hr : probes (h ++ [BreakerEvent.recorded exec]) with
      | none => exact Nat.zero_le 1
      | some qs => exact hsingle qs hr
    · rw [hflag] at hf
      split at hf
      · cases hf
      · next hne => exact absurd (hI.flag hf).1 hne
  · rw [if_pos htrip]
    refine ⟨hsingle, fun hp => ?_, fun hf => ?_⟩
    · rcases hw with hw | hw
      · exact hst.trans (hI.waiting (hw ▸ hp))
      · rw [hw] at hp; cases hp
    · exact absurd (hI.flag (hflag ▸ hf)).1 hne

/-- One call that meets the condition keeps the invariant. -/
theorem probeInv_step {s s' : BreakerState} {h es : List BreakerEvent} {a : BreakerCall}
    (hI : ProbeInv s h) (hC : NoCheckWhileProbing s h a)
    (hs : breaker.step s a = some (s', es)) : ProbeInv s' (h ++ es) := by
  obtain ⟨rfl, rfl⟩ := Machine.some_pair hs
  cases a with
  | checkExecution now =>
    rw [BreakerState.call]
    cases hcheck : s.cb.checkExecution now with
    | error e => exact probeInv_refused hI e
    | ok cb =>
      refine probeInv_admitted hI (fun p hp => ?_) hcheck
      -- with a probe outstanding the circuit would be cooling down, which admits nobody
      obtain ⟨hopen, hhot⟩ := hC p hp
      rcases ExecutionCircuitBreaker.checkExecution_ok hcheck with
        ⟨hst, -⟩ | ⟨-, hcool, -⟩ | ⟨hst, -⟩
      · rw [hopen] at hst; cases hst
      · rw [hhot] at hcool; cases hcool
      · rw [hopen] at hst; cases hst
  | recordSuccess exec now l => exact probeInv_recordSuccess hI exec now l
  | recordFailure exec now c l => exact probeInv_recordFailure hI exec now c l

/-- A check made while a probe is outstanding and the circuit is not cooling
down is admitted: the flag that should refuse it is not set. -/
theorem not_singleProbe_step {s s' : BreakerState} {h es : List BreakerEvent} {a : BreakerCall}
    (hI : ProbeInv s h) (hC : ¬ NoCheckWhileProbing s h a)
    (hs : breaker.step s a = some (s', es)) : ¬ SingleProbe (h ++ es) := by
  obtain ⟨rfl, rfl⟩ := Machine.some_pair hs
  cases a with
  | recordSuccess exec now l => exact absurd trivial hC
  | recordFailure exec now c l => exact absurd trivial hC
  | checkExecution now =>
    rw [NoCheckWhileProbing] at hC
    push Not at hC
    obtain ⟨p, hp, hhot⟩ := hC
    rw [BreakerState.call]
    cases hcheck : s.cb.checkExecution now with
    | error e =>
      -- refused by the cooldown, or by the flag, which is not set while a window is open
      rcases ExecutionCircuitBreaker.checkExecution_error hcheck with ⟨hst, hcool⟩ | ⟨-, hset⟩
      · exact absurd hcool (hhot hst)
      · have hnone := (hI.flag hset).2
        rw [hp] at hnone
        cases hnone
    | ok cb =>
      intro hsingle
      have hw : probes (h ++ [BreakerEvent.admitted s.executions]) = some [s.executions, p] := by
        rw [probes_append, hp]
        rfl
      exact absurd (hsingle _ hw) (by simp)

/-- **When the single-probe rule holds.** Along any run of calls, over any
clock, every state satisfies the rule if and only if no call of
`checkExecution` comes while the result of an admitted probe is outstanding,
calls refused during a cooldown aside. -/
theorem singleProbe_iff (calls : List BreakerCall) :
    breaker.Always (fun _ h => SingleProbe h) breaker.init [] calls ↔
      breaker.Along NoCheckWhileProbing breaker.init [] calls :=
  Machine.always_iff_along (I := ProbeInv) (fun hI => hI.single) probeInv_step
    (fun hI hC hs => not_singleProbe_step hI hC hs) probeInv_init calls

/-- Five failures in a row trip the circuit; thirty seconds later one caller is
admitted by the transition out of `OPEN` and a second one by `HALF_OPEN`. -/
def twoProbes : List BreakerCall :=
  [.recordFailure 0 0 none none, .recordFailure 0 0 none none, .recordFailure 0 0 none none,
   .recordFailure 0 0 none none, .recordFailure 0 0 none none,
   .checkExecution 30000, .checkExecution 30001]

theorem twoProbes_admitted :
    (breaker.run twoProbes).map (fun r => probes r.2) = some (some [1, 0]) := by
  decide +kernel

/-- The rule fails on a run the code can make. -/
theorem not_singleProbe :
    ¬ ∀ s h, breaker.Reachable s h → SingleProbe h := by
  intro hall
  obtain ⟨⟨s, h⟩, hrun, hw⟩ := Option.map_eq_some_iff.mp twoProbes_admitted
  exact absurd (hall s h (Machine.reachable_of_run hrun) _ hw) (by decide)

end FlashEdge
