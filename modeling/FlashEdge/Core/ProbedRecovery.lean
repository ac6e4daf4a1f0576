import FlashEdge.Core.ServiceCircuitBreaker
import FlashEdge.Theory.Machine

/-!
# Recovery of a service is decided by its test request

"`HALF_OPEN` — testing recovery, one request allowed through": what happens to an
open circuit should depend on the test request alone. `circuit` reads off the
events where an observer puts the circuit, with the number of tests that have
failed; `DecidedByProbe` is the rule, with the cooldown it prescribes.

The breaker takes any result for the test's. `decidedByProbe_iff` says on which
runs this makes no difference: those where no other request reports while the
circuit is half-open, nor fails while it is open, unless successes have kept the
count of failures below the threshold.
-/

namespace FlashEdge

open ServiceCircuitBreaker

/-! ## The circuit as an observer sees it -/

inductive ObservedCircuit where
  | closed
  | opened (failedProbes : ℕ)
  | halfOpen (failedProbes probe : ℕ)
deriving DecidableEq, Repr

/-- One event more. Opening a circuit that is not closed counts as a failed test. -/
def nextCircuit (c : ObservedCircuit) : ServiceEvent → ObservedCircuit
  | .probeAdmitted request =>
    match c with
    | .opened failedProbes => .halfOpen failedProbes request
    | c => c
  | .opened _ _ =>
    match c with
    | .closed => .opened 0
    | .opened failedProbes => .opened (failedProbes + 1)
    | .halfOpen failedProbes _ => .opened (failedProbes + 1)
  | .closed _ => .closed
  | _ => c

/-- The circuit after the events `h`. -/
def circuit (h : List ServiceEvent) : ObservedCircuit := h.foldl nextCircuit .closed

theorem circuit_append (h es : List ServiceEvent) :
    circuit (h ++ es) = es.foldl nextCircuit (circuit h) :=
  List.foldl_append

/-- The cooldown after the `n`-th failed test in a row. -/
def cooldownAfter (config : CircuitBreakerConfig) (n : ℕ) : ℚ :=
  min (config.cooldownMs * config.cooldownMultiplier ^ n) config.maxCooldownMs

/-- The rule for openings and recoveries. A closed circuit opens with the base
cooldown; an open one is not opened again; a half-open one is opened by the
failure of its test, with the next cooldown, and closed by its success. -/
def DecidedByProbe (config : CircuitBreakerConfig) (h : List ServiceEvent) : ServiceEvent → Prop
  | .opened request cooldownMs =>
    match circuit h with
    | .closed => cooldownMs = cooldownAfter config 0
    | .opened _ => False
    | .halfOpen failedProbes probe =>
      request = probe ∧ cooldownMs = cooldownAfter config (failedProbes + 1)
  | .closed (some request) =>
    match circuit h with
    | .halfOpen _ probe => request = probe
    | _ => False
  | _ => True

/-- The condition on a step: while the circuit is half-open, only the test
reports; while it is open, no failure is reported that brings the count of
consecutive failures to the threshold. -/
def OnlyProbeReports (s : ServiceState) (_ : List ServiceEvent) : ServiceCall → Prop
  | .recordFailure request _ =>
    match s.cb.state with
    | .CLOSED => True
    | .OPEN => (s.cb.consecutiveFailures + 1 : ℕ) < s.cb.config.failureThreshold
    | .HALF_OPEN => s.probe = some request
  | .recordSuccess request => s.cb.state = .HALF_OPEN → s.probe = some request
  | _ => True

/-- The breaker is where the observer puts the circuit, and its count of trips is
one more than the failed tests. -/
inductive Agrees (s : ServiceState) : ObservedCircuit → Prop where
  | closed (hstate : s.cb.state = .CLOSED) (htrips : s.cb.tripCount = 0) : Agrees s .closed
  | opened {n : ℕ} (hstate : s.cb.state = .OPEN) (htrips : s.cb.tripCount = n + 1) :
      Agrees s (.opened n)
  | halfOpen {n probe : ℕ} (hstate : s.cb.state = .HALF_OPEN) (htrips : s.cb.tripCount = n + 1)
      (hprobe : s.probe = some probe) : Agrees s (.halfOpen n probe)

theorem Agrees.of_closed {s : ServiceState} {c : ObservedCircuit} (hA : Agrees s c)
    (hstate : s.cb.state = .CLOSED) : c = .closed ∧ s.cb.tripCount = 0 := by
  cases hA with
  | closed _ htrips => exact ⟨rfl, htrips⟩
  | opened hopen _ => exact absurd (hstate.symm.trans hopen) (by decide)
  | halfOpen hhalf _ _ => exact absurd (hstate.symm.trans hhalf) (by decide)

theorem Agrees.of_open {s : ServiceState} {c : ObservedCircuit} (hA : Agrees s c)
    (hstate : s.cb.state = .OPEN) : ∃ n, c = .opened n ∧ s.cb.tripCount = n + 1 := by
  cases hA with
  | closed hclosed _ => exact absurd (hstate.symm.trans hclosed) (by decide)
  | opened _ htrips => exact ⟨_, rfl, htrips⟩
  | halfOpen hhalf _ _ => exact absurd (hstate.symm.trans hhalf) (by decide)

theorem Agrees.of_halfOpen {s : ServiceState} {c : ObservedCircuit} (hA : Agrees s c)
    (hstate : s.cb.state = .HALF_OPEN) :
    ∃ n probe, c = .halfOpen n probe ∧ s.cb.tripCount = n + 1 ∧ s.probe = some probe := by
  cases hA with
  | closed hclosed _ => exact absurd (hstate.symm.trans hclosed) (by decide)
  | opened hopen _ => exact absurd (hstate.symm.trans hopen) (by decide)
  | halfOpen _ htrips hprobe => exact ⟨_, _, rfl, htrips, hprobe⟩

/-- A result that leaves state and count of trips as they are. -/
theorem Agrees.congr {s s' : ServiceState} {c : ObservedCircuit} (hA : Agrees s c)
    (hstate : s'.cb.state = s.cb.state) (htrips : s'.cb.tripCount = s.cb.tripCount)
    (hprobe : s'.probe = s.probe) : Agrees s' c := by
  cases hA with
  | closed hclosed h0 => exact .closed (hstate.trans hclosed) (htrips.trans h0)
  | opened hopen hn => exact .opened (hstate.trans hopen) (htrips.trans hn)
  | halfOpen hhalf hn hp =>
    exact .halfOpen (hstate.trans hhalf) (htrips.trans hn) (hprobe.trans hp)

structure RecoveryInv (config : CircuitBreakerConfig) (s : ServiceState)
    (h : List ServiceEvent) : Prop where
  decided : Each (DecidedByProbe config) h
  agrees : Agrees s (circuit h)
  config_eq : s.cb.config = config

/-- An event that decides nothing, or is decided as the rule says. -/
theorem RecoveryInv.snoc {config : CircuitBreakerConfig} {s s' : ServiceState}
    {h : List ServiceEvent} {e : ServiceEvent} (hI : RecoveryInv config s h)
    (he : DecidedByProbe config h e) (hagrees : Agrees s' (nextCircuit (circuit h) e))
    (hconfig : s'.cb.config = s.cb.config) : RecoveryInv config s' (h ++ [e]) where
  decided := hI.decided.snoc he
  agrees := by
    rw [circuit_append]
    exact hagrees
  config_eq := hconfig.trans hI.config_eq

/-! ## The steps -/

theorem circuit_succeeded (h : List ServiceEvent) (request : ℕ) :
    circuit (h ++ [ServiceEvent.succeeded request]) = circuit h := circuit_append h _

theorem circuit_failed (h : List ServiceEvent) (request : ℕ) :
    circuit (h ++ [ServiceEvent.failed request]) = circuit h := circuit_append h _

variable {config : CircuitBreakerConfig} {s s' : ServiceState} {h es : List ServiceEvent}

theorem recoveryInv_allowRequest {now : ℚ} (hI : RecoveryInv config s h)
    (hs : s.step (.allowRequest now) = some (s', es)) : RecoveryInv config s' (h ++ es) := by
  simp only [ServiceState.step] at hs
  rcases s.cb.allowRequest_cases now with ⟨hstate, hr⟩ | ⟨hstate, hr⟩ | ⟨-, hr⟩
  · -- a closed circuit stays closed
    rw [hr] at hs
    simp only [hstate, reduceCtorEq, if_false] at hs
    obtain ⟨rfl, rfl⟩ := Machine.some_pair hs
    exact hI.snoc trivial (hI.agrees.congr rfl rfl rfl) rfl
  · -- the test is admitted
    rw [hr] at hs
    simp only [hstate, if_true] at hs
    obtain ⟨rfl, rfl⟩ := Machine.some_pair hs
    obtain ⟨n, hc, htrips⟩ := hI.agrees.of_open hstate
    refine hI.snoc trivial ?_ rfl
    rw [hc]
    exact .halfOpen rfl htrips rfl
  · rw [hr] at hs
    obtain ⟨rfl, rfl⟩ := Machine.some_pair hs
    exact hI.snoc trivial (hI.agrees.congr rfl rfl rfl) rfl

theorem recoveryInv_recordSuccess {request : ℕ} (hI : RecoveryInv config s h)
    (hC : OnlyProbeReports s h (.recordSuccess request))
    (hs : s.step (.recordSuccess request) = some (s', es)) :
    RecoveryInv config s' (h ++ es) := by
  simp only [ServiceState.step] at hs
  split at hs
  · obtain ⟨rfl, rfl⟩ := Machine.some_pair hs
    rcases s.cb.recordSuccess_cases with ⟨hhalf, hstate, htrips⟩ | ⟨hhalf, hstate, htrips⟩
    · rw [if_pos hhalf, List.append_cons]
      obtain ⟨n, probe, hc, -, hprobe⟩ := hI.agrees.of_halfOpen hhalf
      have hI' : RecoveryInv config s (h ++ [ServiceEvent.succeeded request]) :=
        hI.snoc trivial hI.agrees rfl
      refine hI'.snoc ?_ (.closed hstate htrips) (recordSuccess_config s.cb)
      -- the success is the test's
      simp only [DecidedByProbe, circuit_succeeded, hc]
      exact Option.some.inj ((hC hhalf).symm.trans hprobe)
    · rw [if_neg hhalf]
      exact hI.snoc trivial (hI.agrees.congr hstate htrips rfl) (recordSuccess_config s.cb)
  · cases hs

theorem recoveryInv_recordFailure {request : ℕ} {now : ℚ} (hI : RecoveryInv config s h)
    (hC : OnlyProbeReports s h (.recordFailure request now))
    (hs : s.step (.recordFailure request now) = some (s', es)) :
    RecoveryInv config s' (h ++ es) := by
  simp only [ServiceState.step] at hs
  split at hs
  · obtain ⟨rfl, rfl⟩ := Machine.some_pair hs
    rcases s.cb.recordFailure_cases now with
      ⟨hopens, hstate, htrips, hcooldown⟩ | ⟨-, hstate, htrips⟩
    · rw [if_neg (by rw [htrips]; exact Nat.succ_ne_self _), List.append_cons]
      have hI' : RecoveryInv config s (h ++ [ServiceEvent.failed request]) :=
        hI.snoc trivial hI.agrees rfl
      rw [hI.config_eq] at hcooldown
      cases hcb : s.cb.state with
      | CLOSED =>
        obtain ⟨hc, hzero⟩ := hI.agrees.of_closed hcb
        refine hI'.snoc ?_ ?_ (recordFailure_config s.cb now)
        · simp only [DecidedByProbe, circuit_failed, hc]
          rw [hcooldown, hzero, cooldownAfter]
        · rw [circuit_failed, hc]
          exact .opened hstate (by rw [htrips, hzero])
      | OPEN =>
        -- the count is below the threshold, so the circuit is not opened again
        simp only [OnlyProbeReports, hcb] at hC
        rcases hopens with hhalf | hmany
        · exact absurd (hcb.symm.trans hhalf) (by decide)
        · exact absurd hmany (not_le.mpr hC)
      | HALF_OPEN =>
        simp only [OnlyProbeReports, hcb] at hC
        obtain ⟨n, probe, hc, hn, hprobe⟩ := hI.agrees.of_halfOpen hcb
        refine hI'.snoc ?_ ?_ (recordFailure_config s.cb now)
        · simp only [DecidedByProbe, circuit_failed, hc]
          refine ⟨Option.some.inj (hC.symm.trans hprobe), ?_⟩
          rw [hcooldown, hn, cooldownAfter]
        · rw [circuit_failed, hc]
          exact .opened hstate (by rw [htrips, hn])
    · rw [if_pos htrips]
      exact hI.snoc trivial (hI.agrees.congr hstate htrips rfl) (recordFailure_config s.cb now)
  · cases hs

theorem recoveryInv_step {a : ServiceCall} (hI : RecoveryInv config s h)
    (hC : OnlyProbeReports s h a) (hs : s.step a = some (s', es)) :
    RecoveryInv config s' (h ++ es) := by
  cases a with
  | allowRequest now => exact recoveryInv_allowRequest hI hs
  | recordSuccess request => exact recoveryInv_recordSuccess hI hC hs
  | recordFailure request now => exact recoveryInv_recordFailure hI hC hs
  | reset =>
    obtain ⟨rfl, rfl⟩ := Machine.some_pair hs
    exact hI.snoc trivial (.closed rfl rfl) rfl

/-- A success that is not the test's closes a half-open circuit. -/
theorem not_decided_recordSuccess {request : ℕ} (hI : RecoveryInv config s h)
    (hhalf : s.cb.state = .HALF_OPEN) (hother : s.probe ≠ some request)
    (hs : s.step (.recordSuccess request) = some (s', es)) :
    ¬ Each (DecidedByProbe config) (h ++ es) := by
  simp only [ServiceState.step] at hs
  split at hs
  · obtain ⟨rfl, rfl⟩ := Machine.some_pair hs
    obtain ⟨n, probe, hc, -, hprobe⟩ := hI.agrees.of_halfOpen hhalf
    intro hall
    have hclosed : DecidedByProbe config (h ++ [ServiceEvent.succeeded request])
        (.closed (some request)) :=
      hall.of_split (List.append_cons h _ _)
    simp only [DecidedByProbe, circuit_succeeded, hc] at hclosed
    exact hother (hclosed ▸ hprobe)
  · cases hs

/-- A failure opens the circuit although it is open, or half-open with another
test. -/
theorem not_decided_recordFailure {request : ℕ} {now : ℚ} (hfail : s.cb.opensAtFailure)
    (hne : circuit h ≠ .closed) (hother : ∀ n, circuit h ≠ .halfOpen n request)
    (hs : s.step (.recordFailure request now) = some (s', es)) :
    ¬ Each (DecidedByProbe config) (h ++ es) := by
  simp only [ServiceState.step] at hs
  split at hs
  · obtain ⟨rfl, rfl⟩ := Machine.some_pair hs
    rcases s.cb.recordFailure_cases now with ⟨-, -, htrips, -⟩ | ⟨hnot, -⟩
    · rw [if_neg (by rw [htrips]; exact Nat.succ_ne_self _)]
      intro hall
      have hopened : DecidedByProbe config (h ++ [ServiceEvent.failed request])
          (.opened request (s.cb.recordFailure now).currentCooldownMs) :=
        hall.of_split (List.append_cons h _ _)
      unfold DecidedByProbe at hopened
      simp only [circuit_failed] at hopened
      split at hopened
      · next hc => exact hne hc
      · exact hopened
      · next n probe hc => exact hother n (hopened.1 ▸ hc)
    · exact absurd hfail hnot
  · cases hs

/-- A step that does not meet the condition ends in an opening or a recovery that
is not the test's. -/
theorem not_decided_step {a : ServiceCall} (hI : RecoveryInv config s h)
    (hC : ¬ OnlyProbeReports s h a) (hs : s.step a = some (s', es)) :
    ¬ Each (DecidedByProbe config) (h ++ es) := by
  cases a with
  | allowRequest now => exact absurd trivial hC
  | reset => exact absurd trivial hC
  | recordSuccess request =>
    unfold OnlyProbeReports at hC
    push Not at hC
    exact not_decided_recordSuccess hI hC.1 hC.2 hs
  | recordFailure request now =>
    cases hcb : s.cb.state with
    | CLOSED =>
      simp only [OnlyProbeReports, hcb] at hC
      exact absurd trivial hC
    | OPEN =>
      simp only [OnlyProbeReports, hcb, not_lt] at hC
      obtain ⟨n, hc, -⟩ := hI.agrees.of_open hcb
      refine not_decided_recordFailure (.inr hC) ?_ ?_ hs
      · simp [hc]
      · simp [hc]
    | HALF_OPEN =>
      simp only [OnlyProbeReports, hcb] at hC
      obtain ⟨n, probe, hc, -, hprobe⟩ := hI.agrees.of_halfOpen hcb
      have hne : probe ≠ request := fun heq => hC (heq ▸ hprobe)
      refine not_decided_recordFailure (.inl hcb) ?_ ?_ hs
      · simp [hc]
      · simp [hc, hne]

/-! ## The runs -/

/-- **When recovery is decided by the test.** Along any interleaving of requests,
every opening and every recovery follows the rule, with the cooldown it
prescribes, if and only if no request but the test reports while the circuit is
half-open, and none fails while it is open at the threshold. -/
theorem decidedByProbe_iff (config : CircuitBreakerConfig) (calls : List ServiceCall) :
    (serviceBreaker config).Always (fun _ h => Each (DecidedByProbe config) h)
        (serviceBreaker config).init [] calls ↔
      (serviceBreaker config).Along OnlyProbeReports (serviceBreaker config).init [] calls :=
  Machine.always_iff_along (M := serviceBreaker config) (I := RecoveryInv config)
    (fun hI => hI.decided) (fun hI hC hs => recoveryInv_step hI hC hs)
    (fun hI hC hs => not_decided_step hI hC hs) ⟨Each.nil, .closed rfl rfl, rfl⟩ calls

/-- Four requests are admitted. Three fail and open the circuit for fifteen
seconds; ten seconds later the fourth fails as well. -/
def lateFailure : List ServiceCall :=
  [.allowRequest 0, .allowRequest 0, .allowRequest 0, .allowRequest 0, .recordFailure 0 0,
    .recordFailure 1 0, .recordFailure 2 0, .recordFailure 3 10000]

/-- The late failure opens the open circuit again, for thirty seconds. -/
theorem not_decidedByProbe :
    ¬ ∀ (config : CircuitBreakerConfig) (s : ServiceState) (h : List ServiceEvent),
      (serviceBreaker config).Reachable s h → Each (DecidedByProbe config) h := by
  intro hall
  let config : CircuitBreakerConfig :=
    { failureThreshold := 3, cooldownMs := 15000, maxCooldownMs := 60000, cooldownMultiplier := 2 }
  let pre : List ServiceEvent :=
    [.admitted 0, .admitted 1, .admitted 2, .admitted 3, .failed 0, .failed 1, .failed 2,
      .opened 2 15000, .failed 3]
  have hrun : ((serviceBreaker config).run lateFailure).map (fun r => (r.2, r.1.cb.opensUntil)) =
      some (pre ++ [ServiceEvent.opened 3 30000], 40000) := by
    decide +kernel
  obtain ⟨⟨s, h⟩, hs, hh⟩ := Option.map_eq_some_iff.mp hrun
  obtain ⟨rfl, -⟩ := Prod.mk.inj hh
  exact hall config s _ (Machine.reachable_of_run hs) pre _ [] rfl

end FlashEdge
