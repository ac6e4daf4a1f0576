import Mathlib.Tactic.FieldSimp
import FlashEdge.Core.ExecutionCircuitBreaker

/-!
# The limits of the execution circuit breaker

What the breaker promises of its numbers: the cooldown lies between its base and its cap, the
first trip after a recovery is followed by the base cooldown, and as long as the circuit is
closed, neither of its two trip criteria is met. The criteria are looked at when a failure is
recorded, so it is successes that can leave the second one met; and a recovery resets the
cooldown but not the trip counter, by which the next trip lets it grow.

- `observedBreaker`: the calls, each with the breaker before and after it.
- `recoveredSince`: the last thing that happened to the circuit was a recovery.
- `WithinLimits`: the promise, over what has been observed.
- `KeepsLimits`: the condition on a call.
- `withinLimits_iff`: along a run the promise is kept exactly when every call meets it.
-/

namespace FlashEdge

namespace ExecutionCircuitBreaker

/-- One call: a check that throws leaves the breaker as it is. -/
def afterCall (cb : ExecutionCircuitBreaker) : BreakerCall → ExecutionCircuitBreaker
  | .checkExecution now =>
    match cb.checkExecution now with
    | .ok cb => cb
    | .error _ => cb
  | .recordSuccess _ now latencyMs => cb.recordSuccess now latencyMs
  | .recordFailure _ now errorCode latencyMs => cb.recordFailure now errorCode latencyMs

/-- A call that was made, with the breaker before and after it. -/
structure Observation where
  before : ExecutionCircuitBreaker
  call : BreakerCall
  after : ExecutionCircuitBreaker
deriving DecidableEq

/-- The breaker under any calls, observed. -/
def observedBreaker : Machine ExecutionCircuitBreaker BreakerCall Observation where
  init := {}
  step cb call := some (cb.afterCall call, [⟨cb, call, cb.afterCall call⟩])

namespace Observation

/-- The call records a result. -/
def isRecord (o : Observation) : Bool :=
  match o.call with
  | .checkExecution _ => false
  | _ => true

/-- The circuit opens. -/
def trips (o : Observation) : Bool := decide (o.before.tripCount < o.after.tripCount)

/-- The probe has succeeded: the circuit closes. -/
def recovers (o : Observation) : Bool :=
  decide (o.before.state = .HALF_OPEN) && decide (o.after.state = .CLOSED)

end Observation

/-- The circuit has recovered, and has not tripped since. -/
def recoveredSince (h : List Observation) : Bool :=
  h.foldl (fun recovered o => (recovered && !o.trips) || o.recovers) false

/-- Neither trip criterion is met: fewer consecutive failures than the threshold, and a
failure rate that does not exceed its threshold, once there are enough results. -/
def Untripped (cb : ExecutionCircuitBreaker) : Prop :=
  cb.consecutiveFailures < CONSECUTIVE_FAILURE_THRESHOLD ∧
    (5 ≤ cb.window.length → cb.getFailureRate ≤ FAILURE_RATE_THRESHOLD)

/-- What is promised of a call, of which it is known whether the circuit has recovered since
it last tripped. -/
structure Observation.Kept (o : Observation) (recovered : Bool) : Prop where
  cooldown : COOLDOWN_MS ≤ o.after.currentCooldownMs ∧ o.after.currentCooldownMs ≤ MAX_COOLDOWN_MS
  firstTrip : o.trips = true → recovered = true → o.after.currentCooldownMs = COOLDOWN_MS
  untripped : o.isRecord = true → o.after.state = .CLOSED → Untripped o.after

/-- Every call so far has kept the promise. -/
def WithinLimits (h : List Observation) : Prop :=
  ∀ before o after, h = before ++ o :: after → o.Kept (recoveredSince before)

/-! ## The condition on a call -/

/-- The number of failures in the window. -/
def failures (cb : ExecutionCircuitBreaker) : ℕ := (cb.window.filter fun r => !r.success).length

/-- The window once a success is recorded. -/
def windowWithSuccess (cb : ExecutionCircuitBreaker) (now : ℚ) (latencyMs : Option ℚ) :
    ExecutionCircuitBreaker :=
  cb.pushResult { success := true, timestamp := now, latencyMs }

/-- The breaker that decides whether a failure trips the circuit. -/
def withFailure (cb : ExecutionCircuitBreaker) (now : ℚ) (errorCode : Option String)
    (latencyMs : Option ℚ) : ExecutionCircuitBreaker :=
  { cb with consecutiveFailures := cb.consecutiveFailures + 1, lastFailureAt := now }.pushResult
    { success := false, timestamp := now, errorCode, latencyMs }

/-- A failure does not trip a circuit that has tripped before; a success does not complete the
five results of which three have failed; and the success that closes the circuit finds at most
two fifths of the results failed. -/
def KeepsLimits (cb : ExecutionCircuitBreaker) (_ : List Observation) : BreakerCall → Prop
  | .checkExecution _ => True
  | .recordSuccess _ now latencyMs =>
    match cb.state with
    | .CLOSED => ¬ (cb.window.length = 4 ∧ 3 ≤ cb.failures)
    | .OPEN => True
    | .HALF_OPEN => 5 ≤ (cb.windowWithSuccess now latencyMs).window.length →
        5 * (cb.windowWithSuccess now latencyMs).failures ≤
          2 * (cb.windowWithSuccess now latencyMs).window.length
  | .recordFailure _ now errorCode latencyMs =>
    cb.state = .CLOSED → 0 < cb.tripCount →
      (cb.withFailure now errorCode latencyMs).shouldTrip = false

/-! ## The window -/

/-- The failure rate against its threshold, in whole numbers. -/
theorem failureRate_le_iff (cb : ExecutionCircuitBreaker) :
    cb.getFailureRate ≤ FAILURE_RATE_THRESHOLD ↔ 5 * cb.failures ≤ 2 * cb.window.length := by
  unfold getFailureRate FAILURE_RATE_THRESHOLD
  by_cases hempty : cb.window.length = 0
  · rw [if_pos hempty]
    have hnone : cb.failures ≤ cb.window.length := List.length_filter_le _ _
    refine ⟨fun _ => by omega, fun _ => by norm_num⟩
  · rw [if_neg hempty]
    have hpos : (0 : ℚ) < cb.window.length := by exact_mod_cast Nat.pos_of_ne_zero hempty
    rw [div_le_iff₀ hpos]
    show (cb.failures : ℚ) ≤ 2 / 5 * cb.window.length ↔ _
    have hscale : (cb.failures : ℚ) ≤ 2 / 5 * cb.window.length ↔
        (5 * cb.failures : ℚ) ≤ 2 * cb.window.length := by
      constructor
      · intro h
        linarith
      · intro h
        linarith
    rw [hscale]
    exact_mod_cast Iff.rfl

/-- A success makes the window longer, or drops its oldest result; the failures are those
there were, or one fewer. -/
theorem windowWithSuccess_counts (cb : ExecutionCircuitBreaker) (now : ℚ) (latencyMs : Option ℚ) :
    (cb.window.length < WINDOW_SIZE ∧
        (cb.windowWithSuccess now latencyMs).window.length = cb.window.length + 1 ∧
        (cb.windowWithSuccess now latencyMs).failures = cb.failures) ∨
      (WINDOW_SIZE ≤ cb.window.length ∧
        (cb.windowWithSuccess now latencyMs).window.length = cb.window.length ∧
        (cb.windowWithSuccess now latencyMs).failures ≤ cb.failures) := by
  have hfailures : ((cb.window ++
      [({ success := true, timestamp := now, latencyMs } : ExecutionResult)]).filter
      fun r => !r.success).length = cb.failures := by
    rw [List.filter_append]
    exact congrArg List.length (List.append_nil _)
  unfold windowWithSuccess failures pushResult
  dsimp only
  split
  · next hfull =>
    rw [List.length_append, List.length_singleton] at hfull
    refine .inr ⟨by omega, ?_, ?_⟩
    · rw [List.length_tail, List.length_append, List.length_singleton, Nat.add_sub_cancel]
    · rw [← List.drop_one]
      refine le_trans ?_ hfailures.le
      exact ((List.drop_sublist _ _).filter _).length_le
  · next hroom =>
    rw [List.length_append, List.length_singleton] at hroom
    refine .inl ⟨by omega, ?_, hfailures⟩
    rw [List.length_append, List.length_singleton]

/-- While the rate is not exceeded, a success exceeds it only as the fifth result. -/
theorem success_untripped_iff {cb : ExecutionCircuitBreaker} (now : ℚ) (latencyMs : Option ℚ)
    (hrate : 5 ≤ cb.window.length → cb.getFailureRate ≤ FAILURE_RATE_THRESHOLD) :
    (5 ≤ (cb.windowWithSuccess now latencyMs).window.length →
        (cb.windowWithSuccess now latencyMs).getFailureRate ≤ FAILURE_RATE_THRESHOLD) ↔
      ¬ (cb.window.length = 4 ∧ 3 ≤ cb.failures) := by
  rw [failureRate_le_iff] at hrate ⊢
  rcases windowWithSuccess_counts cb now latencyMs with ⟨-, hlength, hfailures⟩ |
    ⟨hfull, hlength, hfailures⟩
  · rw [hlength, hfailures]
    omega
  · unfold WINDOW_SIZE at hfull
    rw [hlength]
    omega

/-- What a failure that does not trip the circuit leaves. -/
theorem untripped_of_not_shouldTrip {cb : ExecutionCircuitBreaker} (h : cb.shouldTrip = false) :
    Untripped cb := by
  unfold shouldTrip at h
  rw [Bool.or_eq_false_iff, decide_eq_false_iff_not, not_le] at h
  refine ⟨h.1, fun hlong => ?_⟩
  by_contra hexceeded
  have hboth := h.2
  rw [decide_eq_true hlong, decide_eq_true (not_le.mp hexceeded)] at hboth
  cases hboth

/-! ## One call -/

/-- What holds in every state: the cooldown is between its bounds, the circuit has recovered
since its last trip exactly when it is closed and has tripped, and a closed circuit meets
neither trip criterion. -/
structure LimitsInv (cb : ExecutionCircuitBreaker) (h : List Observation) : Prop where
  cooldown : COOLDOWN_MS ≤ cb.currentCooldownMs ∧ cb.currentCooldownMs ≤ MAX_COOLDOWN_MS
  recovered : recoveredSince h = true ↔ cb.state = .CLOSED ∧ 0 < cb.tripCount
  untripped : cb.state = .CLOSED → Untripped cb
  opened : cb.state ≠ .CLOSED → 0 < cb.tripCount

theorem withinLimits_snoc_iff {h : List Observation} {o : Observation} (hh : WithinLimits h) :
    WithinLimits (h ++ [o]) ↔ o.Kept (recoveredSince h) := by
  constructor
  · exact fun hall => hall h o [] rfl
  · intro ho before o' after hsplit
    rcases List.eq_nil_or_concat after with rfl | ⟨init, last, rfl⟩
    · obtain ⟨rfl, hlast⟩ := List.append_inj' hsplit rfl
      obtain rfl := List.singleton_inj.mp hlast
      exact ho
    · rw [List.concat_eq_append, ← List.cons_append, ← List.append_assoc] at hsplit
      exact hh before o' init (List.append_inj' hsplit rfl).1

theorem recoveredSince_snoc (h : List Observation) (o : Observation) :
    recoveredSince (h ++ [o]) = ((recoveredSince h && !o.trips) || o.recovers) := by
  unfold recoveredSince
  rw [List.foldl_append]
  rfl

variable {cb : ExecutionCircuitBreaker} {h : List Observation} {call : BreakerCall}

theorem cooldown_bounds : COOLDOWN_MS ≤ MAX_COOLDOWN_MS := by
  unfold COOLDOWN_MS MAX_COOLDOWN_MS
  norm_num

/-- A call that neither trips nor closes the circuit. -/
theorem kept_of_same {cb' : ExecutionCircuitBreaker} (hI : LimitsInv cb h)
    (hcool : cb'.currentCooldownMs = cb.currentCooldownMs) (htrip : cb'.tripCount = cb.tripCount)
    (hstate : cb'.state = .CLOSED ↔ cb.state = .CLOSED)
    (huntripped : cb'.state = .CLOSED → Untripped cb') :
    Observation.Kept ⟨cb, call, cb'⟩ (recoveredSince h) ∧
      LimitsInv cb' (h ++ [⟨cb, call, cb'⟩]) := by
  have hno : Observation.trips ⟨cb, call, cb'⟩ = false := by
    refine decide_eq_false ?_
    show ¬ cb.tripCount < cb'.tripCount
    rw [htrip]
    exact lt_irrefl _
  have hnot : Observation.recovers ⟨cb, call, cb'⟩ = false := by
    refine Bool.and_eq_false_iff.mpr ?_
    by_cases hhalf : cb.state = .HALF_OPEN
    · refine .inr (decide_eq_false fun hclosed => ?_)
      rw [hstate.mp hclosed] at hhalf
      cases hhalf
    · exact .inl (decide_eq_false hhalf)
  refine ⟨⟨hcool ▸ hI.cooldown, fun h => ?_, fun _ => huntripped⟩, hcool ▸ hI.cooldown, ?_,
    huntripped, fun hopen => ?_⟩
  · rw [hno] at h
    cases h
  · rw [recoveredSince_snoc, hno, hnot, hstate, htrip, ← hI.recovered]
    simp
  · rw [htrip]
    exact hI.opened fun hclosed => hopen (hstate.mpr hclosed)

/-- A call that opens the circuit is as promised where the circuit had not recovered before. -/
theorem kept_of_trip {cb' : ExecutionCircuitBreaker} (hopen : cb'.state = .OPEN)
    (htrip : cb'.tripCount = cb.tripCount + 1)
    (hcool : COOLDOWN_MS ≤ cb'.currentCooldownMs ∧ cb'.currentCooldownMs ≤ MAX_COOLDOWN_MS)
    (hfirst : recoveredSince h = false) :
    Observation.Kept ⟨cb, call, cb'⟩ (recoveredSince h) ∧
      LimitsInv cb' (h ++ [⟨cb, call, cb'⟩]) := by
  have hnot : Observation.recovers ⟨cb, call, cb'⟩ = false := by
    refine Bool.and_eq_false_iff.mpr (.inr (decide_eq_false ?_))
    show cb'.state ≠ _
    rw [hopen]
    decide
  have hclosed : cb'.state ≠ .CLOSED := by
    rw [hopen]
    decide
  refine ⟨⟨hcool, fun _ h => ?_, fun _ hc => absurd hc hclosed⟩, hcool, ?_,
    fun hc => absurd hc hclosed, fun _ => ?_⟩
  · rw [hfirst] at h
    cases h
  · rw [recoveredSince_snoc, hfirst, hnot]
    exact ⟨fun h => (by cases h), fun h => absurd h.1 hclosed⟩
  · rw [htrip]
    exact Nat.succ_pos _

/-- A call that closes the circuit is as promised where it leaves no criterion met. -/
theorem kept_of_recovery {cb' : ExecutionCircuitBreaker} (hI : LimitsInv cb h)
    (hhalf : cb.state = .HALF_OPEN) (hclosed : cb'.state = .CLOSED)
    (htrip : cb'.tripCount = cb.tripCount) (hcool : cb'.currentCooldownMs = COOLDOWN_MS)
    (hgood : Untripped cb') :
    Observation.Kept ⟨cb, call, cb'⟩ (recoveredSince h) ∧
      LimitsInv cb' (h ++ [⟨cb, call, cb'⟩]) := by
  have hno : Observation.trips ⟨cb, call, cb'⟩ = false := by
    refine decide_eq_false ?_
    show ¬ cb.tripCount < cb'.tripCount
    rw [htrip]
    exact lt_irrefl _
  have hyes : Observation.recovers ⟨cb, call, cb'⟩ = true :=
    Bool.and_eq_true_iff.mpr ⟨decide_eq_true hhalf, decide_eq_true hclosed⟩
  have hbase : COOLDOWN_MS ≤ cb'.currentCooldownMs ∧ cb'.currentCooldownMs ≤ MAX_COOLDOWN_MS := by
    rw [hcool]
    exact ⟨le_rfl, cooldown_bounds⟩
  have hpos : 0 < cb'.tripCount := by
    rw [htrip]
    refine hI.opened ?_
    rw [hhalf]
    decide
  refine ⟨⟨hbase, fun h => ?_, fun _ _ => hgood⟩, hbase, ?_, fun _ => hgood, fun _ => hpos⟩
  · rw [hno] at h
    cases h
  · rw [recoveredSince_snoc, hyes, Bool.or_true]
    exact ⟨fun _ => ⟨hclosed, hpos⟩, fun _ => rfl⟩

/-- The cooldown after a trip is between its bounds; from the second trip on it is not the
base. -/
theorem trip_cooldown (cb : ExecutionCircuitBreaker) (hcool : COOLDOWN_MS ≤ cb.currentCooldownMs ∧
    cb.currentCooldownMs ≤ MAX_COOLDOWN_MS) (now : ℚ) :
    (COOLDOWN_MS ≤ (cb.trip now).currentCooldownMs ∧
      (cb.trip now).currentCooldownMs ≤ MAX_COOLDOWN_MS) ∧
      (0 < cb.tripCount → (cb.trip now).currentCooldownMs ≠ COOLDOWN_MS) := by
  unfold trip
  dsimp only
  unfold COOLDOWN_MS MAX_COOLDOWN_MS COOLDOWN_MULTIPLIER at *
  by_cases hfirst : 1 < cb.tripCount + 1
  · rw [if_pos hfirst]
    have hgrown : (45000 : ℚ) ≤ min (cb.currentCooldownMs * (3 / 2)) 120000 :=
      le_min (by linarith) (by norm_num)
    exact ⟨⟨by linarith, min_le_right _ _⟩, fun _ heq => by linarith⟩
  · rw [if_neg hfirst]
    exact ⟨hcool, fun hpos => absurd (Nat.succ_lt_succ hpos) hfirst⟩

theorem getFailureRate_congr {cb' : ExecutionCircuitBreaker} (hwindow : cb.window = cb'.window) :
    cb.getFailureRate = cb'.getFailureRate := by
  unfold getFailureRate
  rw [hwindow]

/-- What `recordSuccess` leaves, in each state. -/
theorem recordSuccess_cases (cb : ExecutionCircuitBreaker) (now : ℚ) (latencyMs : Option ℚ) :
    (cb.recordSuccess now latencyMs).consecutiveFailures = 0 ∧
      (cb.recordSuccess now latencyMs).window = (cb.windowWithSuccess now latencyMs).window ∧
      (cb.recordSuccess now latencyMs).tripCount = cb.tripCount ∧
      (cb.state = .HALF_OPEN ∧ (cb.recordSuccess now latencyMs).state = .CLOSED ∧
          (cb.recordSuccess now latencyMs).currentCooldownMs = COOLDOWN_MS ∨
        cb.state ≠ .HALF_OPEN ∧ (cb.recordSuccess now latencyMs).state = cb.state ∧
          (cb.recordSuccess now latencyMs).currentCooldownMs = cb.currentCooldownMs) := by
  unfold recordSuccess
  dsimp only
  split
  · next hhalf => exact ⟨rfl, rfl, rfl, .inl ⟨hhalf, rfl, rfl⟩⟩
  · next hhalf => exact ⟨rfl, rfl, rfl, .inr ⟨hhalf, rfl, rfl⟩⟩

/-- A check changes no number, and never closes the circuit. -/
theorem checked_step (hI : LimitsInv cb h) (now : ℚ) :
    Observation.Kept ⟨cb, .checkExecution now, cb.afterCall (.checkExecution now)⟩
        (recoveredSince h) ∧
      LimitsInv (cb.afterCall (.checkExecution now))
        (h ++ [⟨cb, .checkExecution now, cb.afterCall (.checkExecution now)⟩]) := by
  cases hcheck : cb.checkExecution now with
  | error e =>
    have hsame : cb.afterCall (.checkExecution now) = cb := by
      simp only [afterCall, hcheck]
    rw [hsame]
    exact kept_of_same hI rfl rfl Iff.rfl hI.untripped
  | ok cb' =>
    have hafter : cb.afterCall (.checkExecution now) = cb' := by
      simp only [afterCall, hcheck]
    rw [hafter]
    rcases checkExecution_ok hcheck with ⟨hst, rfl⟩ | ⟨hst, -, rfl⟩ | ⟨hst, -, rfl⟩
    · exact kept_of_same hI rfl rfl Iff.rfl hI.untripped
    · refine kept_of_same hI rfl rfl ?_ fun hc => (by cases hc)
      rw [hst]
      exact ⟨fun hc => (by cases hc), fun hc => (by cases hc)⟩
    · refine kept_of_same hI rfl rfl Iff.rfl fun hc => ?_
      change cb.state = _ at hc
      rw [hst] at hc
      cases hc

/-- A success is as promised exactly when it meets the condition. -/
theorem success_step (hI : LimitsInv cb h) (exec : ℕ) (now : ℚ) (latencyMs : Option ℚ) :
    (KeepsLimits cb h (.recordSuccess exec now latencyMs) ∧
        Observation.Kept ⟨cb, .recordSuccess exec now latencyMs, cb.recordSuccess now latencyMs⟩
          (recoveredSince h) ∧
        LimitsInv (cb.recordSuccess now latencyMs)
          (h ++ [⟨cb, .recordSuccess exec now latencyMs, cb.recordSuccess now latencyMs⟩])) ∨
      (¬ KeepsLimits cb h (.recordSuccess exec now latencyMs) ∧
        ¬ Observation.Kept ⟨cb, .recordSuccess exec now latencyMs, cb.recordSuccess now latencyMs⟩
          (recoveredSince h)) := by
  obtain ⟨hzero, hwindow, htrips, hcases⟩ := recordSuccess_cases cb now latencyMs
  have hrate := getFailureRate_congr hwindow
  have huntripped : Untripped (cb.recordSuccess now latencyMs) ↔
      (5 ≤ (cb.windowWithSuccess now latencyMs).window.length →
        (cb.windowWithSuccess now latencyMs).getFailureRate ≤ FAILURE_RATE_THRESHOLD) := by
    unfold Untripped
    rw [hzero, hwindow, hrate]
    exact and_iff_right (by decide)
  rcases hcases with ⟨hhalf, hclosed, hcool⟩ | ⟨hhalf, hstate, hcool⟩
  · -- the success closes the circuit
    have hcond : KeepsLimits cb h (.recordSuccess exec now latencyMs) ↔
        Untripped (cb.recordSuccess now latencyMs) := by
      rw [huntripped, failureRate_le_iff]
      unfold KeepsLimits
      rw [hhalf]
    by_cases hgood : Untripped (cb.recordSuccess now latencyMs)
    · exact .inl ⟨hcond.mpr hgood, kept_of_recovery hI hhalf hclosed htrips hcool hgood⟩
    · exact .inr ⟨fun hk => hgood (hcond.mp hk), fun hk => hgood (hk.untripped rfl hclosed)⟩
  · by_cases hopen : cb.state = .OPEN
    · refine .inl ⟨?_, kept_of_same hI hcool htrips (by rw [hstate]) fun hc => ?_⟩
      · unfold KeepsLimits
        rw [hopen]
        trivial
      · rw [hstate, hopen] at hc
        cases hc
    · have hclosed : cb.state = .CLOSED := by
        cases hst : cb.state with
        | CLOSED => rfl
        | OPEN => exact absurd hst hopen
        | HALF_OPEN => exact absurd hst hhalf
      have hcond : KeepsLimits cb h (.recordSuccess exec now latencyMs) ↔
          Untripped (cb.recordSuccess now latencyMs) := by
        rw [huntripped, success_untripped_iff now latencyMs (hI.untripped hclosed).2]
        unfold KeepsLimits
        rw [hclosed]
      by_cases hgood : Untripped (cb.recordSuccess now latencyMs)
      · exact .inl ⟨hcond.mpr hgood, kept_of_same hI hcool htrips (by rw [hstate]) fun _ => hgood⟩
      · refine .inr ⟨fun hk => hgood (hcond.mp hk), fun hk => hgood (hk.untripped rfl ?_)⟩
        exact hstate.trans hclosed

/-- A failed probe opens the circuit again. -/
theorem recordFailure_halfOpen (hst : cb.state = .HALF_OPEN) (now : ℚ) (errorCode : Option String)
    (latencyMs : Option ℚ) :
    cb.recordFailure now errorCode latencyMs =
      { cb.withFailure now errorCode latencyMs with halfOpenProbeInFlight := false }.trip now := by
  cases cb
  cases hst
  rfl

/-- A failure while the circuit is open is only counted. -/
theorem recordFailure_open (hst : cb.state = .OPEN) (now : ℚ) (errorCode : Option String)
    (latencyMs : Option ℚ) :
    cb.recordFailure now errorCode latencyMs = cb.withFailure now errorCode latencyMs := by
  cases cb
  cases hst
  rfl

/-- A failure while the circuit is closed opens it when a criterion is met. -/
theorem recordFailure_closed (hst : cb.state = .CLOSED) (now : ℚ) (errorCode : Option String)
    (latencyMs : Option ℚ) :
    cb.recordFailure now errorCode latencyMs =
      if (cb.withFailure now errorCode latencyMs).shouldTrip then
        (cb.withFailure now errorCode latencyMs).trip now
      else cb.withFailure now errorCode latencyMs := by
  cases cb
  cases hst
  rfl

/-- A failure is as promised exactly when it meets the condition. -/
theorem failure_step (hI : LimitsInv cb h) (exec : ℕ) (now : ℚ) (errorCode : Option String)
    (latencyMs : Option ℚ) :
    (KeepsLimits cb h (.recordFailure exec now errorCode latencyMs) ∧
        Observation.Kept ⟨cb, .recordFailure exec now errorCode latencyMs,
          cb.recordFailure now errorCode latencyMs⟩ (recoveredSince h) ∧
        LimitsInv (cb.recordFailure now errorCode latencyMs)
          (h ++ [⟨cb, .recordFailure exec now errorCode latencyMs,
            cb.recordFailure now errorCode latencyMs⟩])) ∨
      (¬ KeepsLimits cb h (.recordFailure exec now errorCode latencyMs) ∧
        ¬ Observation.Kept ⟨cb, .recordFailure exec now errorCode latencyMs,
          cb.recordFailure now errorCode latencyMs⟩ (recoveredSince h)) := by
  cases hst : cb.state with
  | HALF_OPEN =>
    have hfirst : recoveredSince h = false := by
      rw [← Bool.not_eq_true, hI.recovered, hst]
      exact fun hc => (by cases hc.1)
    rw [recordFailure_halfOpen hst]
    refine .inl ⟨fun hc => ?_, kept_of_trip rfl rfl ?_ hfirst⟩
    · rw [hst] at hc
      cases hc
    · exact (trip_cooldown { cb.withFailure now errorCode latencyMs with
        halfOpenProbeInFlight := false } hI.cooldown now).1
  | OPEN =>
    rw [recordFailure_open hst]
    refine .inl ⟨fun hc => ?_, kept_of_same hI rfl rfl Iff.rfl fun hc => ?_⟩
    · rw [hst] at hc
      cases hc
    · change cb.state = _ at hc
      rw [hst] at hc
      cases hc
  | CLOSED =>
    rw [recordFailure_closed hst]
    cases hshould : (cb.withFailure now errorCode latencyMs).shouldTrip with
    | false =>
      rw [if_neg Bool.false_ne_true]
      exact .inl ⟨fun _ _ => hshould,
        kept_of_same hI rfl rfl Iff.rfl fun _ => untripped_of_not_shouldTrip hshould⟩
    | true =>
      rw [if_pos rfl]
      obtain ⟨hbounds, hgrown⟩ :=
        trip_cooldown (cb.withFailure now errorCode latencyMs) hI.cooldown now
      by_cases hagain : 0 < cb.tripCount
      · refine .inr ⟨fun hk => ?_, fun hk => hgrown hagain (hk.firstTrip ?_ ?_)⟩
        · have hno := hk hst hagain
          rw [hshould] at hno
          cases hno
        · exact decide_eq_true (Nat.lt_succ_self _)
        · exact hI.recovered.mpr ⟨hst, hagain⟩
      · refine .inl ⟨fun _ hpos => absurd hpos hagain, kept_of_trip rfl rfl hbounds ?_⟩
        rw [← Bool.not_eq_true, hI.recovered]
        exact fun hboth => hagain hboth.2

theorem step_within {cb' : ExecutionCircuitBreaker} {es : List Observation}
    (hI : LimitsInv cb h ∧ WithinLimits h) (hs : observedBreaker.step cb call = some (cb', es)) :
    (KeepsLimits cb h call ∧ LimitsInv cb' (h ++ es) ∧ WithinLimits (h ++ es)) ∨
      (¬ KeepsLimits cb h call ∧ ¬ WithinLimits (h ++ es)) := by
  obtain ⟨rfl, rfl⟩ := Machine.some_pair hs
  obtain ⟨hinv, hwithin⟩ := hI
  have hstep : (KeepsLimits cb h call ∧
        Observation.Kept ⟨cb, call, cb.afterCall call⟩ (recoveredSince h) ∧
        LimitsInv (cb.afterCall call) (h ++ [⟨cb, call, cb.afterCall call⟩])) ∨
      (¬ KeepsLimits cb h call ∧
        ¬ Observation.Kept ⟨cb, call, cb.afterCall call⟩ (recoveredSince h)) := by
    cases call with
    | checkExecution now => exact .inl ⟨trivial, checked_step hinv now⟩
    | recordSuccess exec now latencyMs => exact success_step hinv exec now latencyMs
    | recordFailure exec now errorCode latencyMs =>
      exact failure_step hinv exec now errorCode latencyMs
  have hsnoc := withinLimits_snoc_iff (o := ⟨cb, call, cb.afterCall call⟩) hwithin
  rcases hstep with ⟨hgood, hkept, hinv'⟩ | ⟨hbad, hnot⟩
  · exact .inl ⟨hgood, hinv', hsnoc.mpr hkept⟩
  · exact .inr ⟨hbad, fun hall => hnot (hsnoc.mp hall)⟩

/-- **The limits of the breaker.** Along every sequence of calls, the cooldown stays between
30 and 120 seconds, the first trip after a recovery uses the base cooldown, and after every
record that leaves the circuit closed neither trip criterion is met, exactly when no failure
trips a circuit that has recovered, no success brings five results of which three have failed,
and every success that closes the circuit finds at most two fifths of the results failed. -/
theorem withinLimits_iff (calls : List BreakerCall) :
    observedBreaker.Always (fun _ h => WithinLimits h) observedBreaker.init [] calls ↔
      observedBreaker.Along KeepsLimits observedBreaker.init [] calls := by
  refine Machine.always_iff_along_of_step (I := fun cb h => LimitsInv cb h ∧ WithinLimits h)
    (fun hI => hI.2) (fun hI hs => step_within hI hs)
    ⟨⟨?_, ?_, fun _ => ?_, fun hne => ?_⟩, ?_⟩ calls
  · exact ⟨le_rfl, cooldown_bounds⟩
  · exact ⟨fun hc => (by cases hc), fun hc => absurd hc.2 (lt_irrefl 0)⟩
  · exact ⟨by decide, fun hlong => absurd hlong (by decide)⟩
  · exact absurd rfl hne
  · intro before o after hsplit
    exact absurd hsplit.symm (List.append_ne_nil_of_right_ne_nil _ (List.cons_ne_nil _ _))

/-- Five failures, a probe that succeeds after the cooldown, and five failures again. -/
def twoTrips : List BreakerCall :=
  List.replicate 5 (.recordFailure 0 0 none none) ++
    [.checkExecution 30000, .recordSuccess 0 30000 none] ++
    List.replicate 5 (.recordFailure 0 30000 none none)

/-- The second trip, the first one after the recovery, has a cooldown of 45 seconds; and once
the circuit has recovered, five of the six results have failed. -/
theorem escalated_after_recovery :
    ∃ cb h, observedBreaker.run twoTrips = some (cb, h) ∧ cb.currentCooldownMs = 45000 ∧
      ¬ WithinLimits h := by
  have hrun : (observedBreaker.run twoTrips).map (fun r =>
      (r.1.currentCooldownMs, (r.2.drop 6).head?.map fun o =>
        (o.isRecord, o.after.state, o.after.window.length, o.after.getFailureRate))) =
      some (45000, some (true, .CLOSED, 6, 5 / 6)) := by
    decide +kernel
  obtain ⟨⟨cb, h⟩, hcb, hboth⟩ := Option.map_eq_some_iff.mp hrun
  obtain ⟨hcool, hrecovery⟩ := Prod.mk.inj hboth
  obtain ⟨o, ho, hobs⟩ := Option.map_eq_some_iff.mp hrecovery
  obtain ⟨hrecord, hstate, hlength, hrate⟩ : o.isRecord = true ∧ o.after.state = .CLOSED ∧
      o.after.window.length = 6 ∧ o.after.getFailureRate = 5 / 6 := by
    simpa only [Prod.mk.injEq] using hobs
  refine ⟨cb, h, hcb, hcool, fun hall => ?_⟩
  obtain ⟨rest, hrest⟩ : ∃ rest, h.drop 6 = o :: rest := by
    cases hdrop : h.drop 6 with
    | nil =>
      rw [hdrop] at ho
      cases ho
    | cons o' rest =>
      rw [hdrop] at ho
      obtain rfl := Option.some.inj ho
      exact ⟨rest, rfl⟩
  have hkept := hall (h.take 6) o rest (by rw [← hrest, List.take_append_drop])
  have hexceeded := (hkept.untripped hrecord hstate).2 (by rw [hlength]; decide)
  rw [hrate] at hexceeded
  unfold FAILURE_RATE_THRESHOLD at hexceeded
  norm_num at hexceeded

end ExecutionCircuitBreaker

end FlashEdge
