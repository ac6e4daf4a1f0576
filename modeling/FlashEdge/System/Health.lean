import FlashEdge.Js
import FlashEdge.Theory.Machine
import Mathlib.Data.List.Sort
import Mathlib.Data.Rat.Floor
import Mathlib.Tactic.Linarith

/-!
# The health monitor (`system/health.ts`)

The monitor measures the lag of the event loop, errors and the latency of the network, and
decides at each evaluation how well the process is: trades are blocked while it is `CRITICAL`.
Three rules make the next state, one after another: the worst cause wins, recovery waits for
lower thresholds, and `CRITICAL` is held for a minute.

- `HealthMonitor.analyzeCauses`, `HealthMonitor.evaluate`: the analysis and the decision.
- `EvaluationRight`: what an evaluation should decide, given the ones before it.
- `nextState_of_critical`, `nextState_of_warning`, `nextState_recovered`, `nextState_held`: the
  three rules together, one lemma for each of the four things asked of them.
- `evaluations_right`: along every run, every evaluation is right.
-/

namespace FlashEdge

/-! ## Thresholds -/

def LAG_POLL_MS : ℚ := 500
def LAG_WARNING_MS : ℚ := 500
def LAG_CRITICAL_MS : ℚ := 2000
def MEM_WARNING_BYTES : ℚ := 9 / 5 * 1024 * 1024 * 1024
def MEM_CRITICAL_BYTES : ℚ := 5 / 2 * 1024 * 1024 * 1024
def ERROR_RATE_WARNING : ℚ := 10
def ERROR_RATE_CRITICAL : ℚ := 30
def RPC_LATENCY_WARNING_MS : ℚ := 2000
def RPC_LATENCY_CRITICAL_MS : ℚ := 5000
def LAG_RECOVERY_MS : ℚ := 100
def MEM_RECOVERY_BYTES : ℚ := 1 * 1024 * 1024 * 1024
def CRITICAL_COOLDOWN_MS : ℚ := 60000
def MAX_LAG_SAMPLES : ℕ := 20
def MAX_RPC_SAMPLES : ℕ := 20

/-! ## Causes -/

inductive HealthState where
  | HEALTHY
  | DEGRADED
  | CRITICAL
deriving DecidableEq

inductive HealthCause where
  | event_loop_lag
  | memory_pressure
  | high_error_rate
  | rpc_latency
  | none
deriving DecidableEq

inductive Severity where
  | warning
  | critical
deriving DecidableEq

structure CauseBreakdown where
  cause : HealthCause
  severity : Severity
  value : ℚ
  threshold : ℚ
  label : String
deriving DecidableEq

/-- `Math.round(x)`. -/
def roundMs (x : ℚ) : ℤ := ⌊x + 1 / 2⌋

/-- `Math.round(bytes / (1024 * 1024))`. -/
def megabytes (bytes : ℚ) : ℤ := roundMs (bytes / (1024 * 1024))

/-- The cause that a metric is, if it reaches one of its thresholds. -/
def causeOf (metric warning critical : ℚ) (atWarning atCritical : CauseBreakdown) :
    List CauseBreakdown :=
  if critical ≤ metric then [atCritical] else if warning ≤ metric then [atWarning] else []

def lagCause (lag : ℚ) : List CauseBreakdown :=
  let shown := roundMs lag
  causeOf lag LAG_WARNING_MS LAG_CRITICAL_MS
    ⟨.event_loop_lag, .warning, shown, LAG_WARNING_MS, s!"event loop lag {shown}ms (>=500ms)"⟩
    ⟨.event_loop_lag, .critical, shown, LAG_CRITICAL_MS,
      s!"event loop lag {shown}ms (critical >=2000ms)"⟩

def memoryCause (rss : ℚ) : List CauseBreakdown :=
  let shown := megabytes rss
  let warning := megabytes MEM_WARNING_BYTES
  let critical := megabytes MEM_CRITICAL_BYTES
  causeOf rss MEM_WARNING_BYTES MEM_CRITICAL_BYTES
    ⟨.memory_pressure, .warning, shown, warning, s!"RSS {shown}MB (>={warning}MB)"⟩
    ⟨.memory_pressure, .critical, shown, critical, s!"RSS {shown}MB (critical >={critical}MB)"⟩

def errorCause (errorRate : ℕ) : List CauseBreakdown :=
  causeOf errorRate ERROR_RATE_WARNING ERROR_RATE_CRITICAL
    ⟨.high_error_rate, .warning, errorRate, ERROR_RATE_WARNING,
      s!"error rate {errorRate}/min (>=10)"⟩
    ⟨.high_error_rate, .critical, errorRate, ERROR_RATE_CRITICAL,
      s!"error rate {errorRate}/min (critical >=30)"⟩

def rpcCause (rpcLatency : ℤ) : List CauseBreakdown :=
  causeOf rpcLatency RPC_LATENCY_WARNING_MS RPC_LATENCY_CRITICAL_MS
    ⟨.rpc_latency, .warning, rpcLatency, RPC_LATENCY_WARNING_MS,
      s!"RPC latency {rpcLatency}ms (>=2000ms)"⟩
    ⟨.rpc_latency, .critical, rpcLatency, RPC_LATENCY_CRITICAL_MS,
      s!"RPC latency {rpcLatency}ms (critical >=5000ms)"⟩

/-- Critical causes first, then the worst ratio of value and threshold. -/
def CauseBreakdown.before (a b : CauseBreakdown) : Prop :=
  if a.severity ≠ b.severity then a.severity = .critical
  else b.value / b.threshold ≤ a.value / a.threshold

instance (a b : CauseBreakdown) : Decidable (a.before b) := by
  unfold CauseBreakdown.before
  infer_instance

/-! ## The monitor -/

structure HealthMonitor where
  state : HealthState := .HEALTHY
  lastLagCheck : ℚ
  currentLagMs : ℚ := 0
  lagSamples : List ℚ := []
  errorTimestamps : List ℚ := []
  rpcLatencies : List ℚ := []
  lastStateChange : ℚ
  criticalEnteredAt : ℚ := 0
  primaryCause : HealthCause := .none
  causes : List CauseBreakdown := []

/-- What an evaluation reads from the process: the clock, and the memory twice, for the analysis
of the causes and for the recovery. -/
structure Reading where
  now : ℚ
  analyzedRss : ℚ
  rss : ℚ

namespace HealthMonitor

/-- `arr.push(x)`, and the oldest goes if there are more than `n`. -/
def pushBounded (n : ℕ) (xs : List ℚ) (x : ℚ) : List ℚ :=
  if n < (xs ++ [x]).length then (xs ++ [x]).tail else xs ++ [x]

/-- `percentile(arr, 0.9)`. -/
def percentile90 (arr : List ℚ) : ℚ :=
  let sorted := arr.insertionSort (· ≤ ·)
  sorted.getD (min (sorted.length * 9 / 10) (sorted.length - 1)) 0

def measureLag (s : HealthMonitor) (now : ℚ) : HealthMonitor :=
  let lag := max 0 (now - s.lastLagCheck - LAG_POLL_MS)
  let lagSamples := pushBounded MAX_LAG_SAMPLES s.lagSamples lag
  { s with lastLagCheck := now, lagSamples, currentLagMs := percentile90 lagSamples }

/-- The errors of the last minute. -/
def recentErrors (now : ℚ) (errorTimestamps : List ℚ) : List ℚ :=
  errorTimestamps.filter fun t => now - 60000 ≤ t

def recordError (s : HealthMonitor) (now : ℚ) : HealthMonitor :=
  { s with errorTimestamps := recentErrors now (s.errorTimestamps ++ [now]) }

def recordRpcLatency (s : HealthMonitor) : JsNumber → HealthMonitor
  | .finite ms =>
    if ms < 0 then s
    else { s with rpcLatencies := pushBounded MAX_RPC_SAMPLES s.rpcLatencies ms }
  | _ => s

def getErrorRate (s : HealthMonitor) (now : ℚ) : ℕ := (recentErrors now s.errorTimestamps).length

def getAvgRpcLatency (s : HealthMonitor) : ℤ :=
  if s.rpcLatencies = [] then 0 else roundMs (s.rpcLatencies.sum / s.rpcLatencies.length)

def analyzeCauses (s : HealthMonitor) (now rss : ℚ) : HealthCause × List CauseBreakdown :=
  let causes := (lagCause s.currentLagMs ++ memoryCause rss ++ errorCause (s.getErrorRate now) ++
    rpcCause s.getAvgRpcLatency).insertionSort CauseBreakdown.before
  ((causes.head?.map CauseBreakdown.cause).getD .none, causes)

/-- The worst condition wins. -/
def worst (causes : List CauseBreakdown) : HealthState :=
  if causes.any fun c => c.severity = .critical then .CRITICAL
  else if 0 < causes.length then .DEGRADED
  else .HEALTHY

/-- Recovery hysteresis. -/
def recovered (prevState newState : HealthState) (lag rss : ℚ) : HealthState :=
  if newState = .HEALTHY ∧ (prevState = .DEGRADED ∨ prevState = .CRITICAL) then
    if LAG_RECOVERY_MS < lag ∨ MEM_RECOVERY_BYTES < rss then .DEGRADED else newState
  else newState

/-- `CRITICAL` is held until the cooldown is over. -/
def held (prevState newState : HealthState) (timeInCritical : ℚ) : HealthState :=
  if prevState = .CRITICAL ∧ newState ≠ .CRITICAL then
    if timeInCritical < CRITICAL_COOLDOWN_MS then .CRITICAL else newState
  else newState

/-- The state that an evaluation decides for. -/
def nextState (s : HealthMonitor) (r : Reading) : HealthState :=
  held s.state
    (recovered s.state (worst (s.analyzeCauses r.now r.analyzedRss).2) s.currentLagMs r.rss)
    (r.now - s.criticalEnteredAt)

def evaluate (s : HealthMonitor) (r : Reading) : HealthMonitor :=
  let (primary, causes) := s.analyzeCauses r.now r.analyzedRss
  let newState := s.nextState r
  let s := { s with
    errorTimestamps := recentErrors r.now s.errorTimestamps, primaryCause := primary, causes }
  if newState ≠ s.state then
    { s with
      state := newState
      lastStateChange := r.now
      criticalEnteredAt := if newState = .CRITICAL then r.now else s.criticalEnteredAt }
  else s

def isTradeBlocked (s : HealthMonitor) : Bool := s.state = .CRITICAL

end HealthMonitor

/-! ## Runs -/

/-- An evaluation: the metrics it looked at, and the state after it. -/
structure Evaluation where
  reading : Reading
  lag : ℚ
  errorRate : ℕ
  rpcLatency : ℤ
  after : HealthState

inductive HealthAction where
  | measureLag (now : ℚ)
  | recordError (now : ℚ)
  | recordRpcLatency (ms : JsNumber)
  | evaluate (reading : Reading)

/-- The evaluation of a reading. -/
def HealthMonitor.evaluation (s : HealthMonitor) (r : Reading) : Evaluation where
  reading := r
  lag := s.currentLagMs
  errorRate := s.getErrorRate r.now
  rpcLatency := s.getAvgRpcLatency
  after := (s.evaluate r).state

/-- A monitor that is started at these times of the two clocks. -/
def healthMonitor (lastLagCheck lastStateChange : ℚ) :
    Machine HealthMonitor HealthAction Evaluation where
  init := { lastLagCheck, lastStateChange }
  step s
    | .measureLag now => some (s.measureLag now, [])
    | .recordError now => some (s.recordError now, [])
    | .recordRpcLatency ms => some (s.recordRpcLatency ms, [])
    | .evaluate r => some (s.evaluate r, [s.evaluation r])

/-! ## What evaluations should decide -/

namespace Evaluation

/-- Some metric is at or above its threshold. -/
def Reaches (e : Evaluation) (lag memory errorRate rpcLatency : ℚ) : Prop :=
  lag ≤ e.lag ∨ memory ≤ e.reading.analyzedRss ∨ errorRate ≤ e.errorRate ∨
    rpcLatency ≤ e.rpcLatency

def ReachesCritical (e : Evaluation) : Prop :=
  e.Reaches LAG_CRITICAL_MS MEM_CRITICAL_BYTES ERROR_RATE_CRITICAL RPC_LATENCY_CRITICAL_MS

def ReachesWarning (e : Evaluation) : Prop :=
  e.Reaches LAG_WARNING_MS MEM_WARNING_BYTES ERROR_RATE_WARNING RPC_LATENCY_WARNING_MS

end Evaluation

/-- The state after the evaluations so far. -/
def stateAfter (past : List Evaluation) : HealthState :=
  (past.getLast?.map Evaluation.after).getD .HEALTHY

/-- `CRITICAL` was entered at a time, and has been kept since. -/
def CriticalSince (past : List Evaluation) (entered : ℚ) : Prop :=
  ∃ before e since, past = before ++ e :: since ∧ stateAfter before ≠ .CRITICAL ∧
    e.after = .CRITICAL ∧ e.reading.now = entered ∧ ∀ x ∈ since, x.after = .CRITICAL

/-- What an evaluation should decide. -/
structure EvaluationRight (past : List Evaluation) (e : Evaluation) : Prop where
  critical : e.ReachesCritical → e.after = .CRITICAL
  warned : e.ReachesWarning → e.after ≠ .HEALTHY
  recovered : stateAfter past ≠ .HEALTHY → e.after = .HEALTHY →
    ¬ e.ReachesWarning ∧ e.lag ≤ LAG_RECOVERY_MS ∧ e.reading.rss ≤ MEM_RECOVERY_BYTES
  held : ∀ entered, CriticalSince past entered → e.reading.now < entered + CRITICAL_COOLDOWN_MS →
    e.after = .CRITICAL

/-! ## The three rules -/

namespace HealthMonitor

theorem mem_causeOf {metric warning critical : ℚ} {atWarning atCritical c : CauseBreakdown} :
    c ∈ causeOf metric warning critical atWarning atCritical ↔
      (critical ≤ metric ∧ c = atCritical) ∨
        (¬ critical ≤ metric ∧ warning ≤ metric ∧ c = atWarning) := by
  unfold causeOf
  split
  · next h => simp [h]
  · next h =>
    split
    · next hw => simp [h, hw]
    · next hw => simp [h, hw]

/-- The cause of a metric is critical when the metric is. -/
theorem exists_critical_causeOf {metric warning critical : ℚ}
    {atWarning atCritical : CauseBreakdown} (hw : atWarning.severity = .warning)
    (hc : atCritical.severity = .critical) :
    (∃ c ∈ causeOf metric warning critical atWarning atCritical, c.severity = .critical) ↔
      critical ≤ metric := by
  constructor
  · rintro ⟨c, hmem, hseverity⟩
    rcases mem_causeOf.mp hmem with ⟨h, -⟩ | ⟨-, -, rfl⟩
    · exact h
    · rw [hw] at hseverity
      cases hseverity
  · exact fun h => ⟨atCritical, mem_causeOf.mpr (.inl ⟨h, rfl⟩), hc⟩

/-- A metric is a cause when it reaches its lower threshold. -/
theorem exists_causeOf {metric warning critical : ℚ} {atWarning atCritical : CauseBreakdown}
    (hle : warning ≤ critical) :
    (∃ c, c ∈ causeOf metric warning critical atWarning atCritical) ↔ warning ≤ metric := by
  constructor
  · rintro ⟨c, hmem⟩
    rcases mem_causeOf.mp hmem with ⟨h, -⟩ | ⟨-, h, -⟩
    · exact hle.trans h
    · exact h
  · intro h
    by_cases hc : critical ≤ metric
    · exact ⟨_, mem_causeOf.mpr (.inl ⟨hc, rfl⟩)⟩
    · exact ⟨_, mem_causeOf.mpr (.inr ⟨hc, h, rfl⟩)⟩

variable {s : HealthMonitor} {r : Reading}

theorem mem_analyzeCauses {now rss : ℚ} {c : CauseBreakdown} :
    c ∈ (s.analyzeCauses now rss).2 ↔ c ∈ lagCause s.currentLagMs ∨ c ∈ memoryCause rss ∨
      c ∈ errorCause (s.getErrorRate now) ∨ c ∈ rpcCause s.getAvgRpcLatency := by
  unfold analyzeCauses
  simp only [List.mem_insertionSort, List.mem_append, or_assoc]

/-- A critical cause is a metric at or above its critical threshold. -/
theorem exists_critical_iff :
    (∃ c ∈ (s.analyzeCauses r.now r.analyzedRss).2, c.severity = .critical) ↔
      (s.evaluation r).ReachesCritical := by
  simp only [mem_analyzeCauses, or_and_right, exists_or]
  exact or_congr (exists_critical_causeOf rfl rfl) (or_congr (exists_critical_causeOf rfl rfl)
    (or_congr (exists_critical_causeOf rfl rfl) (exists_critical_causeOf rfl rfl)))

/-- A cause is a metric at or above its warning threshold. -/
theorem exists_cause_iff :
    (∃ c, c ∈ (s.analyzeCauses r.now r.analyzedRss).2) ↔ (s.evaluation r).ReachesWarning := by
  simp only [mem_analyzeCauses, exists_or]
  have hmemory : MEM_WARNING_BYTES ≤ MEM_CRITICAL_BYTES := by
    unfold MEM_WARNING_BYTES MEM_CRITICAL_BYTES
    norm_num
  exact or_congr (exists_causeOf (by decide)) (or_congr (exists_causeOf hmemory)
    (or_congr (exists_causeOf (by decide)) (exists_causeOf (by decide))))

/-- **The worst cause.** -/
theorem worst_cases :
    (worst (s.analyzeCauses r.now r.analyzedRss).2 = .CRITICAL ∧
        (s.evaluation r).ReachesCritical) ∨
      (worst (s.analyzeCauses r.now r.analyzedRss).2 = .DEGRADED ∧
        ¬ (s.evaluation r).ReachesCritical) ∨
      (worst (s.analyzeCauses r.now r.analyzedRss).2 = .HEALTHY ∧
        ¬ (s.evaluation r).ReachesCritical ∧ ¬ (s.evaluation r).ReachesWarning) := by
  rw [← exists_critical_iff, ← exists_cause_iff]
  generalize (s.analyzeCauses r.now r.analyzedRss).2 = causes
  unfold worst
  split
  · next h => exact .inl ⟨rfl, by simpa using h⟩
  · next h =>
    have hnone : ¬ ∃ c ∈ causes, c.severity = .critical := by simpa using h
    split
    · exact .inr (.inl ⟨rfl, hnone⟩)
    · next hempty =>
      refine .inr (.inr ⟨rfl, hnone, ?_⟩)
      rintro ⟨c, hc⟩
      exact hempty (List.length_pos_of_mem hc)

theorem recovered_of_ne {prevState newState : HealthState} (h : newState ≠ .HEALTHY)
    (lag rss : ℚ) : recovered prevState newState lag rss = newState :=
  if_neg fun hc => h hc.1

/-- What recovery lets through as `HEALTHY`. -/
theorem recovered_eq_healthy {prevState newState : HealthState} {lag rss : ℚ}
    (h : recovered prevState newState lag rss = .HEALTHY) (hprev : prevState ≠ .HEALTHY) :
    lag ≤ LAG_RECOVERY_MS ∧ rss ≤ MEM_RECOVERY_BYTES := by
  have hnew : newState = .HEALTHY := by
    by_contra hne
    rw [recovered_of_ne hne] at h
    exact hne h
  have hunwell : prevState = .DEGRADED ∨ prevState = .CRITICAL := by
    cases prevState with
    | HEALTHY => exact absurd rfl hprev
    | DEGRADED => exact .inl rfl
    | CRITICAL => exact .inr rfl
  unfold recovered at h
  rw [if_pos ⟨hnew, hunwell⟩] at h
  split at h
  · cases h
  · next hlow => exact ⟨not_lt.mp fun hl => hlow (.inl hl), not_lt.mp fun hm => hlow (.inr hm)⟩

/-- Holding changes nothing, or makes the state `CRITICAL`. -/
theorem held_cases (prevState newState : HealthState) (timeInCritical : ℚ) :
    held prevState newState timeInCritical = newState ∨
      held prevState newState timeInCritical = .CRITICAL := by
  unfold held
  split
  · split
    · exact .inr rfl
    · exact .inl rfl
  · exact .inl rfl

/-- What is not `CRITICAL` after holding was so before. -/
theorem eq_of_held {prevState newState state : HealthState} {timeInCritical : ℚ}
    (h : held prevState newState timeInCritical = state) (hstate : state ≠ .CRITICAL) :
    newState = state := by
  rcases held_cases prevState newState timeInCritical with hkept | hcritical
  · exact hkept.symm.trans h
  · exact absurd (h.symm.trans hcritical) hstate

theorem nextState_of_critical (h : (s.evaluation r).ReachesCritical) :
    s.nextState r = .CRITICAL := by
  rcases worst_cases (s := s) (r := r) with ⟨hworst, -⟩ | ⟨-, hnot⟩ | ⟨-, hnot, -⟩
  · unfold nextState
    rw [hworst, recovered_of_ne (by decide)]
    rcases held_cases s.state .CRITICAL (r.now - s.criticalEnteredAt) with hheld | hheld
    · exact hheld
    · exact hheld
  · exact absurd h hnot
  · exact absurd h hnot

theorem nextState_of_warning (h : (s.evaluation r).ReachesWarning) :
    s.nextState r ≠ .HEALTHY := by
  intro hhealthy
  have hrecovered := eq_of_held hhealthy (by decide)
  rcases worst_cases (s := s) (r := r) with ⟨hworst, -⟩ | ⟨hworst, -⟩ | ⟨-, -, hnot⟩
  · rw [hworst, recovered_of_ne (by decide)] at hrecovered
    cases hrecovered
  · rw [hworst, recovered_of_ne (by decide)] at hrecovered
    cases hrecovered
  · exact hnot h

theorem nextState_recovered (hprev : s.state ≠ .HEALTHY) (h : s.nextState r = .HEALTHY) :
    s.currentLagMs ≤ LAG_RECOVERY_MS ∧ r.rss ≤ MEM_RECOVERY_BYTES :=
  recovered_eq_healthy (eq_of_held h (by decide)) hprev

theorem nextState_held (hprev : s.state = .CRITICAL)
    (h : r.now - s.criticalEnteredAt < CRITICAL_COOLDOWN_MS) : s.nextState r = .CRITICAL := by
  unfold nextState held
  rw [if_pos h]
  split
  · rfl
  · next hnot =>
    by_contra hne
    exact hnot ⟨hprev, hne⟩

/-! ## Runs -/

@[simp] theorem evaluate_state (s : HealthMonitor) (r : Reading) :
    (s.evaluate r).state = s.nextState r := by
  unfold evaluate
  dsimp only
  split
  · rfl
  · next h => exact (not_not.mp h).symm

/-- `CRITICAL` that is entered gets the time of the evaluation. -/
theorem evaluate_entered (hprev : s.state ≠ .CRITICAL) (h : s.nextState r = .CRITICAL) :
    (s.evaluate r).criticalEnteredAt = r.now := by
  unfold evaluate
  dsimp only
  rw [if_pos (by rw [h]; exact hprev.symm), if_pos h]

/-- `CRITICAL` that is kept keeps its time. -/
theorem evaluate_kept (hprev : s.state = .CRITICAL) (h : s.nextState r = .CRITICAL) :
    (s.evaluate r).criticalEnteredAt = s.criticalEnteredAt := by
  unfold evaluate
  dsimp only
  rw [if_neg (by rw [h, hprev]; exact not_not.mpr rfl)]

end HealthMonitor

@[simp] theorem stateAfter_snoc (past : List Evaluation) (e : Evaluation) :
    stateAfter (past ++ [e]) = e.after := by
  simp [stateAfter]

/-- Since when the state is `CRITICAL` after one evaluation more. -/
theorem CriticalSince.of_snoc {past : List Evaluation} {e : Evaluation} {entered : ℚ}
    (h : CriticalSince (past ++ [e]) entered) : e.after = .CRITICAL ∧
      ((stateAfter past ≠ .CRITICAL ∧ e.reading.now = entered) ∨ CriticalSince past entered) := by
  obtain ⟨before, x, since, hsplit, hbefore, hx, htime, hsince⟩ := h
  rcases List.eq_nil_or_concat since with rfl | ⟨since', y, rfl⟩
  · obtain ⟨rfl, hlast⟩ := List.append_inj' hsplit rfl
    obtain rfl : e = x := by simpa using hlast
    exact ⟨hx, .inl ⟨hbefore, htime⟩⟩
  · rw [List.concat_eq_append] at hsplit hsince
    have hassoc : past ++ [e] = (before ++ x :: since') ++ [y] := by
      rw [hsplit, List.append_assoc, List.cons_append]
    obtain ⟨rfl, hlast⟩ := List.append_inj' hassoc rfl
    obtain rfl : e = y := by simpa using hlast
    exact ⟨hsince e (by simp), .inr ⟨before, x, since', rfl, hbefore, hx, htime,
      fun z hz => hsince z (List.mem_append_left _ hz)⟩⟩

theorem CriticalSince.stateAfter_eq {past : List Evaluation} {entered : ℚ}
    (h : CriticalSince past entered) : stateAfter past = .CRITICAL := by
  rcases List.eq_nil_or_concat past with rfl | ⟨past', e, rfl⟩
  · obtain ⟨before, x, since, hsplit, -⟩ := h
    simp at hsplit
  · rw [List.concat_eq_append] at h ⊢
    rw [stateAfter_snoc]
    exact h.of_snoc.1

/-- The monitor knows its state, and since when it is `CRITICAL`. -/
structure HealthMonitor.Tracks (s : HealthMonitor) (h : List Evaluation) : Prop where
  state : s.state = stateAfter h
  entered : ∀ t, CriticalSince h t → s.criticalEnteredAt = t

/-- **One evaluation is right.** -/
theorem HealthMonitor.Tracks.evaluation_right {s : HealthMonitor} {h : List Evaluation}
    (ht : s.Tracks h) (r : Reading) : EvaluationRight h (s.evaluation r) where
  critical hreaches := (s.evaluate_state r).trans (nextState_of_critical hreaches)
  warned hreaches := by
    show (s.evaluate r).state ≠ _
    rw [evaluate_state]
    exact nextState_of_warning hreaches
  recovered hprev hafter := by
    rw [← ht.state] at hprev
    have hnext := (s.evaluate_state r).symm.trans hafter
    obtain ⟨hlag, hrss⟩ := nextState_recovered hprev hnext
    exact ⟨fun hreaches => nextState_of_warning hreaches hnext, hlag, hrss⟩
  held entered hsince hnow := by
    have hstate := ht.state.trans hsince.stateAfter_eq
    refine (s.evaluate_state r).trans (nextState_held hstate ?_)
    rw [ht.entered entered hsince]
    linarith [show r.now < entered + CRITICAL_COOLDOWN_MS from hnow]

/-- **One evaluation is followed.** -/
theorem HealthMonitor.Tracks.evaluate {s : HealthMonitor} {h : List Evaluation}
    (ht : s.Tracks h) (r : Reading) : (s.evaluate r).Tracks (h ++ [s.evaluation r]) where
  state := by
    rw [stateAfter_snoc]
    rfl
  entered t hsince := by
    obtain ⟨hafter, hentered | hkept⟩ := hsince.of_snoc
    · have hnext := (s.evaluate_state r).symm.trans hafter
      exact (evaluate_entered (ht.state ▸ hentered.1) hnext).trans hentered.2
    · have hnext := (s.evaluate_state r).symm.trans hafter
      rw [evaluate_kept (ht.state.trans hkept.stateAfter_eq) hnext]
      exact ht.entered t hkept

/-- Measuring between evaluations does not matter to what the monitor has decided. -/
theorem HealthMonitor.Tracks.of_eq {s s' : HealthMonitor} {h : List Evaluation} (ht : s.Tracks h)
    (hstate : s'.state = s.state) (hentered : s'.criticalEnteredAt = s.criticalEnteredAt) :
    s'.Tracks h where
  state := hstate.trans ht.state
  entered t hsince := hentered.trans (ht.entered t hsince)

theorem HealthMonitor.recordRpcLatency_kept (s : HealthMonitor) (ms : JsNumber) :
    (s.recordRpcLatency ms).state = s.state ∧
      (s.recordRpcLatency ms).criticalEnteredAt = s.criticalEnteredAt := by
  unfold recordRpcLatency
  split
  · split
    · exact ⟨rfl, rfl⟩
    · exact ⟨rfl, rfl⟩
  · exact ⟨rfl, rfl⟩

/-- **Every evaluation is right**, whatever is measured, recorded and read, at any times. -/
theorem evaluations_right (lastLagCheck lastStateChange : ℚ) (actions : List HealthAction) :
    (healthMonitor lastLagCheck lastStateChange).Always
      (fun s h => s.state = stateAfter h ∧ Each EvaluationRight h)
      (healthMonitor lastLagCheck lastStateChange).init [] actions := by
  refine Machine.always_of_invariant (I := fun s h => s.Tracks h ∧ Each EvaluationRight h)
    (fun hI => ⟨hI.1.state, hI.2⟩) ?_ ⟨⟨rfl, ?_⟩, .nil⟩ actions
  · rintro s h a s' es ⟨ht, heach⟩ hs
    cases a with
    | measureLag now =>
      obtain ⟨rfl, rfl⟩ := Machine.some_pair hs
      rw [List.append_nil]
      exact ⟨ht.of_eq rfl rfl, heach⟩
    | recordError now =>
      obtain ⟨rfl, rfl⟩ := Machine.some_pair hs
      rw [List.append_nil]
      exact ⟨ht.of_eq rfl rfl, heach⟩
    | recordRpcLatency ms =>
      obtain ⟨rfl, rfl⟩ := Machine.some_pair hs
      obtain ⟨hstate, hentered⟩ := s.recordRpcLatency_kept ms
      rw [List.append_nil]
      exact ⟨ht.of_eq hstate hentered, heach⟩
    | evaluate r =>
      obtain ⟨rfl, rfl⟩ := Machine.some_pair hs
      exact ⟨ht.evaluate r, heach.snoc (ht.evaluation_right r)⟩
  · rintro t ⟨before, e, since, hsplit, -⟩
    simp at hsplit

end FlashEdge
