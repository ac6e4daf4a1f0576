import Mathlib.Data.Rat.Floor
import FlashEdge.Theory.Machine

/-!
# The execution circuit breaker (`core/execution-circuit-breaker.ts`)

The gate in front of the trade pipeline: `CLOSED` lets every execution through,
`OPEN` refuses until a cooldown has passed, `HALF_OPEN` probes. Numbers are
exact; the failure rate only ever compares a ratio of two small integers with
`2 / 5`, and the cooldown is multiplied by `3 / 2` and capped.

`breaker` is the machine whose actions are the calls of `checkExecution`,
`recordSuccess` and `recordFailure`, each with the clock reading it takes. An
execution is numbered when it is admitted, and a record call says which
execution's result it reports; the code itself does not keep these numbers.
-/

namespace FlashEdge

/-! ## Configuration -/

def WINDOW_SIZE : ℕ := 20
def FAILURE_RATE_THRESHOLD : ℚ := 2 / 5
def CONSECUTIVE_FAILURE_THRESHOLD : ℕ := 5
def COOLDOWN_MS : ℚ := 30000
def MAX_COOLDOWN_MS : ℚ := 120000
def COOLDOWN_MULTIPLIER : ℚ := 3 / 2

inductive CircuitState where
  | CLOSED
  | OPEN
  | HALF_OPEN
deriving DecidableEq, Repr

structure ExecutionResult where
  success : Bool
  timestamp : ℚ
  errorCode : Option String := none
  latencyMs : Option ℚ := none
deriving DecidableEq, Repr

/-- What `checkExecution` throws: the message, `action`, `errorCode` and the `params`. -/
structure ExecutionError where
  message : String
  action : String := "healthCheck"
  errorCode : String := "HEALTH_CHECK_FAILED"
  circuitState : CircuitState
  failureRate : Option ℚ := none
  consecutiveFailures : Option ℕ := none
  cooldownRemainingMs : Option ℚ := none
deriving DecidableEq, Repr

structure ExecutionCircuitBreaker where
  state : CircuitState := .CLOSED
  window : List ExecutionResult := []
  consecutiveFailures : ℕ := 0
  lastFailureAt : ℚ := 0
  lastSuccessAt : ℚ := 0
  openedAt : ℚ := 0
  tripCount : ℕ := 0
  currentCooldownMs : ℚ := COOLDOWN_MS
  halfOpenProbeInFlight : Bool := false
deriving DecidableEq, Repr

namespace ExecutionCircuitBreaker

/-- Failures over recorded results; `0` for an empty window. -/
def getFailureRate (cb : ExecutionCircuitBreaker) : ℚ :=
  if cb.window.length = 0 then 0
  else (cb.window.filter fun r => !r.success).length / cb.window.length

/-- Whether a check at `now` finds the cooldown over. -/
def cooledDown (cb : ExecutionCircuitBreaker) (now : ℚ) : Bool :=
  decide (cb.currentCooldownMs ≤ now - cb.openedAt)

/-- `x.toFixed(0)` of a number that is not negative. -/
def toFixed0 (x : ℚ) : String := toString ⌊x + 1 / 2⌋

/-- The text of a refusal during the cooldown. -/
def openMessage (cb : ExecutionCircuitBreaker) (remainingMs : ℚ) : String :=
  "Circuit breaker OPEN — execution halted. System detected degraded conditions.\n" ++
  "  Failure rate: " ++ toFixed0 (cb.getFailureRate * 100) ++ "% (threshold: " ++
    toFixed0 (FAILURE_RATE_THRESHOLD * 100) ++ "%)\n" ++
  "  Consecutive failures: " ++ toString cb.consecutiveFailures ++ "\n" ++
  "  Retry in: " ++ toString ⌈remainingMs / 1000⌉ ++ "s"

/-- The gate: the new state if the execution may proceed, the error otherwise.
The transition out of `OPEN` admits its caller and leaves
`halfOpenProbeInFlight` alone; only the `HALF_OPEN` branch sets it. -/
def checkExecution (cb : ExecutionCircuitBreaker) (now : ℚ) :
    Except ExecutionError ExecutionCircuitBreaker :=
  match cb.state with
  | .CLOSED => .ok cb
  | .OPEN =>
    if cb.cooledDown now then
      .ok { cb with state := .HALF_OPEN }
    else
      let remainingMs := cb.currentCooldownMs - (now - cb.openedAt)
      .error
        { message := cb.openMessage remainingMs
          circuitState := .OPEN
          failureRate := some cb.getFailureRate
          consecutiveFailures := some cb.consecutiveFailures
          cooldownRemainingMs := some remainingMs }
  | .HALF_OPEN =>
    if cb.halfOpenProbeInFlight then
      .error
        { message := "Circuit breaker HALF_OPEN — probe in progress. Wait for result."
          circuitState := .HALF_OPEN }
    else
      .ok { cb with halfOpenProbeInFlight := true }

/-- Append a result, keeping the last `WINDOW_SIZE`. -/
def pushResult (cb : ExecutionCircuitBreaker) (r : ExecutionResult) : ExecutionCircuitBreaker :=
  let pushed := cb.window ++ [r]
  { cb with window := if WINDOW_SIZE < pushed.length then pushed.tail else pushed }

/-- Open the circuit; from the second trip on the cooldown grows, capped. -/
def trip (cb : ExecutionCircuitBreaker) (now : ℚ) : ExecutionCircuitBreaker :=
  { cb with
    state := .OPEN
    openedAt := now
    tripCount := cb.tripCount + 1
    currentCooldownMs :=
      if 1 < cb.tripCount + 1 then
        min (cb.currentCooldownMs * COOLDOWN_MULTIPLIER) MAX_COOLDOWN_MS
      else cb.currentCooldownMs }

def recordSuccess (cb : ExecutionCircuitBreaker) (now : ℚ) (latencyMs : Option ℚ) :
    ExecutionCircuitBreaker :=
  let cb := { cb with consecutiveFailures := 0, lastSuccessAt := now }
  let cb := cb.pushResult { success := true, timestamp := now, latencyMs }
  if cb.state = .HALF_OPEN then
    { cb with state := .CLOSED, halfOpenProbeInFlight := false, currentCooldownMs := COOLDOWN_MS }
  else cb

/-- Whether a failure recorded while `CLOSED` opens the circuit. -/
def shouldTrip (cb : ExecutionCircuitBreaker) : Bool :=
  decide (CONSECUTIVE_FAILURE_THRESHOLD ≤ cb.consecutiveFailures) ||
    (decide (5 ≤ cb.window.length) && decide (FAILURE_RATE_THRESHOLD < cb.getFailureRate))

def recordFailure (cb : ExecutionCircuitBreaker) (now : ℚ) (errorCode : Option String)
    (latencyMs : Option ℚ) : ExecutionCircuitBreaker :=
  let cb := { cb with consecutiveFailures := cb.consecutiveFailures + 1, lastFailureAt := now }
  let cb := cb.pushResult { success := false, timestamp := now, errorCode, latencyMs }
  match cb.state with
  | .HALF_OPEN => { cb with halfOpenProbeInFlight := false }.trip now
  | .CLOSED => if cb.shouldTrip then cb.trip now else cb
  | .OPEN => cb

/-! ## What each operation does to the circuit

Later proofs use these instead of the definitions. -/

@[simp] theorem pushResult_state (cb : ExecutionCircuitBreaker) (r : ExecutionResult) :
    (cb.pushResult r).state = cb.state := rfl

@[simp] theorem pushResult_halfOpenProbeInFlight (cb : ExecutionCircuitBreaker)
    (r : ExecutionResult) :
    (cb.pushResult r).halfOpenProbeInFlight = cb.halfOpenProbeInFlight := rfl

@[simp] theorem pushResult_tripCount (cb : ExecutionCircuitBreaker) (r : ExecutionResult) :
    (cb.pushResult r).tripCount = cb.tripCount := rfl

/-- A check is admitted in exactly three ways. -/
theorem checkExecution_ok {cb cb' : ExecutionCircuitBreaker} {now : ℚ}
    (h : cb.checkExecution now = .ok cb') :
    (cb.state = .CLOSED ∧ cb' = cb) ∨
    (cb.state = .OPEN ∧ cb.cooledDown now = true ∧ cb' = { cb with state := .HALF_OPEN }) ∨
    (cb.state = .HALF_OPEN ∧ cb.halfOpenProbeInFlight = false ∧
      cb' = { cb with halfOpenProbeInFlight := true }) := by
  rw [checkExecution] at h
  split at h
  · next hst => exact .inl ⟨hst, (Except.ok.inj h).symm⟩
  · next hst =>
    split at h
    · next hcool => exact .inr (.inl ⟨hst, hcool, (Except.ok.inj h).symm⟩)
    · cases h
  · next hst =>
    split at h
    · cases h
    · next hfree =>
      exact .inr (.inr ⟨hst, Bool.eq_false_iff.mpr hfree, (Except.ok.inj h).symm⟩)

/-- A check is refused while cooling down or while the flag is set. -/
theorem checkExecution_error {cb : ExecutionCircuitBreaker} {now : ℚ} {e : ExecutionError}
    (h : cb.checkExecution now = .error e) :
    (cb.state = .OPEN ∧ cb.cooledDown now = false) ∨
    (cb.state = .HALF_OPEN ∧ cb.halfOpenProbeInFlight = true) := by
  rw [checkExecution] at h
  split at h
  · cases h
  · next hst =>
    split at h
    · cases h
    · next hcool => exact .inl ⟨hst, Bool.eq_false_iff.mpr hcool⟩
  · next hst =>
    split at h
    · next hset => exact .inr ⟨hst, hset⟩
    · cases h

/-- A success closes a half-open circuit and changes the state of no other. -/
theorem recordSuccess_circuit (cb : ExecutionCircuitBreaker) (now : ℚ) (l : Option ℚ) :
    (cb.state = .HALF_OPEN ∧ (cb.recordSuccess now l).state = .CLOSED ∧
      (cb.recordSuccess now l).halfOpenProbeInFlight = false) ∨
    (cb.state ≠ .HALF_OPEN ∧ (cb.recordSuccess now l).state = cb.state ∧
      (cb.recordSuccess now l).halfOpenProbeInFlight = cb.halfOpenProbeInFlight) := by
  rw [recordSuccess]
  by_cases hst : cb.state = .HALF_OPEN
  · exact .inl (by simp [hst])
  · exact .inr (by simp [hst])

/-- A failure either opens the circuit, counting one more trip and clearing a
half-open flag, or leaves state, flag and trip count as they are; in the second
case the circuit was not half-open. -/
theorem recordFailure_circuit (cb : ExecutionCircuitBreaker) (now : ℚ) (c : Option String)
    (l : Option ℚ) :
    (cb.state ≠ .OPEN ∧ (cb.recordFailure now c l).state = .OPEN ∧
      (cb.recordFailure now c l).tripCount = cb.tripCount + 1 ∧
      (cb.recordFailure now c l).halfOpenProbeInFlight =
        if cb.state = .HALF_OPEN then false else cb.halfOpenProbeInFlight) ∨
    (cb.state ≠ .HALF_OPEN ∧ (cb.recordFailure now c l).state = cb.state ∧
      (cb.recordFailure now c l).tripCount = cb.tripCount ∧
      (cb.recordFailure now c l).halfOpenProbeInFlight = cb.halfOpenProbeInFlight) := by
  simp only [recordFailure, pushResult_state]
  cases hst : cb.state with
  | HALF_OPEN => exact .inl (by simp [trip])
  | OPEN => exact .inr (by simp)
  | CLOSED =>
    dsimp only
    split
    · exact .inl (by simp [trip])
    · exact .inr (by simp)

end ExecutionCircuitBreaker

/-! ## The machine -/

/-- The calls of the breaker's users. `exec` is the execution whose result a
record call reports. -/
inductive BreakerCall where
  | checkExecution (now : ℚ)
  | recordSuccess (exec : ℕ) (now : ℚ) (latencyMs : Option ℚ)
  | recordFailure (exec : ℕ) (now : ℚ) (errorCode : Option String) (latencyMs : Option ℚ)
deriving DecidableEq, Repr

/-- What happens at a call: an execution is admitted (with its number) or
refused, the result of one is recorded, the circuit trips to `OPEN`. -/
inductive BreakerEvent where
  | admitted (exec : ℕ)
  | refused (e : ExecutionError)
  | recorded (exec : ℕ)
  | tripped
deriving DecidableEq, Repr

/-- The breaker with the number of executions admitted so far. -/
structure BreakerState where
  cb : ExecutionCircuitBreaker := {}
  executions : ℕ := 0
deriving DecidableEq, Repr

/-- One call. -/
def BreakerState.call (s : BreakerState) : BreakerCall → BreakerState × List BreakerEvent
  | .checkExecution now =>
    match s.cb.checkExecution now with
    | .ok cb => (⟨cb, s.executions + 1⟩, [.admitted s.executions])
    | .error e => (s, [.refused e])
  | .recordSuccess exec now latencyMs =>
    ({ s with cb := s.cb.recordSuccess now latencyMs }, [.recorded exec])
  | .recordFailure exec now errorCode latencyMs =>
    let cb := s.cb.recordFailure now errorCode latencyMs
    ({ s with cb },
      .recorded exec :: if cb.tripCount = s.cb.tripCount then [] else [.tripped])

/-- Every call is possible at any time, so an interleaving of callers is a run. -/
def breaker : Machine BreakerState BreakerCall BreakerEvent where
  init := {}
  step s a := some (s.call a)

end FlashEdge
