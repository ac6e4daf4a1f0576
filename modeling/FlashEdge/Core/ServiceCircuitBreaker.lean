import Mathlib.Algebra.Order.Field.Rat
import FlashEdge.Core.ExecutionCircuitBreaker

/-!
# The service circuit breaker (`core/circuit-breaker-service.ts`)

The gate in front of an external service: `failureThreshold` failures in a row
open the circuit for a cooldown, after which one request tests the recovery.
Each further opening multiplies the cooldown.

`serviceBreaker` is the machine of concurrent requests. A request is numbered
when it is admitted, and reports one result later, at any time and in any order
(`PriceService.fetchFromFlashApi` is such a user); the code knows neither the
numbers nor which request is the test.
-/

namespace FlashEdge

namespace ServiceCircuitBreaker

structure CircuitBreakerConfig where
  failureThreshold : ℚ := 3
  cooldownMs : ℚ := 30000
  maxCooldownMs : ℚ := 120000
  cooldownMultiplier : ℚ := 2
deriving DecidableEq, Repr

end ServiceCircuitBreaker

structure ServiceCircuitBreaker where
  config : ServiceCircuitBreaker.CircuitBreakerConfig
  state : CircuitState := .CLOSED
  consecutiveFailures : ℕ := 0
  totalFailures : ℕ := 0
  totalSuccesses : ℕ := 0
  lastFailureAt : ℚ := 0
  opensUntil : ℚ := 0
  currentCooldownMs : ℚ := config.cooldownMs
  tripCount : ℕ := 0
deriving DecidableEq, Repr

namespace ServiceCircuitBreaker

/-- Whether a request is allowed; the first one after the cooldown is the test. -/
def allowRequest (cb : ServiceCircuitBreaker) (now : ℚ) : ServiceCircuitBreaker × Bool :=
  match cb.state with
  | .CLOSED => (cb, true)
  | .OPEN => if cb.opensUntil ≤ now then ({ cb with state := .HALF_OPEN }, true) else (cb, false)
  | .HALF_OPEN => (cb, false)

/-- `open()`: each opening since the last recovery multiplies the cooldown. -/
def openCircuit (cb : ServiceCircuitBreaker) (now : ℚ) : ServiceCircuitBreaker :=
  let tripCount := cb.tripCount + 1
  let currentCooldownMs :=
    min (cb.config.cooldownMs * cb.config.cooldownMultiplier ^ (tripCount - 1))
      cb.config.maxCooldownMs
  { cb with tripCount, currentCooldownMs, opensUntil := now + currentCooldownMs, state := .OPEN }

/-- `close()`. -/
def close (cb : ServiceCircuitBreaker) : ServiceCircuitBreaker :=
  { cb with
    state := .CLOSED
    consecutiveFailures := 0
    currentCooldownMs := cb.config.cooldownMs
    tripCount := 0 }

def recordSuccess (cb : ServiceCircuitBreaker) : ServiceCircuitBreaker :=
  let cb := { cb with totalSuccesses := cb.totalSuccesses + 1 }
  if cb.state = .HALF_OPEN then cb.close else { cb with consecutiveFailures := 0 }

def recordFailure (cb : ServiceCircuitBreaker) (now : ℚ) : ServiceCircuitBreaker :=
  let cb := { cb with
    consecutiveFailures := cb.consecutiveFailures + 1
    totalFailures := cb.totalFailures + 1
    lastFailureAt := now }
  if cb.state = .HALF_OPEN then cb.openCircuit now
  -- an open circuit is opened again
  else if cb.config.failureThreshold ≤ cb.consecutiveFailures then cb.openCircuit now
  else cb

/-- Manual recovery. -/
def reset (cb : ServiceCircuitBreaker) : ServiceCircuitBreaker :=
  { cb.close with tripCount := 0, currentCooldownMs := cb.config.cooldownMs }

/-! ## What each operation does to the circuit -/

theorem allowRequest_cases (cb : ServiceCircuitBreaker) (now : ℚ) :
    (cb.state = .CLOSED ∧ cb.allowRequest now = (cb, true)) ∨
    (cb.state = .OPEN ∧ cb.allowRequest now = ({ cb with state := .HALF_OPEN }, true)) ∨
    (cb.state ≠ .CLOSED ∧ cb.allowRequest now = (cb, false)) := by
  unfold allowRequest
  cases hstate : cb.state with
  | CLOSED => exact .inl ⟨rfl, rfl⟩
  | OPEN =>
    dsimp only
    split
    · exact .inr (.inl ⟨rfl, rfl⟩)
    · exact .inr (.inr ⟨fun h => (by cases h), rfl⟩)
  | HALF_OPEN => exact .inr (.inr ⟨fun h => (by cases h), rfl⟩)

/-- A success closes a half-open circuit and leaves any other as it is. -/
theorem recordSuccess_cases (cb : ServiceCircuitBreaker) :
    (cb.state = .HALF_OPEN ∧ cb.recordSuccess.state = .CLOSED ∧ cb.recordSuccess.tripCount = 0) ∨
    (cb.state ≠ .HALF_OPEN ∧ cb.recordSuccess.state = cb.state ∧
      cb.recordSuccess.tripCount = cb.tripCount) := by
  unfold recordSuccess
  by_cases hstate : cb.state = .HALF_OPEN
  · exact .inl ⟨hstate, by simp [hstate, close]⟩
  · exact .inr ⟨hstate, by simp [hstate]⟩

/-- A failure that opens the circuit: of a half-open one, or at the threshold. -/
def opensAtFailure (cb : ServiceCircuitBreaker) : Prop :=
  cb.state = .HALF_OPEN ∨ cb.config.failureThreshold ≤ (cb.consecutiveFailures + 1 : ℕ)

instance (cb : ServiceCircuitBreaker) : Decidable cb.opensAtFailure := by
  unfold opensAtFailure
  infer_instance

/-- A failure opens the circuit, and counts and multiplies the cooldown then, or
leaves it as it is. -/
theorem recordFailure_cases (cb : ServiceCircuitBreaker) (now : ℚ) :
    (cb.opensAtFailure ∧ (cb.recordFailure now).state = .OPEN ∧
      (cb.recordFailure now).tripCount = cb.tripCount + 1 ∧
      (cb.recordFailure now).currentCooldownMs =
        min (cb.config.cooldownMs * cb.config.cooldownMultiplier ^ cb.tripCount)
          cb.config.maxCooldownMs) ∨
    (¬ cb.opensAtFailure ∧ (cb.recordFailure now).state = cb.state ∧
      (cb.recordFailure now).tripCount = cb.tripCount) := by
  unfold recordFailure opensAtFailure
  dsimp only
  split
  · next hhalf => exact .inl ⟨.inl hhalf, rfl, rfl, rfl⟩
  · next hhalf =>
    split
    · next hmany => exact .inl ⟨.inr hmany, rfl, rfl, rfl⟩
    · next hmany => exact .inr ⟨fun h => h.elim hhalf hmany, rfl, rfl⟩

@[simp] theorem recordSuccess_config (cb : ServiceCircuitBreaker) :
    cb.recordSuccess.config = cb.config := by
  unfold recordSuccess
  dsimp only
  split <;> rfl

@[simp] theorem recordFailure_config (cb : ServiceCircuitBreaker) (now : ℚ) :
    (cb.recordFailure now).config = cb.config := by
  unfold recordFailure
  dsimp only
  split
  · rfl
  · split <;> rfl

end ServiceCircuitBreaker

/-! ## The machine -/

/-- What a user of the breaker does: ask whether a request is allowed, report the
result of a request that was, or reset. -/
inductive ServiceCall where
  | allowRequest (now : ℚ)
  | recordSuccess (request : ℕ)
  | recordFailure (request : ℕ) (now : ℚ)
  | reset
deriving DecidableEq, Repr

/-- What happens at a call: a request is admitted (as the test of an open circuit,
or not) or refused; a result comes in; the circuit opens, with the request whose
failure opened it and the new cooldown, or closes, with the request whose success
closed it. -/
inductive ServiceEvent where
  | admitted (request : ℕ)
  | probeAdmitted (request : ℕ)
  | refused
  | succeeded (request : ℕ)
  | failed (request : ℕ)
  | opened (request : ℕ) (cooldownMs : ℚ)
  | closed (request : Option ℕ)
deriving DecidableEq, Repr

/-- The breaker, the number of requests admitted so far, those without a result,
and the test of the half-open circuit. -/
structure ServiceState where
  cb : ServiceCircuitBreaker
  requests : ℕ := 0
  pending : List ℕ := []
  probe : Option ℕ := none
deriving DecidableEq, Repr

namespace ServiceState

/-- A request is admitted. -/
def admitted (s : ServiceState) (cb : ServiceCircuitBreaker) (probe : Option ℕ) : ServiceState :=
  { cb, requests := s.requests + 1, pending := s.requests :: s.pending, probe }

/-- One call. A request reports once. -/
def step (s : ServiceState) : ServiceCall → Option (ServiceState × List ServiceEvent)
  | .allowRequest now =>
    match s.cb.allowRequest now with
    | (cb, true) =>
      if s.cb.state = .OPEN then some (s.admitted cb (some s.requests), [.probeAdmitted s.requests])
      else some (s.admitted cb s.probe, [.admitted s.requests])
    | (cb, false) => some ({ s with cb }, [.refused])
  | .recordSuccess request =>
    if request ∈ s.pending then
      some ({ s with cb := s.cb.recordSuccess, pending := s.pending.erase request },
        .succeeded request ::
          if s.cb.state = .HALF_OPEN then [.closed (some request)] else [])
    else none
  | .recordFailure request now =>
    if request ∈ s.pending then
      let cb := s.cb.recordFailure now
      some ({ s with cb, pending := s.pending.erase request },
        .failed request ::
          if cb.tripCount = s.cb.tripCount then [] else [.opened request cb.currentCooldownMs])
    else none
  | .reset => some ({ s with cb := s.cb.reset }, [.closed none])

end ServiceState

/-- The breaker of a service and its concurrent requests. -/
def serviceBreaker (config : ServiceCircuitBreaker.CircuitBreakerConfig) :
    Machine ServiceState ServiceCall ServiceEvent where
  init := { cb := { config } }
  step := ServiceState.step

end FlashEdge
