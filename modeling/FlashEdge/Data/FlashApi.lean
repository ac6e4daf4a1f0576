import FlashEdge.Core.ServiceCircuitBreaker
import FlashEdge.Js
import FlashEdge.Theory.Json
import FlashEdge.Theory.OrderedMap

/-!
# Requests to the trading API (`flashApiFetch` of `data/flash-api.ts`)

Every request asks the breaker of the service first, and tries once more after a transient
network error. Its exits are spread over the body: most of them report to the breaker.

`flashApi` is the machine of concurrent requests. A request is numbered when it is
admitted; what an attempt ends in, at which time, is the action.
-/

namespace FlashEdge

namespace FlashApi

def MAX_RESPONSE_BYTES : ℚ := 2097152
def TRANSIENT_RETRY_COUNT : ℕ := 1

def breakerConfig : ServiceCircuitBreaker.CircuitBreakerConfig where
  failureThreshold := 5
  cooldownMs := 15000
  maxCooldownMs := 60000
  cooldownMultiplier := 2

/-- What was thrown: an `Error` with its message, or something else. -/
abbrev Thrown := Option String

/-- What an attempt ends in: `fetch` throws, or answers with a status, the
`content-length` header as `parseInt` reads it, if there is one, and the text, unless
reading it throws. -/
inductive Attempt where
  | threw (error : Thrown)
  | answered (status : ℕ) (contentLength : Option JsNumber) (text : Except Thrown (List CodeUnit))

def isTransientNetworkError : Thrown → Bool
  | none => false
  | some message =>
    let msg := toLowerCase message
    includes msg "fetch failed" || includes msg "network" || includes msg "econnreset" ||
      includes msg "econnrefused" || includes msg "etimedout" || includes msg "abort" ||
      includes msg "socket hang up" || includes msg "dns"

/-- What follows: another attempt, or the call returns, with a value or `null`. -/
inductive Outcome where
  | retry
  | returned (result : Option Json)

/-- The `catch`: retry, or give up. -/
def caught (cb : ServiceCircuitBreaker) (attempt : ℕ) (error : Thrown) (now : ℚ) :
    ServiceCircuitBreaker × Outcome :=
  if attempt < TRANSIENT_RETRY_COUNT ∧ isTransientNetworkError error then (cb, .retry)
  else (cb.recordFailure now, .returned none)

/-- `res.ok`. -/
def isOk (status : ℕ) : Prop := 200 ≤ status ∧ status ≤ 299

instance (status : ℕ) : Decidable (isOk status) := by
  unfold isOk
  infer_instance

/-- The header says that the response is too large. -/
def announcedTooLarge (contentLength : Option JsNumber) : Bool :=
  match contentLength with
  | some length => length.gtRat MAX_RESPONSE_BYTES
  | none => false

/-- The body of the loop. -/
def flashApiFetch (cb : ServiceCircuitBreaker) (attempt : ℕ) (now : ℚ) :
    Attempt → ServiceCircuitBreaker × Outcome
  | .threw error => caught cb attempt error now
  | .answered status contentLength text =>
    if ¬ isOk status then
      -- only the server's errors count, not the client's
      let cb := if 500 ≤ status then cb.recordFailure now else cb
      (cb, .returned none)
    else if announcedTooLarge contentLength then (cb, .returned none)
    else
      match text with
      | .error error => caught cb attempt error now
      | .ok text =>
        if MAX_RESPONSE_BYTES < text.length then (cb, .returned none)
        else
          match Json.parse text with
          | none => (cb.recordFailure now, .returned none)
          | some result => (cb.recordSuccess, .returned (some result))

end FlashApi

open FlashApi

/-- The breaker, the number of requests that were admitted, and the attempt that each
request in flight is at. -/
structure FlashApi where
  cb : ServiceCircuitBreaker := { config := breakerConfig }
  requests : ℕ := 0
  inFlight : OrderedMap ℕ ℕ := .empty

namespace FlashApi

inductive ApiCall where
  | request (now : ℚ)
  | attemptEnds (request : ℕ) (now : ℚ) (attempt : Attempt)

/-- A request is admitted or refused; a result is recorded for it; it returns. -/
inductive ApiEvent where
  | admitted (request : ℕ)
  | refused
  | recorded (request : ℕ)
  | returned (request : ℕ)
deriving DecidableEq, Repr

/-- How many results the breaker has been told. -/
def results (cb : ServiceCircuitBreaker) : ℕ := cb.totalSuccesses + cb.totalFailures

def step (s : FlashApi) : ApiCall → Option (FlashApi × List ApiEvent)
  | .request now =>
    match s.cb.allowRequest now with
    | (cb, true) =>
      some ({ cb, requests := s.requests + 1, inFlight := s.inFlight.set s.requests 0 },
        [.admitted s.requests])
    | (cb, false) => some ({ s with cb }, [.refused])
  | .attemptEnds request now attempt =>
    match s.inFlight.get? request with
    | none => none
    | some n =>
      let (cb, outcome) := flashApiFetch s.cb n now attempt
      let recorded := List.replicate (results cb - results s.cb) (ApiEvent.recorded request)
      match outcome with
      | .retry => some ({ s with cb, inFlight := s.inFlight.set request (n + 1) }, recorded)
      | .returned _ =>
        some ({ s with cb, inFlight := s.inFlight.delete request },
          recorded ++ [.returned request])

end FlashApi

/-- Requests to the API, in any interleaving. -/
def flashApi : Machine FlashApi ApiCall ApiEvent where
  init := {}
  step := FlashApi.step

end FlashEdge
