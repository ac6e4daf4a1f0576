import Mathlib.Data.Rat.Floor
import FlashEdge.Js
import FlashEdge.Theory.Machine

/-!
# The session circuit breaker (`security/circuit-breaker.ts`)

Trading halts on excessive losses: the breaker adds up the realized losses of a
session and of a calendar day and counts the trades, and trips when one of the
limits is reached (`0` switches a limit off). It stays tripped until `reset`.

The flag `tripped` and the reason are one field here, and a reason keeps the
numbers its text shows. `sessionBreaker` is the machine of the calls, over a
clock that does not go back to an earlier day.
-/

namespace FlashEdge

namespace CircuitBreaker

structure CircuitBreakerConfig where
  maxSessionLossUsd : ℚ := 0
  maxDailyLossUsd : ℚ := 0
  maxTradesPerSession : ℚ := 0
deriving DecidableEq, Repr

inductive TripReason where
  | sessionLossLimit (sessionLossUsd maxSessionLossUsd : ℚ)
  | dailyLossLimit (dailyLossUsd maxDailyLossUsd : ℚ)
  | sessionTradeLimit (sessionTradeCount : ℕ) (maxTradesPerSession : ℚ)
deriving DecidableEq, Repr

inductive CircuitBreakerCheck where
  | allowed
  | halted (reason : TripReason)
  | alreadyTripped (reason : TripReason)
deriving DecidableEq, Repr

end CircuitBreaker

open CircuitBreaker in
structure CircuitBreaker where
  config : CircuitBreakerConfig
  currentDay : ℤ
  tripped : Option TripReason := none
  sessionLossUsd : ℚ := 0
  dailyLossUsd : ℚ := 0
  sessionTradeCount : ℕ := 0
deriving DecidableEq, Repr

namespace CircuitBreaker

/-- The calendar day (UTC) of a reading of the clock in milliseconds. -/
def todayStr (now : ℚ) : ℤ := ⌊now / 86400000⌋

/-- Reset the daily counter on a day change. -/
def rollover (b : CircuitBreaker) (today : ℤ) : CircuitBreaker :=
  if today ≠ b.currentDay then { b with dailyLossUsd := 0, currentDay := today } else b

def trip (b : CircuitBreaker) (reason : TripReason) : CircuitBreaker :=
  { b with tripped := some reason }

/-- The first limit that is reached. -/
def limitReached (b : CircuitBreaker) : Option TripReason :=
  let config := b.config
  if 0 < config.maxSessionLossUsd ∧ config.maxSessionLossUsd ≤ b.sessionLossUsd then
    some (.sessionLossLimit b.sessionLossUsd config.maxSessionLossUsd)
  else if 0 < config.maxDailyLossUsd ∧ config.maxDailyLossUsd ≤ b.dailyLossUsd then
    some (.dailyLossLimit b.dailyLossUsd config.maxDailyLossUsd)
  else if 0 < config.maxTradesPerSession ∧ config.maxTradesPerSession ≤ b.sessionTradeCount then
    some (.sessionTradeLimit b.sessionTradeCount config.maxTradesPerSession)
  else none

/-- Whether trading is allowed, and the breaker afterwards. -/
def check (b : CircuitBreaker) (now : ℚ) : CircuitBreaker × CircuitBreakerCheck :=
  match b.tripped with
  -- the day is not looked at while tripped
  | some reason => (b, .alreadyTripped reason)
  | none =>
    let b := b.rollover (todayStr now)
    match b.limitReached with
    | some reason => (b.trip reason, .halted reason)
    | none => (b, .allowed)

/-- The loss of a trade: of a `pnl` that is finite and negative. -/
def lossOf : JsNumber → ℚ
  | .finite pnl => if pnl < 0 then -pnl else 0
  | _ => 0

/-- Count a completed trade and its loss. -/
def addLoss (b : CircuitBreaker) (loss : ℚ) : CircuitBreaker :=
  { b with
    sessionTradeCount := b.sessionTradeCount + 1
    sessionLossUsd := b.sessionLossUsd + loss
    dailyLossUsd := b.dailyLossUsd + loss }

/-- Record a completed trade, and check at once. -/
def recordTrade (b : CircuitBreaker) (pnl : JsNumber) (now : ℚ) : CircuitBreaker :=
  -- the loss is added before the check looks at the day
  ((b.addLoss (lossOf pnl)).check now).1

/-- Record a trade that opened: no loss yet, only the count. -/
def recordOpen (b : CircuitBreaker) : CircuitBreaker :=
  let b := { b with sessionTradeCount := b.sessionTradeCount + 1 }
  if 0 < b.config.maxTradesPerSession ∧ b.config.maxTradesPerSession ≤ b.sessionTradeCount then
    b.trip (.sessionTradeLimit b.sessionTradeCount b.config.maxTradesPerSession)
  else b

/-- Manual reset. The day is left as it is. -/
def reset (b : CircuitBreaker) : CircuitBreaker :=
  { b with tripped := none, sessionLossUsd := 0, dailyLossUsd := 0, sessionTradeCount := 0 }

/-! ## What a check does -/

theorem rollover_cases (b : CircuitBreaker) (today : ℤ) :
    (today = b.currentDay ∧ b.rollover today = b) ∨
      (today ≠ b.currentDay ∧
        b.rollover today = { b with dailyLossUsd := 0, currentDay := today }) := by
  unfold rollover
  by_cases hday : today = b.currentDay
  · exact .inl ⟨hday, if_neg (not_not.mpr hday)⟩
  · exact .inr ⟨hday, if_pos hday⟩

/-- Without a limit reached the losses are below the limits. -/
theorem below_of_limitReached {b : CircuitBreaker} (h : b.limitReached = none) :
    (0 < b.config.maxSessionLossUsd → b.sessionLossUsd < b.config.maxSessionLossUsd) ∧
      (0 < b.config.maxDailyLossUsd → b.dailyLossUsd < b.config.maxDailyLossUsd) := by
  unfold limitReached at h
  dsimp only at h
  split at h
  · cases h
  · next hsession =>
    split at h
    · cases h
    · next hdaily =>
      exact ⟨fun hon => not_le.mp fun hle => hsession ⟨hon, hle⟩,
        fun hon => not_le.mp fun hle => hdaily ⟨hon, hle⟩⟩

/-- A check of a breaker that is tripped changes nothing; any other brings the
day up to date, and then either allows trading or trips. -/
theorem check_cases (b : CircuitBreaker) (now : ℚ) :
    (∃ reason, b.tripped = some reason ∧ b.check now = (b, .alreadyTripped reason)) ∨
    (∃ reason, b.tripped = none ∧
      b.check now = ((b.rollover (todayStr now)).trip reason, .halted reason)) ∨
    (b.tripped = none ∧ (b.rollover (todayStr now)).limitReached = none ∧
      b.check now = (b.rollover (todayStr now), .allowed)) := by
  unfold check
  cases htrip : b.tripped with
  | some reason => exact .inl ⟨reason, rfl, rfl⟩
  | none =>
    dsimp only
    cases hlimit : (b.rollover (todayStr now)).limitReached with
    | some reason => exact .inr (.inl ⟨reason, rfl, rfl⟩)
    | none => exact .inr (.inr ⟨rfl, rfl, rfl⟩)

end CircuitBreaker

/-! ## The machine -/

/-- The calls of the breaker's users, with the clock readings they take. -/
inductive SessionCall where
  | recordTrade (pnl : JsNumber) (now : ℚ)
  | recordOpen
  | check (now : ℚ)
  | reset
deriving DecidableEq, Repr

/-- What happens at a call: a loss is recorded on a day (`0` for a trade without
one), trading is found allowed or not, everything is reset. -/
inductive SessionEvent where
  | recorded (day : ℤ) (loss : ℚ)
  | checked (day : ℤ) (allowed : Bool)
  | wasReset
deriving DecidableEq, Repr

/-- The breaker, and the day of the last reading of the clock. -/
structure SessionState where
  breaker : CircuitBreaker
  today : ℤ
deriving DecidableEq, Repr

open CircuitBreaker in
/-- One call. The clock does not go back to an earlier day. -/
def SessionState.step (s : SessionState) : SessionCall → Option (SessionState × List SessionEvent)
  | .recordTrade pnl now =>
    let day := todayStr now
    if day < s.today then none
    else some (⟨s.breaker.recordTrade pnl now, day⟩, [.recorded day (lossOf pnl)])
  | .recordOpen => some ({ s with breaker := s.breaker.recordOpen }, [])
  | .check now =>
    let day := todayStr now
    if day < s.today then none
    else
      let r := s.breaker.check now
      some (⟨r.1, day⟩, [.checked day (r.2 = .allowed)])
  | .reset => some ({ s with breaker := s.breaker.reset }, [.wasReset])

/-- A breaker that was constructed on the day `today`. -/
def sessionBreaker (config : CircuitBreaker.CircuitBreakerConfig) (today : ℤ) :
    Machine SessionState SessionCall SessionEvent where
  init := ⟨{ config, currentDay := today }, today⟩
  step := SessionState.step

end FlashEdge
