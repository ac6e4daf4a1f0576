import Mathlib.Data.Rat.Defs
import Mathlib.Algebra.Order.Field.Rat
import Mathlib.Data.List.Basic
import FlashEdge.Theory.Machine

/-!
# The signing guard (`security/signing-guard.ts`)

The gate every trade passes before its transaction is built: limits on the
trade itself (`0` switches a limit off) and a rate limit whose check reserves
the slot it grants. The audit log is left out: nothing reads it back.

A refusal keeps the numbers its text shows, not the text. `signing` is the
machine of the rate limiter's calls on the one guard of the module, which
`initSigningGuard` replaces.
-/

namespace FlashEdge

structure SigningGuardConfig where
  maxCollateralPerTrade : ℚ := 0
  maxPositionSize : ℚ := 0
  maxLeverage : ℚ := 0
  maxTradesPerMinute : ℚ := 10
  minDelayBetweenTradesMs : ℚ := 3000
deriving DecidableEq, Repr

def DEFAULT_SIGNING_GUARD_CONFIG : SigningGuardConfig := {}

def MAX_SIGNING_HISTORY : ℕ := 100

/-- Why a trade is not allowed. -/
inductive SigningRefusal where
  | collateralExceedsMaximum (collateral maxCollateralPerTrade : ℚ)
  | positionSizeExceedsMaximum (sizeUsd maxPositionSize : ℚ)
  | leverageExceedsMaximum (leverage maxLeverage : ℚ)
  | minimumDelay (minDelayBetweenTradesMs waitMs : ℚ)
  | maximumPerMinute (maxTradesPerMinute : ℚ)
deriving DecidableEq, Repr

structure SigningGuard where
  config : SigningGuardConfig := DEFAULT_SIGNING_GUARD_CONFIG
  signingTimestamps : List ℚ := []
  lastSigningTime : ℚ := 0
deriving DecidableEq, Repr

namespace SigningGuard

/-- The limits on one trade; the first one exceeded is reported. -/
def checkTradeLimits (guard : SigningGuard) (collateral leverage sizeUsd : ℚ) :
    Except SigningRefusal Unit :=
  let config := guard.config
  if 0 < config.maxCollateralPerTrade ∧ config.maxCollateralPerTrade < collateral then
    .error (.collateralExceedsMaximum collateral config.maxCollateralPerTrade)
  else if 0 < config.maxPositionSize ∧ config.maxPositionSize < sizeUsd then
    .error (.positionSizeExceedsMaximum sizeUsd config.maxPositionSize)
  else if 0 < config.maxLeverage ∧ config.maxLeverage < leverage then
    .error (.leverageExceedsMaximum leverage config.maxLeverage)
  else .ok ()

/-- `timestamps.slice(-MAX_SIGNING_HISTORY)`, when there are more. -/
def capped (timestamps : List ℚ) : List ℚ :=
  if MAX_SIGNING_HISTORY < timestamps.length then
    timestamps.drop (timestamps.length - MAX_SIGNING_HISTORY)
  else timestamps

/-- Whether the last signing is too recent. -/
def tooSoon (guard : SigningGuard) (now : ℚ) : Prop :=
  0 < guard.config.minDelayBetweenTradesMs ∧ 0 < guard.lastSigningTime ∧
    now - guard.lastSigningTime < guard.config.minDelayBetweenTradesMs

instance (guard : SigningGuard) (now : ℚ) : Decidable (guard.tooSoon now) := by
  unfold tooSoon
  infer_instance

/-- Drop the timestamps older than a minute, if there is a limit per minute. -/
def trimMinute (guard : SigningGuard) (now : ℚ) : SigningGuard :=
  if 0 < guard.config.maxTradesPerMinute then
    { guard with
      signingTimestamps := guard.signingTimestamps.filter fun t => now - 60000 < t }
  else guard

/-- Whether the minute is full. -/
def minuteFull (guard : SigningGuard) : Prop :=
  0 < guard.config.maxTradesPerMinute ∧
    guard.config.maxTradesPerMinute ≤ guard.signingTimestamps.length

instance (guard : SigningGuard) : Decidable guard.minuteFull := by
  unfold minuteFull
  infer_instance

/-- Take the slot. -/
def reserve (guard : SigningGuard) (now : ℚ) : SigningGuard :=
  { guard with
    lastSigningTime := now
    signingTimestamps := capped (guard.signingTimestamps ++ [now]) }

/-- The rate limit: the guard afterwards, and the refusal if there is one. -/
def checkRateLimit (guard : SigningGuard) (now : ℚ) : SigningGuard × Option SigningRefusal :=
  if guard.tooSoon now then
    (guard, some (.minimumDelay guard.config.minDelayBetweenTradesMs
      (guard.config.minDelayBetweenTradesMs - (now - guard.lastSigningTime))))
  else
    -- the timestamps are trimmed even if the minute turns out to be full
    let guard := guard.trimMinute now
    if guard.minuteFull then (guard, some (.maximumPerMinute guard.config.maxTradesPerMinute))
    else (guard.reserve now, none)

/-- Record a completed signing: the delay starts again, and timestamps older
than two minutes go. -/
def recordSigning (guard : SigningGuard) (now : ℚ) : SigningGuard :=
  { guard with
    lastSigningTime := now
    -- no timestamp is added: the check has reserved the slot already
    signingTimestamps := capped (guard.signingTimestamps.filter fun t => now - 120000 < t) }

/-! ## What a granted slot says -/

@[simp] theorem trimMinute_config (guard : SigningGuard) (now : ℚ) :
    (guard.trimMinute now).config = guard.config := by
  unfold trimMinute
  split <;> rfl

/-- A slot is granted when the last signing is old enough and the minute has
room, and then it is taken at once. -/
theorem checkRateLimit_allowed {guard guard' : SigningGuard} {now : ℚ}
    (h : guard.checkRateLimit now = (guard', none)) :
    ¬ guard.tooSoon now ∧ ¬ (guard.trimMinute now).minuteFull ∧
      guard' = (guard.trimMinute now).reserve now := by
  unfold checkRateLimit at h
  split at h
  · cases h
  · next hsoon =>
    dsimp only at h
    split at h
    · cases h
    · next hfull =>
      obtain rfl : _ = guard' := congrArg Prod.fst h
      exact ⟨hsoon, hfull, rfl⟩

/-- A refused check trims the timestamps at most. -/
theorem checkRateLimit_refused {guard guard' : SigningGuard} {now : ℚ} {reason : SigningRefusal}
    (h : guard.checkRateLimit now = (guard', some reason)) :
    guard' = guard ∨ guard' = guard.trimMinute now := by
  unfold checkRateLimit at h
  split at h
  · exact .inl (congrArg Prod.fst h).symm
  · dsimp only at h
    split at h
    · exact .inr (congrArg Prod.fst h).symm
    · cases h

end SigningGuard

/-! ## The guard of the module -/

/-- `initSigningGuard`: a configuration (merged with the defaults here) makes a new
guard, without the history of the old one. -/
def initSigningGuard (guard : Option SigningGuard) (config : Option SigningGuardConfig) :
    SigningGuard :=
  match guard, config with
  | some guard, none => guard
  | _, config => { config := config.getD DEFAULT_SIGNING_GUARD_CONFIG }

theorem initSigningGuard_new {guard : Option SigningGuard} {config : Option SigningGuardConfig}
    (h : ¬ (guard.isSome ∧ config.isNone)) :
    initSigningGuard guard config = { config := config.getD DEFAULT_SIGNING_GUARD_CONFIG } := by
  unfold initSigningGuard
  split
  · exact absurd ⟨rfl, rfl⟩ h
  · rfl

/-- `getSigningGuard`: the guard, made with the defaults if there is none. -/
def getSigningGuard (guard : Option SigningGuard) : SigningGuard := guard.getD {}

inductive SigningCall where
  | checkRateLimit (now : ℚ)
  | recordSigning (now : ℚ)
  | initSigningGuard (config : Option SigningGuardConfig)
deriving DecidableEq, Repr

/-- What an observer of the guard sees: a slot granted, with the configuration
it was granted under, or refused; a signing completed; a new guard. -/
inductive SigningEvent where
  | granted (now : ℚ) (config : SigningGuardConfig)
  | refused (reason : SigningRefusal)
  | completed (now : ℚ)
  | initialised
deriving DecidableEq, Repr

/-- The guard of the module, and the last reading of the clock. -/
structure SigningState where
  guard : Option SigningGuard := none
  clock : ℚ := 0
deriving DecidableEq, Repr

/-- One call. Readings of the clock are positive and do not decrease. -/
def SigningState.step (s : SigningState) : SigningCall → Option (SigningState × List SigningEvent)
  | .checkRateLimit now =>
    if now < s.clock ∨ now ≤ 0 then none
    else
      let guard := getSigningGuard s.guard
      match guard.checkRateLimit now with
      | (guard', none) => some (⟨some guard', now⟩, [.granted now guard.config])
      | (guard', some reason) => some (⟨some guard', now⟩, [.refused reason])
  | .recordSigning now =>
    if now < s.clock ∨ now ≤ 0 then none
    else some (⟨some ((getSigningGuard s.guard).recordSigning now), now⟩, [.completed now])
  | .initSigningGuard config =>
    some ({ s with guard := some (initSigningGuard s.guard config) },
      if s.guard.isSome ∧ config.isNone then [] else [.initialised])

def signing : Machine SigningState SigningCall SigningEvent where
  init := {}
  step := SigningState.step

end FlashEdge
