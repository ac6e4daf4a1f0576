import Mathlib.Algebra.BigOperators.Group.List.Basic
import Mathlib.Algebra.Order.Ring.NNRat
import FlashEdge.Js

/-!
# The trading gate (`security/trading-gate.ts`)

The master kill switch and the exposure control. A refusal keeps the numbers its
text shows, not the text; the logging is left out.
-/

namespace FlashEdge

/-- A position as `getPositions` lists it: what the tools read of it. -/
structure OpenPosition where
  market : String
  side : TradeSide
  sizeUsd : ℚ≥0
  collateralUsd : ℚ
deriving DecidableEq

/-- Whether this is the position of a market and a side. -/
def OpenPosition.isOn (p : OpenPosition) (market : String) (side : TradeSide) : Prop :=
  toUpperCase p.market = toUpperCase market ∧ p.side = side

instance (p : OpenPosition) (market : String) (side : TradeSide) :
    Decidable (p.isOn market side) := by
  unfold OpenPosition.isOn
  infer_instance

/-- The sum of the sizes of positions. -/
def totalExposure (positions : List OpenPosition) : ℚ≥0 := (positions.map (·.sizeUsd)).sum

@[simp] theorem totalExposure_nil : totalExposure [] = 0 := rfl

@[simp] theorem totalExposure_cons (p : OpenPosition) (ps : List OpenPosition) :
    totalExposure (p :: ps) = p.sizeUsd + totalExposure ps := by
  simp [totalExposure]

/-- Why the gate does not let a trade through. -/
inductive GateRefusal where
  | tradingDisabled
  | exposureLimitExceeded (currentExposure newPositionSizeUsd : ℚ≥0) (maxPortfolioExposure : ℚ)
deriving DecidableEq

structure TradingGate where
  tradingEnabled : Bool := true
  maxPortfolioExposure : ℚ := 0
deriving DecidableEq, Repr

namespace TradingGate

/-- The master kill switch. -/
def checkKillSwitch (gate : TradingGate) : Except GateRefusal Unit :=
  if gate.tradingEnabled then .ok () else .error .tradingDisabled

/-- Whether a new position would take the portfolio above the limit. -/
def checkExposure (gate : TradingGate) (newPositionSizeUsd : ℚ≥0)
    (positions : Except String (List OpenPosition)) : Except GateRefusal Unit :=
  if gate.maxPortfolioExposure ≤ 0 then .ok ()
  else
    match positions with
    -- the positions could not be fetched: that does not block the trade
    | .error _ => .ok ()
    | .ok positions =>
      let currentExposure := totalExposure positions
      if gate.maxPortfolioExposure < ↑(currentExposure + newPositionSizeUsd) then
        .error (.exposureLimitExceeded currentExposure newPositionSizeUsd
          gate.maxPortfolioExposure)
      else .ok ()

/-- Disable trading at runtime. -/
def disable (gate : TradingGate) : TradingGate := { gate with tradingEnabled := false }

/-- Re-enable trading at runtime. -/
def enable (gate : TradingGate) : TradingGate := { gate with tradingEnabled := true }

/-! ## What a check says -/

/-- With a limit, a check of positions that are known allows exactly what fits
under it. -/
theorem checkExposure_eq_ok {gate : TradingGate} (hlimit : 0 < gate.maxPortfolioExposure)
    (size : ℚ≥0) (positions : List OpenPosition) :
    gate.checkExposure size (.ok positions) = .ok () ↔
      ↑(totalExposure positions + size) ≤ gate.maxPortfolioExposure := by
  unfold checkExposure
  rw [if_neg (not_le.mpr hlimit)]
  dsimp only
  by_cases hover : gate.maxPortfolioExposure < ↑(totalExposure positions + size)
  · rw [if_pos hover]
    exact ⟨fun h => (by cases h), fun h => absurd hover (not_lt.mpr h)⟩
  · rw [if_neg hover]
    exact ⟨fun _ => not_lt.mp hover, fun _ => rfl⟩

end TradingGate

end FlashEdge
