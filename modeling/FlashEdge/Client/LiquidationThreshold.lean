import Mathlib.Tactic.FieldSimp
import Mathlib.Tactic.Ring
import FlashEdge.Client.PaperPositions

/-!
# The liquidation price as a threshold

A position is to be liquidated once its equity (collateral and profit, less the exit fee) no
longer covers the maintenance margin. The liquidation price is the closed form of this, with
zero for a position that no price liquidates. The same zero stands for one that is liquidated
from the beginning.

- `equity`, `Liquidatable`: the condition itself.
- `calcLiquidationPrice_eq`: normalised to size one, the formula gives the same price.
- `liquidationPrice_threshold`: the formula against the condition.
-/

namespace FlashEdge

namespace SimulatedFlashClient

/-- What a position is worth at a price, its exit fee paid. -/
def equity (side : TradeSide) (entryPrice sizeUsd collateralUsd closeFeeRate price : ℚ) : ℚ :=
  collateralUsd + unrealizedPnl side entryPrice sizeUsd price - sizeUsd * closeFeeRate

/-- The equity does not exceed the maintenance margin. -/
def Liquidatable (side : TradeSide)
    (entryPrice sizeUsd collateralUsd maintenanceMarginRate closeFeeRate price : ℚ) : Prop :=
  equity side entryPrice sizeUsd collateralUsd closeFeeRate price ≤ sizeUsd * maintenanceMarginRate

/-- At or beyond a price: below it for a long, above it for a short. -/
def Beyond (side : TradeSide) (liqPrice price : ℚ) : Prop :=
  match side with
  | .Long => price ≤ liqPrice
  | .Short => liqPrice ≤ price

variable {entryPrice sizeUsd collateralUsd maintenanceMarginRate closeFeeRate : ℚ}

/-- What is left of the collateral once margin and exit fee are covered. -/
def available (sizeUsd collateralUsd maintenanceMarginRate closeFeeRate : ℚ) : ℚ :=
  collateralUsd - sizeUsd * maintenanceMarginRate - sizeUsd * closeFeeRate

/-- The condition, in terms of the price move. -/
theorem liquidatable_iff (he : 0 < entryPrice) (hs : 0 < sizeUsd) (side : TradeSide) (price : ℚ) :
    Liquidatable side entryPrice sizeUsd collateralUsd maintenanceMarginRate closeFeeRate price ↔
      Beyond side
        (entryPrice - pnlMultiplier side *
          (available sizeUsd collateralUsd maintenanceMarginRate closeFeeRate / sizeUsd *
            entryPrice)) price := by
  have hscale : 0 < sizeUsd / entryPrice := div_pos hs he
  unfold Liquidatable equity unrealizedPnl available
  rw [if_pos he]
  cases side with
  | Long =>
    have hgap : sizeUsd * maintenanceMarginRate - (collateralUsd +
          (price - entryPrice) / entryPrice * sizeUsd * pnlMultiplier .Long -
            sizeUsd * closeFeeRate) =
        sizeUsd / entryPrice * (entryPrice - pnlMultiplier .Long *
          ((collateralUsd - sizeUsd * maintenanceMarginRate - sizeUsd * closeFeeRate) / sizeUsd *
            entryPrice) - price) := by
      unfold pnlMultiplier
      field_simp
      ring
    show _ ↔ price ≤ _
    rw [← sub_nonneg, hgap, mul_nonneg_iff_of_pos_left hscale, sub_nonneg]
  | Short =>
    have hgap : sizeUsd * maintenanceMarginRate - (collateralUsd +
          (price - entryPrice) / entryPrice * sizeUsd * pnlMultiplier .Short -
            sizeUsd * closeFeeRate) =
        sizeUsd / entryPrice * (price - (entryPrice - pnlMultiplier .Short *
          ((collateralUsd - sizeUsd * maintenanceMarginRate - sizeUsd * closeFeeRate) / sizeUsd *
            entryPrice))) := by
      unfold pnlMultiplier
      field_simp
      ring
    show _ ↔ _ ≤ price
    rw [← sub_nonneg, hgap, mul_nonneg_iff_of_pos_left hscale, sub_nonneg]

/-- The formula where its arguments are valid. -/
theorem computeSimulationLiquidationPrice_eq (he : 0 < entryPrice) (hs : 0 < sizeUsd)
    (hc : 0 < collateralUsd) (hm : 0 ≤ maintenanceMarginRate) (hf : 0 ≤ closeFeeRate)
    (side : TradeSide) :
    computeSimulationLiquidationPrice entryPrice sizeUsd collateralUsd side maintenanceMarginRate
        closeFeeRate =
      if available sizeUsd collateralUsd maintenanceMarginRate closeFeeRate ≤ 0 then 0
      else
        max 0 (entryPrice - pnlMultiplier side *
          (available sizeUsd collateralUsd maintenanceMarginRate closeFeeRate / sizeUsd *
            entryPrice)) := by
  have hargs : ¬ ((entryPrice ≤ 0 || sizeUsd ≤ 0 || collateralUsd ≤ 0) = true) := by
    simp [he, hs, hc]
  unfold computeSimulationLiquidationPrice
  rw [if_neg hargs, if_neg (not_lt.mpr hm), if_neg (not_lt.mpr hf)]
  show (if available sizeUsd collateralUsd maintenanceMarginRate closeFeeRate ≤ 0 then 0 else _) = _
  split
  · rfl
  · next havailable =>
    have hmove : 0 < available sizeUsd collateralUsd maintenanceMarginRate closeFeeRate / sizeUsd *
        entryPrice := mul_pos (div_pos (not_le.mp havailable) hs) he
    cases side with
    | Long =>
      rw [show pnlMultiplier .Long = 1 from rfl, one_mul]
      show (if 0 < entryPrice - available _ _ _ _ / sizeUsd * entryPrice then _ else 0) = _
      split
      · next hpos => exact (max_eq_right hpos.le).symm
      · next hneg => exact (max_eq_left (not_lt.mp hneg)).symm
    | Short =>
      rw [show pnlMultiplier .Short = -1 from rfl, neg_one_mul, sub_neg_eq_add]
      exact (max_eq_right (add_pos he hmove).le).symm

/-- Normalised to size one, the formula gives the same price. -/
theorem calcLiquidationPrice_eq (he : 0 < entryPrice) (hs : 0 < sizeUsd) (hc : 0 < collateralUsd)
    (hm : 0 ≤ maintenanceMarginRate) (hf : 0 ≤ closeFeeRate) (side : TradeSide) :
    calcLiquidationPrice entryPrice (sizeUsd / collateralUsd) side maintenanceMarginRate
        closeFeeRate =
      computeSimulationLiquidationPrice entryPrice sizeUsd collateralUsd side maintenanceMarginRate
        closeFeeRate := by
  have hlev : 0 < sizeUsd / collateralUsd := div_pos hs hc
  have hargs : ¬ ((sizeUsd / collateralUsd ≤ 0 || entryPrice ≤ 0) = true) := by
    simp only [Bool.or_eq_true, decide_eq_true_eq, not_or, not_le]
    exact ⟨hlev, he⟩
  have hscaled : available 1 (1 / (sizeUsd / collateralUsd)) maintenanceMarginRate closeFeeRate =
      available sizeUsd collateralUsd maintenanceMarginRate closeFeeRate / sizeUsd := by
    unfold available
    field_simp
  have hsign : available sizeUsd collateralUsd maintenanceMarginRate closeFeeRate / sizeUsd ≤ 0 ↔
      available sizeUsd collateralUsd maintenanceMarginRate closeFeeRate ≤ 0 := by
    rw [div_le_iff₀ hs, zero_mul]
  unfold calcLiquidationPrice
  rw [if_neg hargs,
    computeSimulationLiquidationPrice_eq he one_pos (one_div_pos.mpr hlev) hm hf side,
    computeSimulationLiquidationPrice_eq he hs hc hm hf side, hscaled, div_one]
  simp only [hsign]

/-- **The liquidation price is the threshold.** For a position that is solvent at its entry
price, the two functions that compute a liquidation price agree, and at every price the equity
is at or below the maintenance margin exactly if the price is at or beyond it; where they
return zero, at no price is it. -/
theorem liquidationPrice_threshold (he : 0 < entryPrice) (hs : 0 < sizeUsd) (hc : 0 < collateralUsd)
    (hm : 0 ≤ maintenanceMarginRate) (hf : 0 ≤ closeFeeRate) (side : TradeSide)
    (hsolvent : ¬ Liquidatable side entryPrice sizeUsd collateralUsd maintenanceMarginRate
      closeFeeRate entryPrice) :
    ∃ liqPrice,
      computeSimulationLiquidationPrice entryPrice sizeUsd collateralUsd side
        maintenanceMarginRate closeFeeRate = liqPrice ∧
      calcLiquidationPrice entryPrice (sizeUsd / collateralUsd) side maintenanceMarginRate
        closeFeeRate = liqPrice ∧
      ∀ price, 0 < price →
        (Liquidatable side entryPrice sizeUsd collateralUsd maintenanceMarginRate closeFeeRate
          price ↔ Beyond side liqPrice price) ∧
        (liqPrice = 0 → ¬ Liquidatable side entryPrice sizeUsd collateralUsd maintenanceMarginRate
          closeFeeRate price) := by
  have havailable : ¬ available sizeUsd collateralUsd maintenanceMarginRate closeFeeRate ≤ 0 := by
    intro hle
    refine hsolvent ?_
    unfold available at hle
    unfold Liquidatable equity unrealizedPnl
    rw [if_pos he, sub_self, zero_div, zero_mul, zero_mul]
    linarith
  have hprice := computeSimulationLiquidationPrice_eq he hs hc hm hf side
  rw [if_neg havailable] at hprice
  refine ⟨_, rfl, calcLiquidationPrice_eq he hs hc hm hf side, fun price hpos => ?_⟩
  rw [hprice, liquidatable_iff he hs side price]
  have hmove : 0 < available sizeUsd collateralUsd maintenanceMarginRate closeFeeRate / sizeUsd *
      entryPrice := mul_pos (div_pos (not_le.mp havailable) hs) he
  cases side with
  | Long =>
    -- a threshold below zero is below every price, and so is zero
    refine ⟨?_, fun hzero hbeyond => ?_⟩
    · show price ≤ _ ↔ price ≤ max 0 _
      rw [le_max_iff, or_iff_right (not_le.mpr hpos)]
    · have hnever : price ≤ 0 := hbeyond.trans (max_eq_left_iff.mp hzero)
      exact absurd hpos (not_lt.mpr hnever)
  | Short =>
    have hliq : 0 < entryPrice - pnlMultiplier .Short *
        (available sizeUsd collateralUsd maintenanceMarginRate closeFeeRate / sizeUsd *
          entryPrice) := by
      rw [show pnlMultiplier .Short = -1 from rfl, neg_one_mul, sub_neg_eq_add]
      exact add_pos he hmove
    rw [max_eq_right hliq.le]
    exact ⟨Iff.rfl, fun hzero => absurd hzero hliq.ne'⟩

/-- A long of 1000 dollars at 100 with a collateral of 200 is liquidated from 81.1 on. -/
theorem liquidationPrice_threshold_long :
    ∃ liqPrice,
      computeSimulationLiquidationPrice 100 1000 200 .Long (1 / 100) (1 / 1000) = liqPrice ∧
      calcLiquidationPrice 100 (1000 / 200) .Long (1 / 100) (1 / 1000) = liqPrice ∧
      ∀ price, 0 < price →
        (Liquidatable .Long 100 1000 200 (1 / 100) (1 / 1000) price ↔ Beyond .Long liqPrice price) ∧
        (liqPrice = 0 → ¬ Liquidatable .Long 100 1000 200 (1 / 100) (1 / 1000) price) := by
  refine liquidationPrice_threshold (by norm_num) (by norm_num) (by norm_num) (by norm_num)
    (by norm_num) .Long ?_
  unfold Liquidatable equity unrealizedPnl
  norm_num

end SimulatedFlashClient

end FlashEdge
