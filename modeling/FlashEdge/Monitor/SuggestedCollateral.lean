import FlashEdge.Client.LiquidationThreshold
import FlashEdge.Js
import FlashEdge.Theory.Bisection
import Mathlib.Algebra.Order.Floor.Ring
import Mathlib.Data.Rat.Floor

/-!
# The collateral that restores a safe distance (`monitor/risk-monitor.ts`)

A position that is close to its liquidation price is shown with the collateral that would bring
it back to a distance of 35%. `calcCollateralToRestore` finds the amount by bisection, between
nothing and the size of the position, and rounds it up to a whole dollar.

- `distance_mono`: more collateral moves the liquidation price further away, on either side.
- `restored_size`: the size of the position is always enough.
- `suggestion_restores`: the suggestion is enough, and nothing much smaller is.
-/

namespace FlashEdge

namespace RiskMonitor

def TARGET_SAFE_DISTANCE : ℚ := 35 / 100
def BINARY_SEARCH_MAX_ITER : ℕ := 20
def BINARY_SEARCH_TOLERANCE : ℚ := 5 / 1000

/-- What is read of a position and of the protocol's rates for its market. -/
structure Endangered where
  side : TradeSide
  entryPrice : JsNumber
  sizeUsd : JsNumber
  collateralUsd : JsNumber
  maintenanceMarginRate : ℚ
  closeFeeRate : ℚ

namespace Endangered

/-- The liquidation price of the position as it is. -/
def liqPrice (pos : Endangered) : ℚ :=
  computeSimulationLiquidationPrice pos.entryPrice.finiteOr0 pos.sizeUsd.finiteOr0
    pos.collateralUsd.finiteOr0 pos.side pos.maintenanceMarginRate pos.closeFeeRate

/-- The liquidation price with so much collateral more. -/
def newLiqPrice (pos : Endangered) (extra : ℚ) : ℚ :=
  computeSimulationLiquidationPrice pos.entryPrice.finiteOr0 pos.sizeUsd.finiteOr0
    (pos.collateralUsd.finiteOr0 + extra) pos.side pos.maintenanceMarginRate pos.closeFeeRate

/-- How far away it is. -/
def newDistance (pos : Endangered) (currentPrice extra : ℚ) : ℚ :=
  |currentPrice - pos.newLiqPrice extra| / currentPrice

/-- The search goes on below this amount. -/
def FarEnough (pos : Endangered) (currentPrice extra : ℚ) : Prop :=
  ¬ pos.newDistance currentPrice extra < TARGET_SAFE_DISTANCE

instance (pos : Endangered) (currentPrice : ℚ) : DecidablePred (pos.FarEnough currentPrice) :=
  fun _ => instDecidableNot

end Endangered

def calcCollateralToRestore (pos : Endangered) (currentPrice liqPrice : ℚ) : ℤ :=
  let entryPrice := pos.entryPrice.finiteOr0
  let sizeUsd := pos.sizeUsd.finiteOr0
  let collateralUsd := pos.collateralUsd.finiteOr0
  if liqPrice ≤ 0 ∨ currentPrice ≤ 0 ∨ entryPrice ≤ 0 ∨ sizeUsd ≤ 0 ∨ collateralUsd ≤ 0 then 0
  else
    let currentDistance := |currentPrice - liqPrice| / currentPrice
    -- already safe
    if TARGET_SAFE_DISTANCE ≤ currentDistance then 0
    else
      let enough := bisect (pos.FarEnough currentPrice) (BINARY_SEARCH_TOLERANCE * sizeUsd)
        BINARY_SEARCH_MAX_ITER 0 sizeUsd
      let extra := ⌈enough.2⌉
      if 0 < extra then extra else 0

/-! ## The property -/

/-- The price has not reached the liquidation price. -/
def OnSafeSide (side : TradeSide) (currentPrice liqPrice : ℚ) : Prop :=
  match side with
  | .Long => liqPrice < currentPrice
  | .Short => currentPrice < liqPrice

/-- With so much collateral more, the liquidation price is on the safe side and far enough away. -/
def Restored (pos : Endangered) (currentPrice extra : ℚ) : Prop :=
  OnSafeSide pos.side currentPrice (pos.newLiqPrice extra) ∧
    TARGET_SAFE_DISTANCE ≤ pos.newDistance currentPrice extra

/-- A position on the safe side of its liquidation price, with a leverage of at least 1, that is
too close to it. -/
structure TooClose (pos : Endangered) (currentPrice : ℚ) : Prop where
  price_pos : 0 < currentPrice
  leverage : 1 ≤ pos.sizeUsd.finiteOr0 / pos.collateralUsd.finiteOr0
  safe : OnSafeSide pos.side currentPrice pos.liqPrice
  close : |currentPrice - pos.liqPrice| / currentPrice < TARGET_SAFE_DISTANCE

/-! ## The formula -/

open SimulatedFlashClient (available pnlMultiplier computeSimulationLiquidationPrice_eq)

theorem onSafeSide_iff {side : TradeSide} {currentPrice liqPrice : ℚ} :
    OnSafeSide side currentPrice liqPrice ↔
      pnlMultiplier side * liqPrice < pnlMultiplier side * currentPrice := by
  cases side with
  | Long =>
    show liqPrice < currentPrice ↔ 1 * liqPrice < 1 * currentPrice
    rw [one_mul, one_mul]
  | Short =>
    show currentPrice < liqPrice ↔ -1 * liqPrice < -1 * currentPrice
    rw [neg_one_mul, neg_one_mul, neg_lt_neg_iff]

/-- On the safe side the distance has a sign. -/
theorem abs_sub_of_safe {side : TradeSide} {currentPrice liqPrice : ℚ}
    (h : OnSafeSide side currentPrice liqPrice) :
    |currentPrice - liqPrice| =
      pnlMultiplier side * currentPrice - pnlMultiplier side * liqPrice := by
  cases side with
  | Long =>
    show |currentPrice - liqPrice| = 1 * currentPrice - 1 * liqPrice
    rw [abs_of_pos (sub_pos.mpr h), one_mul, one_mul]
  | Short =>
    show |currentPrice - liqPrice| = -1 * currentPrice - -1 * liqPrice
    rw [abs_of_neg (sub_neg.mpr h)]
    ring

/-- A price that is not the sentinel has been computed from valid arguments. -/
theorem valid_of_ne_zero {entryPrice sizeUsd collateralUsd maintenanceMarginRate closeFeeRate : ℚ}
    {side : TradeSide}
    (h : computeSimulationLiquidationPrice entryPrice sizeUsd collateralUsd side
      maintenanceMarginRate closeFeeRate ≠ 0) :
    0 < entryPrice ∧ 0 < sizeUsd ∧ 0 < collateralUsd ∧ 0 ≤ maintenanceMarginRate ∧
      0 ≤ closeFeeRate ∧
        0 < available sizeUsd collateralUsd maintenanceMarginRate closeFeeRate := by
  unfold computeSimulationLiquidationPrice at h
  split at h
  · exact absurd rfl h
  next hargs =>
  split at h
  · exact absurd rfl h
  next hm =>
  split at h
  · exact absurd rfl h
  next hf =>
  simp only [Bool.or_eq_true, decide_eq_true_eq, not_or, not_le] at hargs
  refine ⟨hargs.1.1, hargs.1.2, hargs.2, not_lt.mp hm, not_lt.mp hf, ?_⟩
  by_contra havailable
  exact h (if_pos (not_lt.mp havailable))

section Position

variable {pos : Endangered} {currentPrice : ℚ}

/-- What is left of the collateral once margin and exit fee are covered. -/
def Endangered.availableCollateral (pos : Endangered) : ℚ :=
  available pos.sizeUsd.finiteOr0 pos.collateralUsd.finiteOr0 pos.maintenanceMarginRate
    pos.closeFeeRate

/-- The arguments of the formula are valid. -/
structure Endangered.Valid (pos : Endangered) : Prop where
  entry : 0 < pos.entryPrice.finiteOr0
  size : 0 < pos.sizeUsd.finiteOr0
  collateral : 0 < pos.collateralUsd.finiteOr0
  margin : 0 ≤ pos.maintenanceMarginRate
  fee : 0 ≤ pos.closeFeeRate
  available : 0 < pos.availableCollateral

theorem newLiqPrice_zero (pos : Endangered) : pos.newLiqPrice 0 = pos.liqPrice := by
  unfold Endangered.newLiqPrice Endangered.liqPrice
  rw [add_zero]

/-- The sentinel is far away from every price. -/
theorem TooClose.liqPrice_ne (h : TooClose pos currentPrice) : pos.liqPrice ≠ 0 := by
  intro hzero
  have hclose := h.close
  rw [hzero, sub_zero, abs_of_pos h.price_pos, div_self h.price_pos.ne'] at hclose
  unfold TARGET_SAFE_DISTANCE at hclose
  norm_num at hclose

theorem TooClose.valid (h : TooClose pos currentPrice) : pos.Valid := by
  obtain ⟨he, hs, hc, hm, hf, ha⟩ := valid_of_ne_zero h.liqPrice_ne
  exact ⟨he, hs, hc, hm, hf, ha⟩

/-- The formula with more collateral. -/
theorem newLiqPrice_eq (h : pos.Valid) {extra : ℚ} (hextra : 0 ≤ extra) :
    pos.newLiqPrice extra =
      max 0 (pos.entryPrice.finiteOr0 - pnlMultiplier pos.side *
        ((pos.availableCollateral + extra) / pos.sizeUsd.finiteOr0 *
          pos.entryPrice.finiteOr0)) := by
  have hmore : available pos.sizeUsd.finiteOr0 (pos.collateralUsd.finiteOr0 + extra)
      pos.maintenanceMarginRate pos.closeFeeRate = pos.availableCollateral + extra := by
    unfold Endangered.availableCollateral available
    ring
  have hpos : ¬ pos.availableCollateral + extra ≤ 0 := by
    have ha := h.available
    linarith
  unfold Endangered.newLiqPrice
  rw [computeSimulationLiquidationPrice_eq h.entry h.size
    (add_pos_of_pos_of_nonneg h.collateral hextra) h.margin h.fee, hmore, if_neg hpos]

theorem TooClose.liqPrice_pos (h : TooClose pos currentPrice) : 0 < pos.liqPrice := by
  refine lt_of_le_of_ne ?_ h.liqPrice_ne.symm
  rw [← newLiqPrice_zero, newLiqPrice_eq h.valid le_rfl]
  exact le_max_left _ _

/-- More collateral moves the liquidation price away. -/
theorem newLiqPrice_mono (h : pos.Valid) {x y : ℚ} (hx : 0 ≤ x) (hxy : x ≤ y) :
    pnlMultiplier pos.side * pos.newLiqPrice y ≤ pnlMultiplier pos.side * pos.newLiqPrice x := by
  have hmove : (pos.availableCollateral + x) / pos.sizeUsd.finiteOr0 * pos.entryPrice.finiteOr0 ≤
      (pos.availableCollateral + y) / pos.sizeUsd.finiteOr0 * pos.entryPrice.finiteOr0 := by
    have hs := h.size
    have he := h.entry
    gcongr
  rw [newLiqPrice_eq h hx, newLiqPrice_eq h (hx.trans hxy)]
  cases pos.side with
  | Long =>
    rw [show pnlMultiplier .Long = 1 from rfl, one_mul, one_mul, one_mul, one_mul]
    exact max_le_max le_rfl (sub_le_sub_left hmove _)
  | Short =>
    rw [show pnlMultiplier .Short = -1 from rfl, neg_one_mul, neg_one_mul, neg_one_mul,
      neg_one_mul, neg_le_neg_iff, sub_neg_eq_add, sub_neg_eq_add]
    exact max_le_max le_rfl (add_le_add_right hmove _)

namespace TooClose

/-- More collateral leaves the position on the safe side. -/
theorem stays_safe (h : TooClose pos currentPrice) {extra : ℚ} (hextra : 0 ≤ extra) :
    OnSafeSide pos.side currentPrice (pos.newLiqPrice extra) := by
  have hmono := newLiqPrice_mono h.valid le_rfl hextra
  rw [newLiqPrice_zero] at hmono
  exact onSafeSide_iff.mpr (hmono.trans_lt (onSafeSide_iff.mp h.safe))

theorem newDistance_eq (h : TooClose pos currentPrice) {extra : ℚ} (hextra : 0 ≤ extra) :
    pos.newDistance currentPrice extra =
      (pnlMultiplier pos.side * currentPrice - pnlMultiplier pos.side * pos.newLiqPrice extra) /
        currentPrice := by
  unfold Endangered.newDistance
  rw [abs_sub_of_safe (h.stays_safe hextra)]

/-- The distance grows with the collateral. -/
theorem distance_mono (h : TooClose pos currentPrice) {x y : ℚ} (hx : 0 ≤ x) (hxy : x ≤ y) :
    pos.newDistance currentPrice x ≤ pos.newDistance currentPrice y := by
  rw [h.newDistance_eq hx, h.newDistance_eq (hx.trans hxy)]
  exact div_le_div_of_nonneg_right (sub_le_sub_left (newLiqPrice_mono h.valid hx hxy) _)
    h.price_pos.le

theorem restored_iff (h : TooClose pos currentPrice) {extra : ℚ} (hextra : 0 ≤ extra) :
    Restored pos currentPrice extra ↔ pos.FarEnough currentPrice extra :=
  (and_iff_right (h.stays_safe hextra)).trans not_lt.symm

theorem restored_mono (h : TooClose pos currentPrice) {x y : ℚ} (hx : 0 ≤ x) (hxy : x ≤ y)
    (hrestored : Restored pos currentPrice x) : Restored pos currentPrice y :=
  ⟨h.stays_safe (hx.trans hxy), hrestored.2.trans (h.distance_mono hx hxy)⟩

/-- Twice the size is more than enough on the short side, since the leverage is at least 1. -/
theorem restored_size (h : TooClose pos currentPrice) :
    Restored pos currentPrice pos.sizeUsd.finiteOr0 := by
  have hvalid := h.valid
  have hs := hvalid.size
  have he := hvalid.entry
  have ha := hvalid.available
  refine ⟨h.stays_safe hs.le, ?_⟩
  rw [h.newDistance_eq hs.le, le_div_iff₀ h.price_pos, newLiqPrice_eq hvalid hs.le, add_div,
    div_self hs.ne']
  have hratio : 0 < pos.availableCollateral / pos.sizeUsd.finiteOr0 := div_pos ha hs
  have hsafe := h.safe
  rw [← newLiqPrice_zero, newLiqPrice_eq hvalid le_rfl, add_zero] at hsafe
  have hprice := h.price_pos
  unfold TARGET_SAFE_DISTANCE
  cases hside : pos.side with
  | Long =>
    rw [show pnlMultiplier .Long = 1 from rfl, one_mul, one_mul, one_mul, max_eq_left]
    · linarith
    · have hmul := mul_pos hratio he
      linarith
  | Short =>
    have hsmall : pos.availableCollateral / pos.sizeUsd.finiteOr0 ≤ 1 := by
      rw [div_le_one hs]
      have hlev := (one_le_div hvalid.collateral).mp h.leverage
      have hmargin := mul_nonneg hs.le hvalid.margin
      have hfee := mul_nonneg hs.le hvalid.fee
      unfold Endangered.availableCollateral available
      linarith
    rw [hside] at hsafe
    have hreached : 0 ≤ pos.entryPrice.finiteOr0 +
        (pos.availableCollateral / pos.sizeUsd.finiteOr0 + 1) * pos.entryPrice.finiteOr0 := by
      positivity
    rw [show pnlMultiplier .Short = -1 from rfl, neg_one_mul, neg_one_mul, neg_one_mul,
      sub_neg_eq_add, sub_neg_eq_add, max_eq_right hreached]
    have hbelow : currentPrice < pos.entryPrice.finiteOr0 +
        pos.availableCollateral / pos.sizeUsd.finiteOr0 * pos.entryPrice.finiteOr0 := by
      have hraw : currentPrice < max 0 (pos.entryPrice.finiteOr0 - pnlMultiplier .Short *
        (pos.availableCollateral / pos.sizeUsd.finiteOr0 * pos.entryPrice.finiteOr0)) := hsafe
      rw [show pnlMultiplier .Short = -1 from rfl, neg_one_mul, sub_neg_eq_add,
        max_eq_right (by positivity)] at hraw
      exact hraw
    have hbound := mul_le_mul_of_nonneg_right hsmall he.le
    linarith

end TooClose

/-! ## The search -/

/-- **The suggestion restores the distance, and nothing much smaller does.** -/
theorem suggestion_restores (h : TooClose pos currentPrice) :
    Restored pos currentPrice (calcCollateralToRestore pos currentPrice pos.liqPrice) ∧
      ∀ extra : ℚ, 0 ≤ extra →
        extra < calcCollateralToRestore pos currentPrice pos.liqPrice -
          (BINARY_SEARCH_TOLERANCE * pos.sizeUsd.finiteOr0 + 1) →
        ¬ Restored pos currentPrice extra := by
  have hvalid := h.valid
  have hs := hvalid.size
  have hliq : ¬ (pos.liqPrice ≤ 0 ∨ currentPrice ≤ 0 ∨ pos.entryPrice.finiteOr0 ≤ 0 ∨
      pos.sizeUsd.finiteOr0 ≤ 0 ∨ pos.collateralUsd.finiteOr0 ≤ 0) := by
    simp only [not_or, not_le]
    exact ⟨h.liqPrice_pos, h.price_pos, hvalid.entry, hs, hvalid.collateral⟩
  let enough := bisect (pos.FarEnough currentPrice)
    (BINARY_SEARCH_TOLERANCE * pos.sizeUsd.finiteOr0) BINARY_SEARCH_MAX_ITER 0
      pos.sizeUsd.finiteOr0
  have hupper : pos.FarEnough currentPrice enough.2 :=
    bisect_upper ((h.restored_iff hs.le).mp h.restored_size)
  have hzero : 0 ≤ enough.1 := le_bisect hs.le
  have horder : enough.1 ≤ enough.2 := bisect_le hs.le
  -- twenty rounds are more than enough for the tolerance
  have hwidth : enough.2 - enough.1 < BINARY_SEARCH_TOLERANCE * pos.sizeUsd.finiteOr0 := by
    have hnarrow : enough.2 - enough.1 < BINARY_SEARCH_TOLERANCE * pos.sizeUsd.finiteOr0 ∨
        enough.2 - enough.1 = (pos.sizeUsd.finiteOr0 - 0) / 2 ^ BINARY_SEARCH_MAX_ITER :=
      bisect_width
    rcases hnarrow with hstop | hall
    · exact hstop
    · rw [hall]
      unfold BINARY_SEARCH_TOLERANCE BINARY_SEARCH_MAX_ITER
      linarith
  -- nothing is not enough, so something is suggested
  have hpos : 0 < enough.2 := by
    refine lt_of_le_of_ne (hzero.trans horder) fun hnone => hupper ?_
    rw [← hnone]
    unfold Endangered.newDistance
    rw [newLiqPrice_zero]
    exact h.close
  have hextra : calcCollateralToRestore pos currentPrice pos.liqPrice = ⌈enough.2⌉ := by
    unfold calcCollateralToRestore
    dsimp only
    rw [if_neg hliq, if_neg (not_le.mpr h.close)]
    exact if_pos (Int.ceil_pos.mpr hpos)
  rw [hextra]
  have hceil := Int.le_ceil enough.2
  refine ⟨?_, fun extra hextra hless hrestored => ?_⟩
  · exact h.restored_mono hpos.le hceil ((h.restored_iff hpos.le).mpr hupper)
  · have hround := Int.ceil_lt_add_one enough.2
    have hbelow : extra < enough.1 := by linarith
    have hlower : enough.1 = 0 ∨ ¬ pos.FarEnough currentPrice enough.1 := bisect_lower _
    rcases hlower with hstart | hfails
    · rw [hstart] at hbelow
      exact absurd hbelow (not_lt.mpr hextra)
    · exact hfails ((h.restored_iff hzero).mp (h.restored_mono hextra hbelow.le hrestored))

end Position

/-- A long with a leverage of 5, at its entry price. -/
def fiveTimes : Endangered where
  side := .Long
  entryPrice := .finite 100
  sizeUsd := .finite 1000
  collateralUsd := .finite 200
  maintenanceMarginRate := 1 / 100
  closeFeeRate := 8 / 10000

theorem tooClose_fiveTimes : TooClose fiveTimes 100 where
  price_pos := by norm_num
  leverage := by decide +kernel
  safe := by
    show fiveTimes.liqPrice < 100
    decide +kernel
  close := by decide +kernel

theorem fiveTimes_restored :
    Restored fiveTimes 100 (calcCollateralToRestore fiveTimes 100 fiveTimes.liqPrice) ∧
      ∀ extra : ℚ, 0 ≤ extra →
        extra < calcCollateralToRestore fiveTimes 100 fiveTimes.liqPrice -
          (BINARY_SEARCH_TOLERANCE * fiveTimes.sizeUsd.finiteOr0 + 1) →
        ¬ Restored fiveTimes 100 extra :=
  suggestion_restores tooClose_fiveTimes

end RiskMonitor

end FlashEdge
