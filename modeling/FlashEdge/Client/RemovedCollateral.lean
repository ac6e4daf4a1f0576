import FlashEdge.Client.LiquidationThreshold
import FlashEdge.Client.MergedPositions

/-!
# Taking collateral out

`removeCollateral` decides by the liquidation price that the position would have, and refuses
where this is zero. Zero stands for a position that is liquidated at its entry price, whatever
the current price, and for one that no price liquidates. The maximum leverage of the market is
not looked at.

- `wouldLiquidate_iff`: the test, in terms of the three prices.
- `removes_iff`: what collateral can be taken out.
- `removal_sound_iff`: where this is what leverage and equity allow.
-/

namespace FlashEdge

namespace SimulatedFlashClient

/-- The price a position is looked at with: its entry price, where none is known. -/
def currentPrice (s : SimulatedFlashClient) (pos : SimulatedPosition) : ℚ :=
  (s.livePrices.get? pos.market).getD pos.entryPrice

/-- Once `amount` is taken out, the collateral covers margin and exit fee at the entry price. -/
def CoveredWithout (pos : SimulatedPosition) (amount : ℚ) : Prop :=
  0 < available pos.sizeUsd (pos.collateralUsd - amount) pos.maintenanceMarginRate pos.closeFeeRate

/-- Once `amount` is taken out, some price liquidates the position. -/
def LiquidatableWithout (pos : SimulatedPosition) (amount : ℚ) : Prop :=
  pos.side = .Long → available pos.sizeUsd (pos.collateralUsd - amount) pos.maintenanceMarginRate
    pos.closeFeeRate < pos.sizeUsd

theorem wouldLiquidate_iff (s : SimulatedFlashClient) (pos : SimulatedPosition) (side : TradeSide)
    (newLev : ℚ) :
    s.wouldLiquidate pos side newLev = true ↔
      Beyond side (calcLiquidationPrice pos.entryPrice newLev side pos.maintenanceMarginRate
          pos.closeFeeRate) (s.currentPrice pos) ∨
        calcLiquidationPrice pos.entryPrice newLev side pos.maintenanceMarginRate
          pos.closeFeeRate ≤ 0 ∨
        calcLiquidationPrice pos.entryPrice newLev side pos.maintenanceMarginRate
          pos.closeFeeRate = pos.entryPrice := by
  unfold wouldLiquidate
  cases side with
  | Long => simp only [Bool.or_eq_true, decide_eq_true_eq, or_assoc, Beyond, currentPrice]
  | Short => simp only [Bool.or_eq_true, decide_eq_true_eq, or_assoc, Beyond, currentPrice]

/-- A move of a positive part of the price ends above zero, unless a long falls by all of it. -/
theorem threshold_pos_iff {entryPrice sizeUsd left : ℚ} (he : 0 < entryPrice) (hs : 0 < sizeUsd)
    (hleft : 0 < left) (side : TradeSide) :
    0 < entryPrice - pnlMultiplier side * (left / sizeUsd * entryPrice) ↔
      (side = .Long → left < sizeUsd) := by
  cases side with
  | Long =>
    rw [show pnlMultiplier .Long = 1 from rfl, one_mul, sub_pos, mul_lt_iff_lt_one_left he,
      div_lt_one hs]
    exact ⟨fun h _ => h, fun h => h rfl⟩
  | Short =>
    rw [show pnlMultiplier .Short = -1 from rfl, neg_one_mul, sub_neg_eq_add]
    exact ⟨fun _ h => (by cases h), fun _ => add_pos he (mul_pos (div_pos hleft hs) he)⟩

/-- A move of a positive part of the price does not end where it began. -/
theorem threshold_ne {entryPrice sizeUsd left : ℚ} (he : 0 < entryPrice) (hs : 0 < sizeUsd)
    (hleft : 0 < left) (side : TradeSide) :
    entryPrice - pnlMultiplier side * (left / sizeUsd * entryPrice) ≠ entryPrice := by
  have hmult : pnlMultiplier side ≠ 0 := by
    cases side with
    | Long => exact one_ne_zero
    | Short => exact neg_ne_zero.mpr one_ne_zero
  rw [Ne, sub_eq_self]
  exact mul_ne_zero hmult (mul_pos (div_pos hleft hs) he).ne'

/-- The test with the leverage that a position would have. -/
theorem not_wouldLiquidate_iff {pos : SimulatedPosition} {amount : ℚ} (hlive : LivePosition pos)
    (hless : amount < pos.collateralUsd) (s : SimulatedFlashClient) :
    s.wouldLiquidate pos pos.side (pos.sizeUsd / (pos.collateralUsd - amount)) = false ↔
      CoveredWithout pos amount ∧ LiquidatableWithout pos amount ∧
        ¬ Liquidatable pos.side pos.entryPrice pos.sizeUsd (pos.collateralUsd - amount)
          pos.maintenanceMarginRate pos.closeFeeRate (s.currentPrice pos) := by
  have he := hlive.entryPrice
  have hs := hlive.sizeUsd
  have hc : 0 < pos.collateralUsd - amount := sub_pos.mpr hless
  rw [← Bool.not_eq_true, wouldLiquidate_iff,
    calcLiquidationPrice_eq he hs hc hlive.maintenanceMarginRate hlive.closeFeeRate,
    computeSimulationLiquidationPrice_eq he hs hc hlive.maintenanceMarginRate hlive.closeFeeRate,
    liquidatable_iff he hs]
  unfold CoveredWithout LiquidatableWithout
  generalize available pos.sizeUsd (pos.collateralUsd - amount) pos.maintenanceMarginRate
    pos.closeFeeRate = left
  by_cases hcovered : left ≤ 0
  · -- zero is the sentinel
    rw [if_pos hcovered]
    constructor
    · exact fun hnot => absurd (.inr (.inl le_rfl)) hnot
    · exact fun h => absurd hcovered (not_le.mpr h.1)
  · rw [if_neg hcovered]
    have hne := threshold_ne he hs (not_le.mp hcovered) pos.side
    rw [← threshold_pos_iff he hs (not_le.mp hcovered) pos.side]
    generalize pos.entryPrice - pnlMultiplier pos.side * (left / pos.sizeUsd * pos.entryPrice) =
      threshold at hne
    by_cases hpos : 0 < threshold
    · rw [max_eq_right hpos.le]
      constructor
      · exact fun hnot => ⟨not_le.mp hcovered, hpos, fun hbeyond => hnot (.inl hbeyond)⟩
      · rintro ⟨-, -, hnot⟩ (hbeyond | hzero | hentry)
        · exact hnot hbeyond
        · exact absurd hpos (not_lt.mpr hzero)
        · exact hne hentry
    · rw [max_eq_left (not_lt.mp hpos)]
      constructor
      · exact fun hnot => absurd (.inr (.inl le_rfl)) hnot
      · exact fun h => absurd h.2.1 hpos

/-- **What can be taken out.** The operation succeeds exactly if the rest covers margin and
exit fee at the entry price, some price liquidates the position, and the current one does
not. -/
theorem removes_iff {m : Markets} {s : SimulatedFlashClient} {feed : PriceFeed} {now amount : ℚ}
    {market : String} {side : TradeSide} {idx : ℕ} {pos : SimulatedPosition}
    (hfind : s.findPosition market side = some (idx, pos)) (hlive : LivePosition pos)
    (hamount : 0 < amount) (hless : amount < pos.collateralUsd) :
    (s.locked m (.removeCollateral feed now market side amount)).2 = [.collateralRemoved amount] ↔
      CoveredWithout pos amount ∧ LiquidatableWithout pos amount ∧
        ¬ Liquidatable pos.side pos.entryPrice pos.sizeUsd (pos.collateralUsd - amount)
          pos.maintenanceMarginRate pos.closeFeeRate ((s.refreshPrices feed).currentPrice pos) := by
  have hside : pos.side = side := by
    obtain ⟨before, after, hat⟩ := findPosition_some hfind
    have hslot := hat.holds
    simp only [atSlot, Bool.and_eq_true, decide_eq_true_eq] at hslot
    exact hslot.2
  have hfind' : (s.refreshPrices feed).findPosition market side = some (idx, pos) := by
    unfold SimulatedFlashClient.findPosition SimulatedFlashClient.positionIndex at hfind ⊢
    rw [(sameAccount_refreshPrices s feed).positions]
    exact hfind
  have hrest : 0 < pos.collateralUsd - amount := sub_pos.mpr hless
  have hlev : 0 < pos.sizeUsd / (pos.collateralUsd - amount) := div_pos hlive.sizeUsd hrest
  rw [← not_wouldLiquidate_iff hlive hless]
  unfold locked
  dsimp only
  rw [if_neg (not_le.mpr hamount)]
  unfold removeCollateral
  rw [hfind']
  dsimp only
  rw [if_neg (not_le.mpr hless), if_pos hrest]
  subst hside
  cases hwould : (s.refreshPrices feed).wouldLiquidate pos pos.side
      (pos.sizeUsd / (pos.collateralUsd - amount)) with
  | true =>
    rw [if_pos ⟨hlev, rfl⟩]
    exact ⟨fun h => (by cases h), fun h => (by cases h)⟩
  | false =>
    rw [if_neg fun h => absurd h.2 Bool.false_ne_true]
    exact ⟨fun _ => rfl, fun _ => rfl⟩

/-- **Where the formula decides as the equity does.** For every position a run has led to and
every amount below its collateral: the operation succeeds exactly when the leverage that
results is allowed and the equity at the current price exceeds the maintenance margin, if and
only if the position would be liquidatable at the current price, or its leverage is allowed
exactly when it is covered at its entry price and some price liquidates it. -/
theorem removal_sound_iff {m : Markets} {initialBalance : ℚ} {s : SimulatedFlashClient}
    {h : List Event} (hr : (simulation m initialBalance).Reachable s h) {market : String}
    {side : TradeSide} {idx : ℕ} {pos : SimulatedPosition}
    (hfind : s.findPosition market side = some (idx, pos)) (feed : PriceFeed) (now : ℚ)
    {amount : ℚ} (hamount : 0 < amount) (hless : amount < pos.collateralUsd) :
    ((s.locked m (.removeCollateral feed now market side amount)).2 =
          [.collateralRemoved amount] ↔
        pos.sizeUsd / (pos.collateralUsd - amount) ≤ m.maxLeverage market ∧
          ¬ Liquidatable pos.side pos.entryPrice pos.sizeUsd (pos.collateralUsd - amount)
            pos.maintenanceMarginRate pos.closeFeeRate
            ((s.refreshPrices feed).currentPrice pos)) ↔
      Liquidatable pos.side pos.entryPrice pos.sizeUsd (pos.collateralUsd - amount)
          pos.maintenanceMarginRate pos.closeFeeRate ((s.refreshPrices feed).currentPrice pos) ∨
        (pos.sizeUsd / (pos.collateralUsd - amount) ≤ m.maxLeverage market ↔
          CoveredWithout pos amount ∧ LiquidatableWithout pos amount) := by
  obtain ⟨before, after, hat⟩ := findPosition_some hfind
  rw [removes_iff hfind ((paper_reachable hr).live pos hat.mem) hamount hless]
  tauto

/-- Two hundred dollars of SOL, to which a collateral of three hundred has been added. -/
def solOverfunded : List Action :=
  [.openPosition (solFeed 100) solRates "a" 0 "SOL" .Long 100 2, .addCollateral 1 "SOL" .Long 300]

/-- Of the four hundred dollars of collateral none can be taken out, although no price
liquidates the position. -/
theorem overfunded_refused :
    ∃ s h idx pos, (simulation solMarkets 1000).run solOverfunded = some (s, h) ∧
      s.findPosition "SOL" .Long = some (idx, pos) ∧ 10 < pos.collateralUsd ∧
      pos.sizeUsd / (pos.collateralUsd - 10) ≤ solMarkets.maxLeverage "SOL" ∧
      ¬ Liquidatable pos.side pos.entryPrice pos.sizeUsd (pos.collateralUsd - 10)
        pos.maintenanceMarginRate pos.closeFeeRate
        ((s.refreshPrices (solFeed 100)).currentPrice pos) ∧
      (s.locked solMarkets (.removeCollateral (solFeed 100) 2 "SOL" .Long 10)).2 =
        [.failed (.wouldLiquidate 10 (20 / 39))] := by
  have hrun : ((simulation solMarkets 1000).run solOverfunded).map (fun r =>
      ((r.1.findPosition "SOL" .Long).map fun found =>
          decide (10 < found.2.collateralUsd ∧
            found.2.sizeUsd / (found.2.collateralUsd - 10) ≤ solMarkets.maxLeverage "SOL" ∧
            found.2.sizeUsd * found.2.maintenanceMarginRate <
              equity found.2.side found.2.entryPrice found.2.sizeUsd (found.2.collateralUsd - 10)
                found.2.closeFeeRate ((r.1.refreshPrices (solFeed 100)).currentPrice found.2)),
        (r.1.locked solMarkets (.removeCollateral (solFeed 100) 2 "SOL" .Long 10)).2)) =
      some (some true, [.failed (.wouldLiquidate 10 (20 / 39))]) := by
    decide +kernel
  obtain ⟨⟨s, h⟩, hs, hboth⟩ := Option.map_eq_some_iff.mp hrun
  obtain ⟨hfound, hrefused⟩ := Prod.mk.inj hboth
  obtain ⟨⟨idx, pos⟩, hfind, hpos⟩ := Option.map_eq_some_iff.mp hfound
  obtain ⟨hless, hlev, hequity⟩ := of_decide_eq_true hpos
  exact ⟨s, h, idx, pos, hs, hfind, hless, hlev, not_le.mpr hequity, hrefused⟩

theorem removal_sound_iff_sol :
    ∃ s h idx pos, (simulation solMarkets 1000).run solOpened = some (s, h) ∧
      s.findPosition "SOL" .Long = some (idx, pos) ∧
      (((s.locked solMarkets (.removeCollateral (solFeed 200) 2 "SOL" .Long 10)).2 =
            [.collateralRemoved 10] ↔
          pos.sizeUsd / (pos.collateralUsd - 10) ≤ solMarkets.maxLeverage "SOL" ∧
            ¬ Liquidatable pos.side pos.entryPrice pos.sizeUsd (pos.collateralUsd - 10)
              pos.maintenanceMarginRate pos.closeFeeRate
              ((s.refreshPrices (solFeed 200)).currentPrice pos)) ↔
        Liquidatable pos.side pos.entryPrice pos.sizeUsd (pos.collateralUsd - 10)
            pos.maintenanceMarginRate pos.closeFeeRate
            ((s.refreshPrices (solFeed 200)).currentPrice pos) ∨
          (pos.sizeUsd / (pos.collateralUsd - 10) ≤ solMarkets.maxLeverage "SOL" ↔
            CoveredWithout pos 10 ∧ LiquidatableWithout pos 10)) := by
  have hrun : ((simulation solMarkets 1000).run solOpened).map (fun r =>
      (r.1.findPosition "SOL" .Long).map fun found => decide (10 < found.2.collateralUsd)) =
      some (some true) := by
    decide +kernel
  obtain ⟨⟨s, h⟩, hs, hfound⟩ := Option.map_eq_some_iff.mp hrun
  obtain ⟨⟨idx, pos⟩, hfind, hless⟩ := Option.map_eq_some_iff.mp hfound
  exact ⟨s, h, idx, pos, hs, hfind,
    removal_sound_iff (Machine.reachable_of_run hs) hfind (solFeed 200) 2 (by norm_num)
      (of_decide_eq_true hless)⟩

end SimulatedFlashClient

end FlashEdge
