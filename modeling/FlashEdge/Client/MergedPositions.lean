import Mathlib.Tactic.FieldSimp
import Mathlib.Tactic.Ring
import FlashEdge.Client.PaperPositions

/-!
# Merging into an open position

A further open of a market and side is merged into the position that is there: size and
collateral are added, and the entry price becomes the average of the two fills, weighted by
size in dollars. The profit of a position is its size in dollars times the relative move of
the price, so the entry price that adds up is the harmonic mean.

- `pnl_average_iff`: when the average of two entry prices gives the profit of the two.
- `merged_pnl_iff`: merging keeps the profit exactly when the two fills have one price.
-/

namespace FlashEdge

namespace SimulatedFlashClient

/-- The size-weighted average of two prices, at any one price, gives the profit of the two
fills only where the two prices are the same. -/
theorem pnl_average_iff {e₁ e₂ s₁ s₂ price : ℚ} (he₁ : 0 < e₁) (he₂ : 0 < e₂) (hs₁ : 0 < s₁)
    (hs₂ : 0 < s₂) (hprice : 0 < price) (side : TradeSide) :
    unrealizedPnl side ((e₁ * s₁ + e₂ * s₂) / (s₁ + s₂)) (s₁ + s₂) price =
        unrealizedPnl side e₁ s₁ price + unrealizedPnl side e₂ s₂ price ↔ e₂ = e₁ := by
  have hsum : 0 < s₁ + s₂ := add_pos hs₁ hs₂
  have hvalue : 0 < e₁ * s₁ + e₂ * s₂ := add_pos (mul_pos he₁ hs₁) (mul_pos he₂ hs₂)
  have hmult : pnlMultiplier side ≠ 0 := by
    cases side with
    | Long => exact one_ne_zero
    | Short => exact neg_ne_zero.mpr one_ne_zero
  unfold unrealizedPnl
  rw [if_pos he₁, if_pos he₂, if_pos (div_pos hvalue hsum)]
  -- what is missing is the square of the difference of the two prices
  have hgap : ((price - e₁) / e₁ * s₁ * pnlMultiplier side +
        (price - e₂) / e₂ * s₂ * pnlMultiplier side) -
      (price - (e₁ * s₁ + e₂ * s₂) / (s₁ + s₂)) / ((e₁ * s₁ + e₂ * s₂) / (s₁ + s₂)) * (s₁ + s₂) *
        pnlMultiplier side =
      price * s₁ * s₂ * pnlMultiplier side / (e₁ * e₂ * (e₁ * s₁ + e₂ * s₂)) * (e₂ - e₁) ^ 2 := by
    field_simp
    ring
  have hcoeff : price * s₁ * s₂ * pnlMultiplier side / (e₁ * e₂ * (e₁ * s₁ + e₂ * s₂)) ≠ 0 := by
    refine div_ne_zero (mul_ne_zero ?_ hmult) ?_
    · exact (mul_pos (mul_pos hprice hs₁) hs₂).ne'
    · exact (mul_pos (mul_pos he₁ he₂) hvalue).ne'
  rw [eq_comm, ← sub_eq_zero, hgap, mul_eq_zero, or_iff_right hcoeff, sq_eq_zero_iff, sub_eq_zero]

/-- What a further open leaves of the position that is there. -/
theorem openPosition_merges {m : Markets} {s s' : SimulatedFlashClient}
    {feeRates : ProtocolFeeRates} {id : String} {now : ℚ} {market : String} {side : TradeSide}
    {collateralAmount leverage : ℚ} {r : OpenPositionResult} {q : OpenQuote} {idx : ℕ}
    {existing : SimulatedPosition}
    (ho : openPosition m s feeRates id now market side collateralAmount leverage = .ok (s', r, q))
    (hfind : s.findPosition market side = some (idx, existing)) :
    s'.positions[idx]? = some (mergePosition existing collateralAmount leverage q.sizeUsd
      q.fillPrice q.openFee feeRates) := by
  unfold openPosition at ho
  split at ho
  · cases ho
  · next q' hq =>
    obtain ⟨rfl, hrest⟩ := Prod.mk.inj (Except.ok.inj ho)
    obtain ⟨-, rfl⟩ := Prod.mk.inj hrest
    obtain ⟨before, after, hat⟩ := findPosition_some hfind
    unfold applyOpen
    rw [hfind]
    show (s.positions.set idx _)[idx]? = _
    rw [hat.set, ← hat.length]
    simp

/-- **Merging keeps the profit exactly where the fills have one price.** In every reachable
state, a further open of a market and side adds its size and collateral to the position that
is there; the merged position has at every price the profit of the old one and of the new
one, exactly when the fill price is the entry price. -/
theorem merged_pnl_iff {m : Markets} {initialBalance : ℚ} {s s' : SimulatedFlashClient}
    {h : List Event} (hr : (simulation m initialBalance).Reachable s h)
    {feeRates : ProtocolFeeRates} {id : String} {now : ℚ} {market : String} {side : TradeSide}
    {collateralAmount leverage : ℚ} {r : OpenPositionResult} {q : OpenQuote} {idx : ℕ}
    {existing : SimulatedPosition} (hfind : s.findPosition market side = some (idx, existing))
    (ho : openPosition m s feeRates id now market side collateralAmount leverage = .ok (s', r, q)) :
    ∃ merged, s'.positions[idx]? = some merged ∧
      merged.sizeUsd = existing.sizeUsd + q.sizeUsd ∧
      merged.collateralUsd = existing.collateralUsd + collateralAmount ∧
      ((∀ price, 0 < price →
          unrealizedPnl merged.side merged.entryPrice merged.sizeUsd price =
            unrealizedPnl existing.side existing.entryPrice existing.sizeUsd price +
              unrealizedPnl side q.fillPrice q.sizeUsd price) ↔
        q.fillPrice = existing.entryPrice) := by
  obtain ⟨before, after, hat⟩ := findPosition_some hfind
  have hlive := (paper_reachable hr).live existing hat.mem
  have hside : existing.side = side := by
    have hslot := hat.holds
    simp only [atSlot, Bool.and_eq_true, decide_eq_true_eq] at hslot
    exact hslot.2
  have hquote : quoteOpen m s feeRates market side collateralAmount leverage = .ok q := by
    unfold openPosition at ho
    split at ho
    · cases ho
    · next q' hq =>
      rw [hq]
      exact congrArg Except.ok (Prod.mk.inj (Prod.mk.inj (Except.ok.inj ho)).2).2
  have hsize := (quoteOpen_ok hquote).2.1
  have hfill := (quoteOpen_live hquote).1
  refine ⟨_, openPosition_merges ho hfind, rfl, rfl, ?_⟩
  have hentry : (mergePosition existing collateralAmount leverage q.sizeUsd q.fillPrice q.openFee
      feeRates).entryPrice =
      (existing.entryPrice * existing.sizeUsd + q.fillPrice * q.sizeUsd) /
        (existing.sizeUsd + q.sizeUsd) := if_pos (add_pos hlive.sizeUsd hsize)
  have haverage : ∀ price, 0 < price →
      (unrealizedPnl existing.side (mergePosition existing collateralAmount leverage q.sizeUsd
          q.fillPrice q.openFee feeRates).entryPrice (existing.sizeUsd + q.sizeUsd) price =
        unrealizedPnl existing.side existing.entryPrice existing.sizeUsd price +
          unrealizedPnl side q.fillPrice q.sizeUsd price ↔ q.fillPrice = existing.entryPrice) := by
    intro price hprice
    rw [hentry, ← hside]
    exact pnl_average_iff hlive.entryPrice hfill hlive.sizeUsd hsize hprice existing.side
  constructor
  · exact fun hall => (haverage 1 one_pos).mp (hall 1 one_pos)
  · exact fun hsame price hprice => (haverage price hprice).mpr hsame

/-- The price of SOL, as the primary source answers it. -/
def solFeed (price : ℚ) : PriceFeed :=
  { primary := some [("SOL", { price := .finite price, priceChange24h := 0 })], secondary := none }

def solRates : ProtocolFeeRates :=
  { openFeeRate := 1 / 1000, closeFeeRate := 1 / 1000, maintenanceMarginRate := 1 / 100 }

/-- Markets with a maximum leverage of a hundred, on which nothing slips. -/
def solMarkets : Markets := ⟨fun _ => 100, fun _ => 0⟩

/-- Five hundred dollars of SOL are opened at a price of 100, which then is 200. -/
def solOpened : List Action :=
  [.openPosition (solFeed 100) solRates "a" 0 "SOL" .Long 100 5, .refreshPrices (solFeed 200)]

theorem merged_pnl_iff_sol :
    ∃ s h s' r q idx existing, (simulation solMarkets 1000).run solOpened = some (s, h) ∧
      s.findPosition "SOL" .Long = some (idx, existing) ∧
      openPosition solMarkets s solRates "b" 1 "SOL" .Long 100 5 = .ok (s', r, q) ∧
      ∃ merged, s'.positions[idx]? = some merged ∧
        merged.sizeUsd = existing.sizeUsd + q.sizeUsd ∧
        merged.collateralUsd = existing.collateralUsd + 100 ∧
        ((∀ price, 0 < price →
            unrealizedPnl merged.side merged.entryPrice merged.sizeUsd price =
              unrealizedPnl existing.side existing.entryPrice existing.sizeUsd price +
                unrealizedPnl .Long q.fillPrice q.sizeUsd price) ↔
          q.fillPrice = existing.entryPrice) := by
  have hrun : ((simulation solMarkets 1000).run solOpened).map (fun r =>
      ((r.1.findPosition "SOL" .Long).isSome,
        (openPosition solMarkets r.1 solRates "b" 1 "SOL" .Long 100 5).toOption.isSome)) =
      some (true, true) := by
    decide +kernel
  obtain ⟨⟨s, h⟩, hs, hboth⟩ := Option.map_eq_some_iff.mp hrun
  obtain ⟨hfound, hopened⟩ := Prod.mk.inj hboth
  obtain ⟨⟨idx, existing⟩, hfind⟩ := Option.isSome_iff_exists.mp hfound
  cases hopen : openPosition solMarkets s solRates "b" 1 "SOL" .Long 100 5 with
  | error error =>
    rw [hopen] at hopened
    cases hopened
  | ok result =>
    obtain ⟨s', r, q⟩ := result
    exact ⟨s, h, s', r, q, idx, existing, hs, hfind, hopen,
      merged_pnl_iff (Machine.reachable_of_run hs) hfind hopen⟩

/-- A further open of five hundred dollars then: the position before, the quote, and the
position after. -/
def openedTwice : Option (SimulatedPosition × OpenQuote × SimulatedPosition) := do
  let (s, _) ← (simulation solMarkets 1000).run solOpened
  let (idx, existing) ← s.findPosition "SOL" .Long
  let (s', _, q) ← (openPosition solMarkets s solRates "b" 1 "SOL" .Long 100 5).toOption
  let merged ← s'.positions[idx]?
  some (existing, q, merged)

/-- At a price of 200 the two are worth a profit of 500, and the merged position shows a
third of 1000. -/
theorem merging_loses_pnl :
    ∃ existing q merged, openedTwice = some (existing, q, merged) ∧
      unrealizedPnl merged.side merged.entryPrice merged.sizeUsd 200 = 1000 / 3 ∧
      unrealizedPnl existing.side existing.entryPrice existing.sizeUsd 200 +
        unrealizedPnl .Long q.fillPrice q.sizeUsd 200 = 500 := by
  have hrun : openedTwice.map (fun r =>
      (unrealizedPnl r.2.2.side r.2.2.entryPrice r.2.2.sizeUsd 200,
        unrealizedPnl r.1.side r.1.entryPrice r.1.sizeUsd 200 +
          unrealizedPnl .Long r.2.1.fillPrice r.2.1.sizeUsd 200)) = some (1000 / 3, 500) := by
    decide +kernel
  obtain ⟨⟨existing, q, merged⟩, htwice, hpnl⟩ := Option.map_eq_some_iff.mp hrun
  obtain ⟨hmerged, hboth⟩ := Prod.mk.inj hpnl
  exact ⟨existing, q, merged, htwice, hmerged, hboth⟩

end SimulatedFlashClient

end FlashEdge
