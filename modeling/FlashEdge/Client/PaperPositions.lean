import FlashEdge.Client.SimulationLedger

/-!
# The positions of the paper client

What is true of every position the paper client holds, whatever has been opened, merged,
closed in part, and put in or taken out before: size, collateral and entry price are positive,
the leverage is the size over the collateral, and the rates it was opened with are not
negative. No market and side has two positions.

- `unrealizedPnl`: what `getPositions` shows as profit.
- `LivePosition`: the invariant of one position.
- `Change`: the ways in which an operation changes the list of positions.
- `change_step`: every step is one of them.
- `paper_reachable`: the invariant of all positions over every run.
-/

namespace FlashEdge

namespace SimulatedFlashClient

def pnlMultiplier : TradeSide → ℚ
  | .Long => 1
  | .Short => -1

/-- The profit of a position at a price, as it is shown and settled. -/
def unrealizedPnl (side : TradeSide) (entryPrice sizeUsd currentPrice : ℚ) : ℚ :=
  if 0 < entryPrice then (currentPrice - entryPrice) / entryPrice * sizeUsd * pnlMultiplier side
  else 0

/-- What holds of a position as long as it is open. -/
structure LivePosition (p : SimulatedPosition) : Prop where
  entryPrice : 0 < p.entryPrice
  sizeUsd : 0 < p.sizeUsd
  collateralUsd : 0 < p.collateralUsd
  leverage : p.leverage = p.sizeUsd / p.collateralUsd
  maintenanceMarginRate : 0 ≤ p.maintenanceMarginRate
  closeFeeRate : 0 ≤ p.closeFeeRate

/-- Every position is live, and no market and side has two. -/
structure Paper (positions : List SimulatedPosition) : Prop where
  unique : (positions.map slot).Nodup
  live : ∀ p ∈ positions, LivePosition p

/-- What a step does to the list of positions. -/
inductive Change (ps : List SimulatedPosition) : List SimulatedPosition → Prop where
  | same : Change ps ps
  | set {p : SimulatedPosition → Bool} {idx : ℕ} {before after : List SimulatedPosition}
      {x y : SimulatedPosition} : FirstAt p ps idx before x after → slot y = slot x →
      (LivePosition x → LivePosition y) → Change ps (ps.set idx y)
  | erase (idx : ℕ) : Change ps (ps.eraseIdx idx)
  | snoc {y : SimulatedPosition} (market : String) : y.market = toUpperCase market →
      slot y ∉ ps.map slot → LivePosition y → Change ps (ps ++ [y])

theorem Paper.change {ps ps' : List SimulatedPosition} (hp : Paper ps) (hc : Change ps ps') :
    Paper ps' := by
  have hsound : Sound ps := ⟨hp.unique, fun p hmem =>
    ⟨(hp.live p hmem).sizeUsd, (hp.live p hmem).collateralUsd⟩⟩
  cases hc with
  | same => exact hp
  | @set p idx before after x y hat hslot hlive =>
    have hy := hlive (hp.live x hat.mem)
    refine ⟨(hsound.set hat hslot ⟨hy.sizeUsd, hy.collateralUsd⟩).unique, fun q hq => ?_⟩
    rw [hat.set y, List.mem_append, List.mem_cons] at hq
    rcases hq with hbefore | rfl | hafter
    · exact hp.live q (hat.split ▸ List.mem_append_left _ hbefore)
    · exact hy
    · exact hp.live q (hat.split ▸ List.mem_append_right _ (List.mem_cons_of_mem _ hafter))
  | erase idx =>
    exact ⟨(hsound.eraseIdx idx).unique, fun q hq => hp.live q (List.mem_of_mem_eraseIdx hq)⟩
  | @snoc y market hmarket hfree hy =>
    refine ⟨(hsound.snoc hfree ⟨hy.sizeUsd, hy.collateralUsd⟩).unique, fun q hq => ?_⟩
    rcases List.mem_append.mp hq with hold | hnew
    · exact hp.live q hold
    · rw [List.mem_singleton] at hnew
      exact hnew ▸ hy

/-! ## What each operation does to a position -/

/-- With a positive liquidation price the entry price is positive and no rate negative. -/
theorem of_calcLiquidationPrice_pos {entryPrice leverage maintenanceMarginRate closeFeeRate : ℚ}
    {side : TradeSide}
    (h : 0 < calcLiquidationPrice entryPrice leverage side maintenanceMarginRate closeFeeRate) :
    0 < entryPrice ∧ 0 ≤ maintenanceMarginRate ∧ 0 ≤ closeFeeRate := by
  unfold calcLiquidationPrice at h
  split at h
  · exact absurd h (lt_irrefl 0)
  · next hargs =>
    unfold computeSimulationLiquidationPrice at h
    split at h
    · exact absurd h (lt_irrefl 0)
    · split at h
      · exact absurd h (lt_irrefl 0)
      · next hmargin =>
        split at h
        · exact absurd h (lt_irrefl 0)
        · next hfee =>
          refine ⟨?_, not_lt.mp hmargin, not_lt.mp hfee⟩
          simp only [Bool.or_eq_true, decide_eq_true_eq, not_or, not_le] at hargs
          exact hargs.2

/-- What an open that passes its checks has found. -/
theorem quoteOpen_live {m : Markets} {s : SimulatedFlashClient} {feeRates : ProtocolFeeRates}
    {market : String} {side : TradeSide} {collateralAmount leverage : ℚ} {q : OpenQuote}
    (hq : quoteOpen m s feeRates market side collateralAmount leverage = .ok q) :
    0 < q.fillPrice ∧ 0 < leverage ∧ q.sizeUsd = collateralAmount * leverage ∧
      0 ≤ feeRates.maintenanceMarginRate ∧ 0 ≤ feeRates.closeFeeRate := by
  have hpos := quoteOpen_ok hq
  unfold quoteOpen at hq
  dsimp only at hq
  split at hq
  · cases hq
  · split at hq
    · cases hq
    · split at hq
      · cases hq
      · split at hq
        · cases hq
        · next hliq =>
          split at hq
          · cases hq
          · obtain rfl := Except.ok.inj hq
            obtain ⟨-, hliq⟩ := not_or.mp hliq
            obtain ⟨hfill, hmargin, hfee⟩ := of_calcLiquidationPrice_pos (not_le.mp hliq)
            have hlev : 0 < leverage := (mul_pos_iff_of_pos_left hpos.1).mp hpos.2.1
            exact ⟨hfill, hlev, rfl, hmargin, hfee⟩

/-- The size-weighted average of two positive prices is positive. -/
theorem live_mergePosition {existing : SimulatedPosition}
    {collateralAmount leverage sizeUsd fillPrice openFee : ℚ} (feeRates : ProtocolFeeRates)
    (hx : LivePosition existing) (hcollateral : 0 < collateralAmount) (hsize : 0 < sizeUsd)
    (hfill : 0 < fillPrice) :
    LivePosition (mergePosition existing collateralAmount leverage sizeUsd fillPrice openFee
      feeRates) := by
  have htotal : 0 < existing.sizeUsd + sizeUsd := add_pos hx.sizeUsd hsize
  have hcoll : 0 < existing.collateralUsd + collateralAmount := add_pos hx.collateralUsd hcollateral
  have hlev : 0 < (existing.sizeUsd + sizeUsd) / (existing.collateralUsd + collateralAmount) :=
    div_pos htotal hcoll
  refine ⟨?_, htotal, hcoll, ?_, hx.maintenanceMarginRate, hx.closeFeeRate⟩
  · unfold mergePosition
    dsimp only
    rw [if_pos htotal]
    exact div_pos (add_pos (mul_pos hx.entryPrice hx.sizeUsd) (mul_pos hfill hsize)) htotal
  · unfold mergePosition
    dsimp only
    rw [if_pos hcoll, if_pos hlev]

theorem live_withCollateral {p : SimulatedPosition} {collateralUsd : ℚ} (hp : LivePosition p)
    (hcoll : 0 < collateralUsd) : LivePosition (withCollateral p collateralUsd) :=
  ⟨hp.entryPrice, hp.sizeUsd, hcoll, if_pos hcoll, hp.maintenanceMarginRate, hp.closeFeeRate⟩

/-- A close is in full, or takes a fraction below one, of the profit as of size and
collateral. -/
theorem settlement_cases (position : SimulatedPosition) (feeRates : ProtocolFeeRates)
    (price requested : ℚ) (isPartial : Bool) :
    ∃ f, ((settlement position feeRates price requested isPartial).full = true ∧ f = 1 ∨
        (settlement position feeRates price requested isPartial).full = false ∧ f = requested ∧
          f < 1) ∧
      (settlement position feeRates price requested isPartial).closedSizeUsd =
        position.sizeUsd * f ∧
      (settlement position feeRates price requested isPartial).closedCollateral =
        position.collateralUsd * f ∧
      (settlement position feeRates price requested isPartial).pnl =
        unrealizedPnl position.side position.entryPrice position.sizeUsd price * f := by
  unfold settlement
  dsimp only
  by_cases hnear : 999 / 1000 ≤ requested
  · have hfull : (!isPartial || decide (position.sizeUsd * (1 - (1 : ℚ)) < 1 / 2) ||
        decide ((1 : ℚ) ≤ 1)) = true := by simp
    rw [if_pos hnear, hfull]
    exact ⟨1, .inl ⟨rfl, rfl⟩, rfl, rfl, rfl⟩
  · rw [if_neg hnear]
    have hless : requested < 1 := lt_of_not_ge fun hge => hnear (le_trans (by norm_num) hge)
    generalize hfull : (!isPartial || decide (position.sizeUsd * (1 - requested) < 1 / 2) ||
      decide (1 ≤ requested)) = full
    cases full with
    | true => exact ⟨1, .inl ⟨rfl, rfl⟩, rfl, rfl, rfl⟩
    | false => exact ⟨requested, .inr ⟨rfl, rfl, hless⟩, rfl, rfl, rfl⟩

theorem live_reducedPosition {position : SimulatedPosition} {c : Settlement} {f : ℚ}
    (hp : LivePosition position) (hf : f < 1) (hsize : c.closedSizeUsd = position.sizeUsd * f)
    (hcoll : c.closedCollateral = position.collateralUsd * f) :
    LivePosition (reducedPosition position c) := by
  have hsize' : 0 < position.sizeUsd - c.closedSizeUsd := by
    rw [hsize, sub_pos]
    exact mul_lt_of_lt_one_right hp.sizeUsd hf
  have hcoll' : 0 < position.collateralUsd - c.closedCollateral := by
    rw [hcoll, sub_pos]
    exact mul_lt_of_lt_one_right hp.collateralUsd hf
  exact ⟨hp.entryPrice, hsize', hcoll', if_pos hcoll', hp.maintenanceMarginRate, hp.closeFeeRate⟩

/-! ## Every step -/

theorem change_openPosition {m : Markets} {s s' : SimulatedFlashClient}
    {feeRates : ProtocolFeeRates} {id : String} {now : ℚ} {market : String} {side : TradeSide}
    {collateralAmount leverage : ℚ} {r : OpenPositionResult} {q : OpenQuote}
    (ho : openPosition m s feeRates id now market side collateralAmount leverage = .ok (s', r, q)) :
    Change s.positions s'.positions := by
  unfold openPosition at ho
  split at ho
  · cases ho
  · next q' hq =>
    obtain ⟨rfl, -⟩ := Prod.mk.inj (Except.ok.inj ho)
    obtain ⟨hcollateral, hsize, -⟩ := quoteOpen_ok hq
    obtain ⟨hfill, hlev, hquote, hmargin, hfee⟩ := quoteOpen_live hq
    unfold applyOpen
    dsimp only
    split
    · next idx existing hfind =>
      obtain ⟨before, after, hat⟩ := findPosition_some hfind
      exact .set hat rfl fun hx => live_mergePosition feeRates hx hcollateral hsize hfill
    · next hfind =>
      refine .snoc market rfl (findPosition_none hfind) ⟨hfill, hsize, hcollateral, ?_, hmargin, hfee⟩
      show leverage = q'.sizeUsd / collateralAmount
      rw [hquote, mul_div_cancel_left₀ leverage hcollateral.ne']

theorem change_closePosition {s s' : SimulatedFlashClient} {feeRates : ProtocolFeeRates} {now : ℚ}
    {market : String} {side : TradeSide} {closePercent closeAmount : Option ℚ}
    {r : ClosePositionResult} {c : Settlement}
    (hc : s.closePosition feeRates now market side closePercent closeAmount = .ok (s', r, c)) :
    Change s.positions s'.positions := by
  unfold closePosition at hc
  split at hc
  · cases hc
  · next idx position hfind =>
    split at hc
    · cases hc
    · next price hprice =>
      split at hc
      · cases hc
      · next requested hrequested =>
        obtain ⟨rfl, -⟩ := Prod.mk.inj (Except.ok.inj hc)
        obtain ⟨before, after, hat⟩ := findPosition_some hfind
        obtain ⟨f, hpart, hsize, hcoll, -⟩ := settlement_cases position feeRates price requested
          (isPartialRequest closePercent closeAmount)
        show Change s.positions (if _ then _ else _)
        rcases hpart with ⟨hfull, -⟩ | ⟨hnot, -, hf⟩
        · rw [if_pos hfull]
          exact .erase idx
        · rw [if_neg (Bool.eq_false_iff.mp hnot)]
          exact .set hat rfl fun hx => live_reducedPosition hx hf hsize hcoll

theorem change_addCollateral {s s' : SimulatedFlashClient} {now amount : ℚ} {market : String}
    {side : TradeSide} {r : CollateralResult}
    (ha : s.addCollateral now market side amount = .ok (s', r)) :
    Change s.positions s'.positions := by
  unfold addCollateral at ha
  split at ha
  · cases ha
  · next hamount =>
    split at ha
    · cases ha
    · split at ha
      · cases ha
      · next idx pos hfind =>
        obtain ⟨rfl, -⟩ := Prod.mk.inj (Except.ok.inj ha)
        obtain ⟨before, after, hat⟩ := findPosition_some hfind
        refine .set hat rfl fun hx => live_withCollateral hx ?_
        exact add_pos hx.collateralUsd (not_le.mp hamount)

theorem change_removeCollateral {s s' : SimulatedFlashClient} {now amount : ℚ} {market : String}
    {side : TradeSide} {r : CollateralResult}
    (hr : s.removeCollateral now market side amount = .ok (s', r)) :
    Change s.positions s'.positions := by
  unfold removeCollateral at hr
  split at hr
  · cases hr
  · next idx pos hfind =>
    split at hr
    · cases hr
    · next hrest =>
      dsimp only at hr
      generalize (if 0 < pos.collateralUsd - amount then _ else 0 : ℚ) = newLev at hr
      split at hr
      · cases hr
      · obtain ⟨rfl, -⟩ := Prod.mk.inj (Except.ok.inj hr)
        obtain ⟨before, after, hat⟩ := findPosition_some hfind
        exact .set hat rfl fun hx => live_withCollateral hx (sub_pos.mpr (not_le.mp hrest))

/-- Take profit and stop loss are none of the invariant's business. -/
theorem change_setTrigger {s : SimulatedFlashClient} {market : String} {side : TradeSide} {idx : ℕ}
    {pos : SimulatedPosition} (hfind : s.findPosition market side = some (idx, pos))
    (tp sl : Option ℚ) :
    Change s.positions (s.positions.set idx { pos with takeProfit := tp, stopLoss := sl }) := by
  obtain ⟨before, after, hat⟩ := findPosition_some hfind
  exact .set hat rfl fun hx => ⟨hx.entryPrice, hx.sizeUsd, hx.collateralUsd, hx.leverage,
    hx.maintenanceMarginRate, hx.closeFeeRate⟩

theorem change_triggerNext (s : SimulatedFlashClient) (feed : PriceFeed)
    (feeRates : ProtocolFeeRates) (now : ℚ) (i : ℕ) :
    Change s.positions (s.triggerNext feed feeRates now i).1.positions := by
  have hsame := (sameAccount_refreshPrices s feed).positions
  cases i with
  | zero => exact .same
  | succ i =>
    unfold triggerNext
    dsimp only
    split
    · exact .same
    · split
      · next hclose =>
        have hchange := change_closePosition hclose
        rw [hsame] at hchange
        exact hchange
      · exact hsame ▸ .same

theorem change_locked (m : Markets) (s : SimulatedFlashClient) (a : Action) :
    Change s.positions (s.locked m a).1.positions := by
  cases a with
  | openPosition feed feeRates id now market side collateralAmount leverage =>
    have hsame := (sameAccount_refreshPrices s feed).positions
    unfold locked
    dsimp only
    split
    · next hopen =>
      have hchange := change_openPosition hopen
      rw [hsame] at hchange
      exact hchange
    · exact hsame ▸ .same
  | closePosition feed feeRates now market side closePercent closeAmount =>
    have hsame := (sameAccount_refreshPrices s feed).positions
    unfold locked
    dsimp only
    split
    · next hclose =>
      have hchange := change_closePosition hclose
      rw [hsame] at hchange
      exact hchange
    · exact hsame ▸ .same
  | addCollateral now market side amount =>
    unfold locked
    dsimp only
    split
    · next hadd => exact change_addCollateral hadd
    · exact .same
  | removeCollateral feed now market side amount =>
    have hsame := (sameAccount_refreshPrices s feed).positions
    unfold locked
    dsimp only
    split
    · exact .same
    · split
      · next hremove =>
        have hchange := change_removeCollateral hremove
        rw [hsame] at hchange
        exact hchange
      · exact hsame ▸ .same
  | checkTpSlTriggers => exact .same
  | refreshPrices feed => exact .same
  | setTpSl market side tp sl => exact .same
  | removeTpSl market side => exact .same
  | triggerNext feed feeRates now => exact .same

/-- What every step does to the list of positions. -/
theorem change_step {m : Markets} {s s' : SimulatedFlashClient} {es : List Event} {a : Action}
    (hs : s.step m a = some (s', es)) : Change s.positions s'.positions := by
  have hlocked : (if s.triggerIndex.isNone then some (s.locked m a) else none) = some (s', es) →
      Change s.positions s'.positions := by
    intro hs
    split at hs
    · obtain ⟨rfl, -⟩ := Machine.some_pair hs
      exact change_locked m s a
    · cases hs
  cases a with
  | refreshPrices feed =>
    obtain ⟨rfl, -⟩ := Machine.some_pair hs
    exact (sameAccount_refreshPrices s feed).positions ▸ .same
  | setTpSl market side tp sl =>
    obtain ⟨rfl, -⟩ := Machine.some_pair hs
    unfold setTpSl
    split
    · exact .same
    · next hfind => exact change_setTrigger hfind _ _
  | removeTpSl market side =>
    obtain ⟨rfl, -⟩ := Machine.some_pair hs
    unfold removeTpSl
    split
    · exact .same
    · next hfind => exact change_setTrigger hfind _ _
  | triggerNext feed feeRates now =>
    rw [step] at hs
    split at hs
    · next i hi =>
      obtain ⟨rfl, -⟩ := Machine.some_pair hs
      exact change_triggerNext s feed feeRates now i
    · cases hs
  | openPosition feed feeRates id now market side collateralAmount leverage => exact hlocked hs
  | closePosition feed feeRates now market side closePercent closeAmount => exact hlocked hs
  | addCollateral now market side amount => exact hlocked hs
  | removeCollateral feed now market side amount => exact hlocked hs
  | checkTpSlTriggers => exact hlocked hs

/-- Over every run, of whatever requests, every position is live. -/
theorem paper_reachable {m : Markets} {initialBalance : ℚ} {s : SimulatedFlashClient}
    {h : List Event} (hr : (simulation m initialBalance).Reachable s h) : Paper s.positions := by
  refine hr.invariant (I := fun s _ => Paper s.positions) ?_ ?_
  · exact ⟨List.nodup_nil, fun p hp => absurd hp List.not_mem_nil⟩
  · exact fun hp hs => hp.change (change_step hs)

end SimulatedFlashClient

end FlashEdge
