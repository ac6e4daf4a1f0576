import FlashEdge.Client.MergedPositions

/-!
# Closing in parts

A close prorates collateral, profit and fee by the part it closes, so what a position still
has to bring goes down in proportion, and what has been paid out so far together with it stays
the same. That is the invariant of a list of closes at one price.

- `Totals`: balance, realized PnL and fees; `totalsAfterClose`: what they are once all of a
  position is closed.
- `closeAll`: the requests one after another.
- `settlement_parts`: a settlement is the part of the whole.
- `close_step`: one close keeps `totalsAfterClose`, or reaches it.
- `partialCloses_add_up`: a list of closes that covers the position ends where one close ends.
-/

namespace FlashEdge

namespace SimulatedFlashClient

/-- What a client has made of its trades. -/
structure Totals where
  balance : ℚ
  realizedPnl : ℚ
  feesPaid : ℚ
deriving DecidableEq

def totals (s : SimulatedFlashClient) : Totals := ⟨s.balance, s.totalRealizedPnl, s.totalFeesPaid⟩

section

variable (feeRates : ProtocolFeeRates) (price : ℚ)

/-- What closing all of a position pays back. -/
def closeReturn (pos : SimulatedPosition) : ℚ :=
  pos.collateralUsd + unrealizedPnl pos.side pos.entryPrice pos.sizeUsd price -
    calcFeeUsd pos.sizeUsd feeRates.closeFeeRate

/-- The totals once all of a position is closed. -/
def totalsAfterClose (s : SimulatedFlashClient) (pos : SimulatedPosition) : Totals :=
  ⟨s.balance + closeReturn feeRates price pos,
    s.totalRealizedPnl + unrealizedPnl pos.side pos.entryPrice pos.sizeUsd price,
    s.totalFeesPaid + calcFeeUsd pos.sizeUsd feeRates.closeFeeRate⟩

end

/-- A request to close, with the answers to the refresh before it. -/
structure CloseRequest where
  feed : PriceFeed
  now : ℚ
  closePercent : Option ℚ
  closeAmount : Option ℚ

/-- Neither the percentage nor the amount is negative. -/
def CloseRequest.Valid (c : CloseRequest) : Prop :=
  (∀ percent, c.closePercent = some percent → 0 ≤ percent) ∧
    ∀ amount, c.closeAmount = some amount → 0 ≤ amount

/-- The requests carried out one after another, all at one price and fee rates. -/
def closeAll (feeRates : ProtocolFeeRates) (market : String) (side : TradeSide) (price : ℚ) :
    SimulatedFlashClient → List CloseRequest → Option SimulatedFlashClient
  | s, [] => some s
  | s, c :: cs =>
    let s := s.refreshPrices c.feed
    match s.getPrice market, s.closePosition feeRates c.now market side c.closePercent
      c.closeAmount with
    | .ok p, .ok (s, _, _) => if p = price then closeAll feeRates market side price s cs else none
    | _, _ => none

/-- The first close, and those after it. -/
theorem closeAll_cons {feeRates : ProtocolFeeRates} {market : String} {side : TradeSide} {price : ℚ}
    {s s' : SimulatedFlashClient} {c : CloseRequest} {cs : List CloseRequest}
    (h : closeAll feeRates market side price s (c :: cs) = some s') :
    ∃ s₁ r settled, (s.refreshPrices c.feed).getPrice market = .ok price ∧
      (s.refreshPrices c.feed).closePosition feeRates c.now market side c.closePercent
        c.closeAmount = .ok (s₁, r, settled) ∧
      closeAll feeRates market side price s₁ cs = some s' := by
  rw [closeAll] at h
  split at h
  · next p s₁ r settled hprice hc =>
    split at h
    · next heq => exact ⟨s₁, r, settled, heq ▸ hprice, hc, h⟩
    · cases h
  · cases h

/-! ## One settlement -/

theorem calcFeeUsd_part {sizeUsd f : ℚ} (hs : 0 < sizeUsd) (hf : 0 ≤ f) (feeRate : ℚ) :
    calcFeeUsd (sizeUsd * f) feeRate = calcFeeUsd sizeUsd feeRate * f := by
  unfold calcFeeUsd
  by_cases hrate : feeRate ≤ 0
  · simp [hrate]
  · rcases hf.eq_or_lt with rfl | hpos
    · simp
    · have hpart : ¬ sizeUsd * f ≤ 0 := not_le.mpr (mul_pos hs hpos)
      simp only [hpart, hrate, not_le.mpr hs, decide_false, Bool.or_self, Bool.false_eq_true,
        if_false]
      ring

theorem unrealizedPnl_part (side : TradeSide) (entryPrice sizeUsd price f : ℚ) :
    unrealizedPnl side entryPrice (sizeUsd * f) price =
      unrealizedPnl side entryPrice sizeUsd price * f := by
  unfold unrealizedPnl
  split
  · ring
  · rw [zero_mul]

theorem requestedFraction_nonneg {sizeUsd requested : ℚ} {closePercent closeAmount : Option ℚ}
    (hsize : 0 < sizeUsd) (hpercent : ∀ percent, closePercent = some percent → 0 ≤ percent)
    (hamount : ∀ amount, closeAmount = some amount → 0 ≤ amount)
    (hreq : requestedFraction sizeUsd closePercent closeAmount = .ok requested) :
    0 ≤ requested := by
  have hofAmount : requestedFraction.ofAmount sizeUsd closeAmount = .ok requested →
      0 ≤ requested := by
    intro hof
    cases closeAmount with
    | none =>
      obtain rfl := Except.ok.inj hof
      exact zero_le_one
    | some amount =>
      change (if sizeUsd < amount then _ else _) = _ at hof
      split at hof
      · cases hof
      · obtain rfl := Except.ok.inj hof
        exact div_nonneg (hamount amount rfl) hsize.le
  cases closePercent with
  | none => exact hofAmount hreq
  | some percent =>
    change (if percent < 100 then _ else _) = _ at hreq
    split at hreq
    · obtain rfl := Except.ok.inj hreq
      exact div_nonneg (hpercent percent rfl) (by norm_num)
    · exact hofAmount hreq

/-- A settlement is in full, or is a part below one; profit and fee are this part of the
whole. -/
theorem settlement_parts {position : SimulatedPosition} (hlive : LivePosition position)
    (feeRates : ProtocolFeeRates) (price : ℚ) {requested : ℚ} (hreq : 0 ≤ requested)
    (isPartial : Bool) :
    ∃ f, 0 ≤ f ∧ ((settlement position feeRates price requested isPartial).full = true ∧ f = 1 ∨
        (settlement position feeRates price requested isPartial).full = false ∧ f < 1) ∧
      (settlement position feeRates price requested isPartial).closedSizeUsd =
        position.sizeUsd * f ∧
      (settlement position feeRates price requested isPartial).closedCollateral =
        position.collateralUsd * f ∧
      (settlement position feeRates price requested isPartial).pnl =
        unrealizedPnl position.side position.entryPrice position.sizeUsd price * f ∧
      (settlement position feeRates price requested isPartial).closeFee =
        calcFeeUsd position.sizeUsd feeRates.closeFeeRate * f := by
  obtain ⟨f, hpart, hsize, hcoll, hpnl⟩ :=
    settlement_cases position feeRates price requested isPartial
  have hf : 0 ≤ f := by
    rcases hpart with ⟨-, rfl⟩ | ⟨-, rfl, -⟩
    · exact zero_le_one
    · exact hreq
  have hscaled : (settlement position feeRates price requested isPartial).closeFee =
      calcFeeUsd (settlement position feeRates price requested isPartial).closedSizeUsd
        feeRates.closeFeeRate := rfl
  refine ⟨f, hf, ?_, hsize, hcoll, hpnl, ?_⟩
  · exact hpart.imp id fun h => ⟨h.1, h.2.2⟩
  · rw [hscaled, hsize, calcFeeUsd_part hlive.sizeUsd hf]

/-- What a part below one leaves: the rest in size and collateral, at the same leverage. -/
theorem reducedPosition_part {pos : SimulatedPosition} (hlive : LivePosition pos)
    {settled : Settlement} {f : ℚ} (hsize : settled.closedSizeUsd = pos.sizeUsd * f)
    (hcoll : settled.closedCollateral = pos.collateralUsd * f) (hless : f < 1) :
    (reducedPosition pos settled).sizeUsd = pos.sizeUsd * (1 - f) ∧
      (reducedPosition pos settled).collateralUsd = pos.collateralUsd * (1 - f) ∧
      (reducedPosition pos settled).leverage = pos.leverage := by
  have hrest : (reducedPosition pos settled).sizeUsd = pos.sizeUsd * (1 - f) := by
    show pos.sizeUsd - settled.closedSizeUsd = _
    rw [hsize]
    ring
  have hrestColl : (reducedPosition pos settled).collateralUsd = pos.collateralUsd * (1 - f) := by
    show pos.collateralUsd - settled.closedCollateral = _
    rw [hcoll]
    ring
  refine ⟨hrest, hrestColl, ?_⟩
  show (if 0 < (reducedPosition pos settled).collateralUsd then
    (reducedPosition pos settled).sizeUsd / (reducedPosition pos settled).collateralUsd else 0) = _
  have hpositive : 0 < 1 - f := sub_pos.mpr hless
  rw [hrest, hrestColl, if_pos (mul_pos hlive.collateralUsd hpositive), hlive.leverage]
  exact mul_div_mul_right _ _ hpositive.ne'

/-- A position of which a part is left pays back this part. -/
theorem closeReturn_part {pos pos' : SimulatedPosition} (hlive : LivePosition pos)
    (feeRates : ProtocolFeeRates) (price : ℚ) {g : ℚ} (hg : 0 ≤ g) (hside : pos'.side = pos.side)
    (hentry : pos'.entryPrice = pos.entryPrice) (hsize : pos'.sizeUsd = pos.sizeUsd * g)
    (hcoll : pos'.collateralUsd = pos.collateralUsd * g) :
    closeReturn feeRates price pos' = closeReturn feeRates price pos * g := by
  unfold closeReturn
  rw [hside, hentry, hsize, hcoll, calcFeeUsd_part hlive.sizeUsd hg, unrealizedPnl_part]
  ring

/-! ## One close -/

/-- What a refresh leaves of the position at a slot. -/
theorem findPosition_refresh (s : SimulatedFlashClient) (feed : PriceFeed) (market : String)
    (side : TradeSide) :
    (s.refreshPrices feed).findPosition market side = s.findPosition market side := by
  unfold SimulatedFlashClient.findPosition SimulatedFlashClient.positionIndex
  rw [(sameAccount_refreshPrices s feed).positions]

/-- A position that is overwritten in place is found again. -/
theorem findPosition_set {s s' : SimulatedFlashClient} {market : String} {side : TradeSide}
    {idx : ℕ} {pos pos' : SimulatedPosition}
    (hfind : s.findPosition market side = some (idx, pos)) (hslot : slot pos' = slot pos)
    (hset : s'.positions = s.positions.set idx pos') :
    s'.findPosition market side = some (idx, pos') := by
  obtain ⟨before, after, hat⟩ := findPosition_some hfind
  have hholds : atSlot market side pos' = true := by
    obtain ⟨hmarket, hside⟩ := Prod.mk.inj hslot
    unfold atSlot
    rw [hmarket, hside]
    exact hat.holds
  have hindex : s'.positionIndex market side = some idx := by
    unfold SimulatedFlashClient.positionIndex
    rw [hset, hat.set, List.findIdx?_append,
      List.findIdx?_eq_none_iff.mpr fun p hp => hat.first p hp, Option.none_or,
      List.findIdx?_cons, if_pos hholds]
    exact congrArg some ((Nat.zero_add _).trans hat.length)
  unfold SimulatedFlashClient.findPosition
  rw [hindex, Option.bind_some, hset, hat.set, ← hat.length]
  simp

/-- A position that is removed leaves its slot free. -/
theorem findPosition_eraseIdx {s s' : SimulatedFlashClient} {market : String} {side : TradeSide}
    {idx : ℕ} {pos : SimulatedPosition} (hpaper : Paper s.positions)
    (hfind : s.findPosition market side = some (idx, pos))
    (herase : s'.positions = s.positions.eraseIdx idx) : s'.findPosition market side = none := by
  obtain ⟨before, after, hat⟩ := findPosition_some hfind
  have hunique := hpaper.unique
  rw [hat.split, List.map_append, List.map_cons] at hunique
  cases hfound : s'.findPosition market side with
  | none => rfl
  | some found =>
    obtain ⟨i, p⟩ := found
    obtain ⟨before', after', hat'⟩ := findPosition_some hfound
    have hslot : slot p = slot pos := by
      have hp := hat'.holds
      have hpos := hat.holds
      simp only [atSlot, Bool.and_eq_true, decide_eq_true_eq] at hp hpos
      exact Prod.ext (hp.1.trans hpos.1.symm) (hp.2.trans hpos.2.symm)
    have hmem : p ∈ before ++ after := by
      rw [← hat.eraseIdx, ← herase]
      exact hat'.mem
    -- no other position has the slot
    rcases List.mem_append.mp hmem with hbefore | hafter
    · exact absurd hslot ((List.nodup_append.mp hunique).2.2 _ (List.mem_map_of_mem hbefore) _
        List.mem_cons_self)
    · have hagain : slot p ∈ after.map slot := List.mem_map_of_mem hafter
      rw [hslot] at hagain
      exact absurd hagain (List.nodup_cons.mp (List.Nodup.of_append_right hunique)).1

/-- What a close that succeeds has done. -/
theorem closePosition_ok {s s' : SimulatedFlashClient} {feeRates : ProtocolFeeRates} {now : ℚ}
    {market : String} {side : TradeSide} {closePercent closeAmount : Option ℚ}
    {r : ClosePositionResult} {settled : Settlement} {idx : ℕ} {pos : SimulatedPosition} {price : ℚ}
    (hfind : s.findPosition market side = some (idx, pos)) (hprice : s.getPrice market = .ok price)
    (hc : s.closePosition feeRates now market side closePercent closeAmount =
      .ok (s', r, settled)) :
    ∃ requested, requestedFraction pos.sizeUsd closePercent closeAmount = .ok requested ∧
      settled = settlement pos feeRates price requested
        (isPartialRequest closePercent closeAmount) ∧
      totals s' = ⟨s.balance + max settled.returnAmount 0, s.totalRealizedPnl + settled.pnl,
        s.totalFeesPaid + settled.closeFee⟩ ∧
      s'.positions = if settled.full then s.positions.eraseIdx idx
        else s.positions.set idx (reducedPosition pos settled) := by
  unfold closePosition at hc
  rw [hfind, hprice] at hc
  dsimp only at hc
  split at hc
  · cases hc
  · next requested hrequested =>
    obtain ⟨rfl, hrest⟩ := Prod.mk.inj (Except.ok.inj hc)
    obtain ⟨-, rfl⟩ := Prod.mk.inj hrest
    exact ⟨requested, hrequested, rfl, rfl, rfl⟩

/-- **One close**: it closes the position and reaches the totals, or leaves a smaller position
with the same entry price and leverage, from which the same totals are reached. -/
theorem close_step {s s' : SimulatedFlashClient} {feeRates : ProtocolFeeRates} {market : String}
    {side : TradeSide} {c : CloseRequest} {r : ClosePositionResult} {settled : Settlement} {idx : ℕ}
    {pos : SimulatedPosition} {price : ℚ} (hpaper : Paper s.positions)
    (hfind : s.findPosition market side = some (idx, pos))
    (hreturn : 0 < closeReturn feeRates price pos) (hvalid : c.Valid)
    (hprice : (s.refreshPrices c.feed).getPrice market = .ok price)
    (hc : (s.refreshPrices c.feed).closePosition feeRates c.now market side c.closePercent
      c.closeAmount = .ok (s', r, settled)) :
    Paper s'.positions ∧
      (settled.full = true ∧ s'.findPosition market side = none ∧
          totals s' = totalsAfterClose feeRates price s pos ∨
        settled.full = false ∧
          ∃ pos', s'.findPosition market side = some (idx, pos') ∧
            0 < closeReturn feeRates price pos' ∧
            totalsAfterClose feeRates price s' pos' = totalsAfterClose feeRates price s pos ∧
            pos'.leverage = pos.leverage ∧ pos'.entryPrice = pos.entryPrice) := by
  have hsame := sameAccount_refreshPrices s c.feed
  have hpaper' : Paper (s.refreshPrices c.feed).positions := hsame.positions ▸ hpaper
  have hfind' := (findPosition_refresh s c.feed market side).trans hfind
  obtain ⟨before, after, hat⟩ := findPosition_some hfind
  have hlive := hpaper.live pos hat.mem
  obtain ⟨requested, hrequested, rfl, htotals, hpositions⟩ := closePosition_ok hfind' hprice hc
  have hnonneg := requestedFraction_nonneg hlive.sizeUsd hvalid.1 hvalid.2 hrequested
  obtain ⟨f, hf, hpart, hsize, hcoll, hpnl, hfee⟩ := settlement_parts hlive feeRates price hnonneg
    (isPartialRequest c.closePercent c.closeAmount)
  refine ⟨hpaper'.change (change_closePosition hc), ?_⟩
  generalize settlement pos feeRates price requested
    (isPartialRequest c.closePercent c.closeAmount) = settled at *
  -- the part of a positive return is not floored
  have hpaid : settled.returnAmount = closeReturn feeRates price pos * f := by
    unfold Settlement.returnAmount closeReturn
    rw [hcoll, hpnl, hfee]
    ring
  have hmax : max settled.returnAmount 0 = closeReturn feeRates price pos * f := by
    rw [hpaid]
    exact max_eq_left (mul_nonneg hreturn.le hf)
  rw [hmax, hpnl, hfee, hsame.balance, hsame.totalRealizedPnl, hsame.totalFeesPaid] at htotals
  rcases hpart with ⟨hfull, rfl⟩ | ⟨hnot, hless⟩
  · rw [hfull, if_pos rfl] at hpositions
    refine .inl ⟨hfull, findPosition_eraseIdx hpaper' hfind' hpositions, ?_⟩
    rw [htotals, mul_one, mul_one, mul_one]
    rfl
  · rw [hnot, if_neg Bool.false_ne_true] at hpositions
    have hpositive : 0 < 1 - f := sub_pos.mpr hless
    obtain ⟨hrest, hrestColl, hleverage⟩ := reducedPosition_part hlive hsize hcoll hless
    have hrestReturn : closeReturn feeRates price (reducedPosition pos settled) =
        closeReturn feeRates price pos * (1 - f) :=
      closeReturn_part hlive feeRates price hpositive.le rfl rfl hrest hrestColl
    refine .inr ⟨hnot, reducedPosition pos settled, findPosition_set hfind' rfl hpositions, ?_, ?_,
      hleverage, rfl⟩
    · rw [hrestReturn]
      exact mul_pos hreturn hpositive
    · obtain ⟨hbalance, hrealized, hpaidFees⟩ := Totals.mk.inj htotals
      unfold totalsAfterClose
      rw [hrestReturn, hbalance, hrealized, hpaidFees, hrest,
        calcFeeUsd_part hlive.sizeUsd hpositive.le, Totals.mk.injEq]
      refine ⟨by ring, ?_, by ring⟩
      show _ + unrealizedPnl pos.side pos.entryPrice (pos.sizeUsd * (1 - f)) price = _
      rw [unrealizedPnl_part]
      ring

/-! ## A list of closes -/

variable {s s' : SimulatedFlashClient} {feeRates : ProtocolFeeRates} {market : String}
  {side : TradeSide} {price : ℚ} {idx : ℕ} {pos : SimulatedPosition}

/-- Without a position there is nothing to close. -/
theorem closeAll_of_none {cs : List CloseRequest}
    (hclosed : closeAll feeRates market side price s cs = some s')
    (hnone : s.findPosition market side = none) : s' = s := by
  cases cs with
  | nil => exact (Option.some.inj hclosed).symm
  | cons c cs =>
    obtain ⟨s₁, r, settled, -, hc, -⟩ := closeAll_cons hclosed
    unfold closePosition at hc
    rw [findPosition_refresh, hnone] at hc
    cases hc

/-- A request without a percentage and an amount closes all of a position. -/
theorem full_of_whole {now : ℚ} {r : ClosePositionResult} {settled : Settlement}
    (hc : s.closePosition feeRates now market side none none = .ok (s', r, settled)) :
    settled.full = true := by
  unfold closePosition at hc
  split at hc
  · cases hc
  · split at hc
    · cases hc
    · split at hc
      · cases hc
      · obtain ⟨-, hrest⟩ := Prod.mk.inj (Except.ok.inj hc)
        obtain ⟨-, rfl⟩ := Prod.mk.inj hrest
        rfl

/-- **Closes one after another**: the position is closed with the totals reached, or what is
left of it has the same entry price and leverage and reaches them still. -/
theorem closeAll_totals {cs : List CloseRequest} (hpaper : Paper s.positions)
    (hfind : s.findPosition market side = some (idx, pos))
    (hreturn : 0 < closeReturn feeRates price pos) (hvalid : ∀ c ∈ cs, c.Valid)
    (hclosed : closeAll feeRates market side price s cs = some s') :
    s'.findPosition market side = none ∧ totals s' = totalsAfterClose feeRates price s pos ∨
      ∃ pos', s'.findPosition market side = some (idx, pos') ∧
        pos'.leverage = pos.leverage ∧ pos'.entryPrice = pos.entryPrice := by
  induction cs generalizing s pos with
  | nil =>
    obtain rfl := Option.some.inj hclosed
    exact .inr ⟨pos, hfind, rfl, rfl⟩
  | cons c cs ih =>
    obtain ⟨s₁, r, settled, hprice, hc, hrest⟩ := closeAll_cons hclosed
    obtain ⟨hpaper₁, hstep⟩ := close_step hpaper hfind hreturn (hvalid c List.mem_cons_self)
      hprice hc
    rcases hstep with ⟨-, hnone, htotals⟩ | ⟨-, pos₁, hfind₁, hreturn₁, htotals₁, hlev₁, hentry₁⟩
    · obtain rfl := closeAll_of_none hrest hnone
      exact .inl ⟨hnone, htotals⟩
    · have hvalid' : ∀ c ∈ cs, c.Valid := fun c hc => hvalid c (List.mem_cons_of_mem _ hc)
      rcases ih hpaper₁ hfind₁ hreturn₁ hvalid' hrest with
        ⟨hnone, htotals⟩ | ⟨pos₂, hfind₂, hlev₂, hentry₂⟩
      · exact .inl ⟨hnone, htotals.trans htotals₁⟩
      · exact .inr ⟨pos₂, hfind₂, hlev₂.trans hlev₁, hentry₂.trans hentry₁⟩

/-- **Partial closes add up.** In every reachable state, for a position whose close return is
positive and every list of closes of it at one price and fee rates: if they cover the position,
balance, realized PnL and fees are what one close of all of it leaves; and as long as they do
not, the remainder has the leverage and the entry price the position had. -/
theorem partialCloses_add_up {m : Markets} {initialBalance : ℚ} {h : List Event}
    {cs : List CloseRequest} (hr : (simulation m initialBalance).Reachable s h)
    (hfind : s.findPosition market side = some (idx, pos))
    (hreturn : 0 < closeReturn feeRates price pos) (hvalid : ∀ c ∈ cs, c.Valid)
    (hclosed : closeAll feeRates market side price s cs = some s') :
    (s'.findPosition market side = none → ∀ feed now s'',
      closeAll feeRates market side price s [⟨feed, now, none, none⟩] = some s'' →
        s''.findPosition market side = none ∧ totals s' = totals s'') ∧
    ∀ idx' pos', s'.findPosition market side = some (idx', pos') →
      pos'.leverage = pos.leverage ∧ pos'.entryPrice = pos.entryPrice := by
  have hpaper := paper_reachable hr
  constructor
  · intro hnone feed now s'' hwhole
    have htotals : totals s' = totalsAfterClose feeRates price s pos := by
      rcases closeAll_totals hpaper hfind hreturn hvalid hclosed with
        ⟨-, htotals⟩ | ⟨pos', hfound, -⟩
      · exact htotals
      · rw [hnone] at hfound
        cases hfound
    obtain ⟨s₁, r, settled, hprice, hc, hrest⟩ := closeAll_cons hwhole
    obtain rfl := Option.some.inj hrest
    have hall : CloseRequest.Valid ⟨feed, now, none, none⟩ :=
      ⟨fun _ hno => (by cases hno), fun _ hno => (by cases hno)⟩
    obtain ⟨-, hstep⟩ := close_step hpaper hfind hreturn hall hprice hc
    rcases hstep with ⟨-, hnone', htotals'⟩ | ⟨hnot, -⟩
    · exact ⟨hnone', htotals.trans htotals'.symm⟩
    · rw [full_of_whole hc] at hnot
      cases hnot
  · intro idx' pos' hfound
    rcases closeAll_totals hpaper hfind hreturn hvalid hclosed with
      ⟨hnone, -⟩ | ⟨pos₁, hfind₁, hsame⟩
    · rw [hnone] at hfound
      cases hfound
    · rw [hfind₁] at hfound
      obtain ⟨-, rfl⟩ := Prod.mk.inj (Option.some.inj hfound)
      exact hsame

/-- A position at a profit, closed by half, by an amount of a hundred dollars, and at last by
a percentage that is near enough to all of it. -/
def solCloses : List CloseRequest :=
  [⟨solFeed 200, 2, some 50, none⟩, ⟨solFeed 200, 3, none, some 100⟩,
    ⟨solFeed 200, 4, some (9995 / 100), none⟩]

theorem partialCloses_add_up_sol :
    ∃ s h idx pos s', (simulation solMarkets 1000).run solOpened = some (s, h) ∧
      s.findPosition "SOL" .Long = some (idx, pos) ∧ 0 < closeReturn solRates 200 pos ∧
      closeAll solRates "SOL" .Long 200 s solCloses = some s' ∧
      s'.findPosition "SOL" .Long = none ∧
      (s'.findPosition "SOL" .Long = none → ∀ feed now s'',
        closeAll solRates "SOL" .Long 200 s [⟨feed, now, none, none⟩] = some s'' →
          s''.findPosition "SOL" .Long = none ∧ totals s' = totals s'') ∧
      ∀ idx' pos', s'.findPosition "SOL" .Long = some (idx', pos') →
        pos'.leverage = pos.leverage ∧ pos'.entryPrice = pos.entryPrice := by
  have hrun : ((simulation solMarkets 1000).run solOpened).map (fun r =>
      ((r.1.findPosition "SOL" .Long).map fun found =>
          decide (0 < closeReturn solRates 200 found.2),
        (closeAll solRates "SOL" .Long 200 r.1 solCloses).map fun s' =>
          s'.findPosition "SOL" .Long)) = some (some true, some none) := by
    decide +kernel
  obtain ⟨⟨s, h⟩, hs, hboth⟩ := Option.map_eq_some_iff.mp hrun
  obtain ⟨hfound, hclosed⟩ := Prod.mk.inj hboth
  obtain ⟨⟨idx, pos⟩, hfind, hreturn⟩ := Option.map_eq_some_iff.mp hfound
  obtain ⟨s', hs', hnone⟩ := Option.map_eq_some_iff.mp hclosed
  have hvalid : ∀ c ∈ solCloses, c.Valid := by
    simp [solCloses, CloseRequest.Valid]
    norm_num
  exact ⟨s, h, idx, pos, s', hs, hfind, of_decide_eq_true hreturn, hs', hnone,
    partialCloses_add_up (Machine.reachable_of_run hs) hfind (of_decide_eq_true hreturn) hvalid hs'⟩

end SimulatedFlashClient

end FlashEdge
