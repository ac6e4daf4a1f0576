import FlashEdge.Client.SimulationLedger
import FlashEdge.Tools.FlashTools

/-!
# How much a close request closes

`FlashClient.closePosition` asks the builder to close a dollar amount,
`SimulatedFlashClient.closePosition` settles a fraction of the position itself.
Each resolves the optional percentage and the optional amount on its own;
`requestedClose` is the rule they follow: a percentage comes before an amount,
and with neither the whole position is closed.

- `closePosition_sizes_agree`: for what the command accepts, both ask for this.
- `partialClose_keeps_rest`: for a request of a part, this part is closed and the
  rest stays open; only the paper client takes the rest along, when it is dust.
-/

namespace FlashEdge

/-- The size that a close request asks for. -/
def requestedClose (sizeUsd : ℚ) (closePercent closeAmount : Option ℚ) : ℚ :=
  match closePercent with
  | some closePercent => sizeUsd * closePercent / 100
  | none => closeAmount.getD sizeUsd

/-! ## The live client -/

theorem closeAmountUsd_effective {sizeUsd : ℚ} (hopen : 0 < sizeUsd)
    {closePercent closeAmount : Option ℚ}
    (hamount : closePercent = none → closeAmount ≠ some 0) :
    closeAmountUsd sizeUsd (effectiveClosePercent sizeUsd closePercent closeAmount) =
      requestedClose sizeUsd closePercent closeAmount := by
  have hne : sizeUsd ≠ 0 := hopen.ne'
  unfold closeAmountUsd effectiveClosePercent requestedClose
  cases closePercent with
  | some percent => rfl
  | none =>
    cases closeAmount with
    | none =>
      dsimp only [Option.getD_none]
      ring
    | some amount =>
      -- the amount is turned into a percentage and back
      have hzero : amount ≠ 0 := fun h => hamount rfl (congrArg some h)
      dsimp only [Option.getD_some]
      rw [if_pos hzero]
      field_simp

/-! ## The paper client -/

namespace SimulatedFlashClient

theorem requestedFraction_eq {sizeUsd : ℚ} (hopen : 0 < sizeUsd)
    {closePercent closeAmount : Option ℚ}
    (hpercent : ∀ q, closePercent = some q → q < 100 ∨ (q = 100 ∧ closeAmount = none))
    (hamount : ∀ q, closePercent = none → closeAmount = some q → q ≤ sizeUsd) :
    requestedFraction sizeUsd closePercent closeAmount =
      .ok (requestedClose sizeUsd closePercent closeAmount / sizeUsd) := by
  have hne : sizeUsd ≠ 0 := hopen.ne'
  unfold requestedFraction requestedClose
  cases closePercent with
  | some percent =>
    dsimp only
    rcases hpercent percent rfl with hlt | ⟨rfl, rfl⟩
    · rw [if_pos hlt]
      congr 1
      field_simp
    · rw [if_neg (lt_irrefl _), requestedFraction.ofAmount]
      congr 1
      field_simp
  | none =>
    dsimp only
    cases closeAmount with
    | none =>
      rw [requestedFraction.ofAmount, Option.getD_none, div_self hne]
    | some amount =>
      rw [requestedFraction.ofAmount, if_neg (not_lt.mpr (hamount amount rfl rfl)),
        Option.getD_some]

/-- An amount that is not refused is not larger than the position. -/
theorem amount_le_of_requestedFraction {sizeUsd fraction q : ℚ}
    (hok : requestedFraction sizeUsd none (some q) = .ok fraction) : q ≤ sizeUsd := by
  rw [requestedFraction, requestedFraction.ofAmount] at hok
  by_contra hlt
  rw [if_pos (not_le.mp hlt)] at hok
  cases hok

end SimulatedFlashClient

/-! ## Both clients -/

open SimulatedFlashClient in
/-- **The two clients ask for the same size.** For the percentage and the amount
that the command accepts for an open position, unless all of it is asked for
together with an amount. The paper client refuses at most an amount that was not
compared with the position, because the positions could not be read. -/
theorem closePosition_sizes_agree {gates : Except CloseRefusal Unit} {pos : FlashTrades.Position}
    {checked : Except String (Option FlashTrades.Position)} {market : String} {side : TradeSide}
    {percent? amount? : Option JsNumber} {closePercent closeAmount : Option ℚ}
    (hopen : 0 < pos.sizeUsd) (hchecked : ∀ p, checked = .ok p → p = some pos)
    (haccepted : flashClosePosition gates checked market side percent? amount? =
      .ok (closePercent, closeAmount))
    (hall : closePercent = some 100 → closeAmount = none)
    (position : SimulatedPosition) (hposition : position.sizeUsd = pos.sizeUsd)
    (receiveToken : Option String) :
    (PositionOperation.closePosition receiveToken closePercent closeAmount).request pos =
        .closePosition pos.pubkey (requestedClose pos.sizeUsd closePercent closeAmount)
          (receiveToken.getD "USDC") ∧
      (∀ fraction, requestedFraction position.sizeUsd closePercent closeAmount = .ok fraction →
        position.sizeUsd * fraction = requestedClose pos.sizeUsd closePercent closeAmount ∧
        0 < requestedClose pos.sizeUsd closePercent closeAmount ∧
        requestedClose pos.sizeUsd closePercent closeAmount ≤ pos.sizeUsd) ∧
      ((∃ p, checked = .ok p) →
        ∃ fraction, requestedFraction position.sizeUsd closePercent closeAmount = .ok fraction) := by
  obtain ⟨hpercent, hamount, hpre⟩ := flashClosePosition_ok haccepted
  have hpercent' : ∀ q, closePercent = some q → q < 100 ∨ (q = 100 ∧ closeAmount = none) := by
    intro q hq
    rcases lt_or_eq_of_le (hpercent q hq).2 with hlt | rfl
    · exact .inl hlt
    · exact .inr ⟨rfl, hall hq⟩
  rw [hposition]
  refine ⟨?_, fun fraction hok => ?_, ?_⟩
  · have hne : closePercent = none → closeAmount ≠ some 0 :=
      fun _ hzero => absurd (hamount 0 hzero) (lt_irrefl _)
    show BuildRequest.closePosition _ (closeAmountUsd _ _) _ = _
    rw [closeAmountUsd_effective hopen hne]
  · have heq : pos.sizeUsd * fraction = requestedClose pos.sizeUsd closePercent closeAmount := by
      have hfraction := requestedFraction_eq hopen hpercent' fun q hnone hq => by
        subst hnone hq
        exact amount_le_of_requestedFraction hok
      rw [hok] at hfraction
      rw [Except.ok.inj hfraction, mul_div_cancel₀ _ hopen.ne']
    -- the fraction is more than nothing and at most the whole
    obtain ⟨hpos, hle⟩ := requestedFraction_ok hopen
      (fun q hq => ⟨lt_of_lt_of_le one_pos (hpercent q hq).1, (hpercent q hq).2⟩) hamount hok
    refine ⟨heq, ?_, ?_⟩
    · rw [← heq]
      exact mul_pos hopen hpos
    · rw [← heq]
      exact mul_le_of_le_one_right hopen.le hle
  · rintro ⟨p, hp⟩
    obtain rfl := hchecked p hp
    rw [hp] at hpre
    exact ⟨_, requestedFraction_eq hopen hpercent' fun q _ hq => preCheckClose_ok hpre q hq⟩

/-- A position of a hundred dollars, as the live client lists it. -/
def livePosition : FlashTrades.Position :=
  { pubkey := "key", market := some "SOL", side := .Long, sizeUsd := 100 }

/-- The same position on paper. -/
def paperPosition : SimulatedPosition :=
  { id := "sim-1", market := "SOL", side := .Long, entryPrice := 100, sizeUsd := 100
    collateralUsd := 50, leverage := 2, openFee := 0, openedAt := 0, maintenanceMarginRate := 0
    closeFeeRate := 0 }

open SimulatedFlashClient in
/-- Ten dollars of it are accepted, and asked for by both clients. -/
theorem closePosition_sizes_agree_ten :
    flashClosePosition (.ok ()) (.ok (some livePosition)) "SOL" .Long none (some (.finite 10)) =
        .ok (none, some 10) ∧
      (PositionOperation.closePosition none none (some 10)).request livePosition =
        .closePosition "key" 10 "USDC" ∧
      ∃ fraction, requestedFraction paperPosition.sizeUsd none (some 10) = .ok fraction := by
  have haccepted : flashClosePosition (.ok ()) (.ok (some livePosition)) "SOL" .Long none
      (some (.finite 10)) = .ok (none, some 10) := by
    decide +kernel
  obtain ⟨hlive, -, hpaper⟩ := closePosition_sizes_agree
    (by decide +kernel : 0 < livePosition.sizeUsd) (fun p hp => (Except.ok.inj hp).symm) haccepted
    (fun h => by cases h) paperPosition rfl none
  exact ⟨haccepted, hlive, hpaper ⟨_, rfl⟩⟩

open SimulatedFlashClient in
/-- Half of the position and ten dollars: the command accepts both numbers, and
both clients close the half. -/
theorem not_amount_first :
    ¬ ∀ (gates : Except CloseRefusal Unit) (pos : FlashTrades.Position) (market : String)
      (side : TradeSide) (percent? amount? : Option JsNumber) (closePercent closeAmount : Option ℚ)
      (position : SimulatedPosition) (receiveToken : Option String),
      0 < pos.sizeUsd → position.sizeUsd = pos.sizeUsd →
      flashClosePosition gates (.ok (some pos)) market side percent? amount? =
        .ok (closePercent, closeAmount) →
      ∃ size, (PositionOperation.closePosition receiveToken closePercent closeAmount).request pos =
          .closePosition pos.pubkey size (receiveToken.getD "USDC") ∧
        (∃ fraction, requestedFraction position.sizeUsd closePercent closeAmount = .ok fraction ∧
          position.sizeUsd * fraction = size) ∧
        0 < size ∧ size ≤ pos.sizeUsd ∧
        (∀ amount, closeAmount = some amount → size = amount) ∧
        (closeAmount = none → ∀ percent, closePercent = some percent →
          size = pos.sizeUsd * percent / 100) := by
  intro hall
  obtain ⟨size, hlive, -, -, -, hamount, -⟩ := hall (.ok ()) livePosition "SOL" .Long
    (some (.finite 50)) (some (.finite 10)) (some 50) (some 10) paperPosition none
    (by decide +kernel) rfl (by decide +kernel)
  obtain rfl := hamount 10 rfl
  exact absurd hlive (by decide +kernel)

/-! ## Requests of a part -/

/-- The part that a request asks for, if it asks for a part: a percentage below a
hundred, or else an amount below the size. -/
def requestedPart (sizeUsd : ℚ) (closePercent closeAmount : Option ℚ) : Option ℚ :=
  match closePercent.filter (· < 100) with
  | some closePercent => some (sizeUsd * closePercent / 100)
  | none => closeAmount.filter (· < sizeUsd)

/-- A part is asked for in two ways. -/
theorem requestedPart_cases {sizeUsd part : ℚ} {closePercent closeAmount : Option ℚ}
    (hpart : requestedPart sizeUsd closePercent closeAmount = some part) :
    (∃ q, closePercent = some q ∧ q < 100 ∧ part = sizeUsd * q / 100) ∨
    ((∀ q, closePercent = some q → 100 ≤ q) ∧ closeAmount = some part ∧ part < sizeUsd) := by
  unfold requestedPart at hpart
  split at hpart
  · next q hq =>
    obtain ⟨hsome, hlt⟩ := Option.filter_eq_some_iff.mp hq
    exact .inl ⟨q, hsome, of_decide_eq_true hlt, (Option.some.inj hpart).symm⟩
  · next hnone =>
    obtain ⟨hsome, hlt⟩ := Option.filter_eq_some_iff.mp hpart
    refine .inr ⟨fun q hq => ?_, hsome, of_decide_eq_true hlt⟩
    subst hq
    simpa using hnone

/-- It is less than the position. -/
theorem requestedPart_lt {sizeUsd part : ℚ} {closePercent closeAmount : Option ℚ}
    (hopen : 0 < sizeUsd) (hpart : requestedPart sizeUsd closePercent closeAmount = some part) :
    part < sizeUsd := by
  rcases requestedPart_cases hpart with ⟨q, -, hlt, rfl⟩ | ⟨-, -, hlt⟩
  · have hmul : sizeUsd * q < sizeUsd * 100 := mul_lt_mul_of_pos_left hlt hopen
    linarith
  · exact hlt

/-- The live client asks the builder for the part. -/
theorem request_part {pos : FlashTrades.Position} {part : ℚ} {closePercent closeAmount : Option ℚ}
    (hopen : 0 < pos.sizeUsd)
    (hpart : requestedPart pos.sizeUsd closePercent closeAmount = some part)
    (hpercent : ∀ q, closePercent = some q → q < 100) (hamount : closeAmount ≠ some 0)
    (receiveToken : Option String) :
    (PositionOperation.closePosition receiveToken closePercent closeAmount).request pos =
      .closePosition pos.pubkey part (receiveToken.getD "USDC") := by
  show BuildRequest.closePosition _ (closeAmountUsd _ _) _ = _
  rw [closeAmountUsd_effective hopen fun _ => hamount]
  rcases requestedPart_cases hpart with ⟨q, rfl, -, rfl⟩ | ⟨hlarge, rfl, -⟩
  · rfl
  · -- there is no percentage at all
    cases closePercent with
    | none => rfl
    | some q => exact absurd (hpercent q rfl) (not_lt.mpr (hlarge q rfl))

/-- What the paper client does not leave open: less than half a dollar, or at most a
thousandth of the position. -/
def Dust (sizeUsd part : ℚ) : Prop := sizeUsd - part < 1 / 2 ∨ 999 / 1000 * sizeUsd ≤ part

namespace SimulatedFlashClient

/-- The paper client settles the fraction that the part is. -/
theorem requestedFraction_part {sizeUsd part : ℚ} {closePercent closeAmount : Option ℚ}
    (hopen : 0 < sizeUsd) (hpart : requestedPart sizeUsd closePercent closeAmount = some part) :
    requestedFraction sizeUsd closePercent closeAmount = .ok (part / sizeUsd) ∧
      isPartialRequest closePercent closeAmount = true := by
  have hne : sizeUsd ≠ 0 := hopen.ne'
  rcases requestedPart_cases hpart with ⟨q, rfl, hlt, rfl⟩ | ⟨hlarge, rfl, hlt⟩
  · refine ⟨?_, by simp [isPartialRequest, hlt]⟩
    rw [requestedFraction, if_pos hlt]
    congr 1
    field_simp
  · have hof : requestedFraction.ofAmount sizeUsd (some part) = .ok (part / sizeUsd) :=
      if_neg (not_lt.mpr hlt.le)
    refine ⟨?_, by simp [isPartialRequest]⟩
    cases closePercent with
    | none => exact hof
    | some q => exact (if_neg (not_lt.mpr (hlarge q rfl))).trans hof

/-- The settlement of a part takes the whole position exactly if the rest is dust. -/
theorem settlement_of_part {position : SimulatedPosition} (hopen : 0 < position.sizeUsd) (part : ℚ)
    (feeRates : ProtocolFeeRates) (price : ℚ) :
    (Dust position.sizeUsd part →
      (settlement position feeRates price (part / position.sizeUsd) true).full = true ∧
      (settlement position feeRates price (part / position.sizeUsd) true).closedSizeUsd =
        position.sizeUsd) ∧
    (¬ Dust position.sizeUsd part →
      (settlement position feeRates price (part / position.sizeUsd) true).full = false ∧
      (settlement position feeRates price (part / position.sizeUsd) true).closedSizeUsd =
        part) := by
  have hne : position.sizeUsd ≠ 0 := hopen.ne'
  have hsnap : 999 / 1000 ≤ part / position.sizeUsd ↔ 999 / 1000 * position.sizeUsd ≤ part :=
    le_div_iff₀ hopen
  have hrest : position.sizeUsd * (1 - part / position.sizeUsd) = position.sizeUsd - part := by
    field_simp
  unfold settlement
  dsimp only
  by_cases hnear : 999 / 1000 ≤ part / position.sizeUsd
  · -- snapped to the whole
    rw [if_pos hnear]
    exact ⟨fun _ => by simp, fun hnot => absurd (.inr (hsnap.mp hnear)) hnot⟩
  · rw [if_neg hnear, hrest]
    have hlt : ¬ 1 ≤ part / position.sizeUsd := by
      intro hle
      exact hnear (le_trans (by norm_num) hle)
    refine ⟨fun hdust => ?_, fun hnot => ?_⟩
    · have hsmall : position.sizeUsd - part < 1 / 2 :=
        hdust.resolve_right fun h => hnear (hsnap.mpr h)
      simp only [hsmall, decide_true, Bool.or_true, Bool.true_or, if_true, mul_one, and_self]
    · have hlarge : ¬ position.sizeUsd - part < 1 / 2 := fun h => hnot (.inl h)
      simp only [hlarge, hlt, Bool.not_true, decide_false, Bool.or_self, Bool.false_eq_true,
        if_false, true_and]
      exact mul_div_cancel₀ part hne

/-- The paper client closes the part and keeps the rest, unless the rest is dust. -/
theorem closePosition_part {s : SimulatedFlashClient} {market : String} {side : TradeSide}
    {idx : ℕ} {position : SimulatedPosition} {part price : ℚ} {closePercent closeAmount : Option ℚ}
    (hfind : s.findPosition market side = some (idx, position)) (hopen : 0 < position.sizeUsd)
    (hpart : requestedPart position.sizeUsd closePercent closeAmount = some part)
    (hprice : s.getPrice market = .ok price) (feeRates : ProtocolFeeRates) (now : ℚ) :
    ∃ s' result c, s.closePosition feeRates now market side closePercent closeAmount =
        .ok (s', result, c) ∧
      (Dust position.sizeUsd part →
        c.closedSizeUsd = position.sizeUsd ∧ s'.positions = s.positions.eraseIdx idx) ∧
      (¬ Dust position.sizeUsd part →
        c.closedSizeUsd = part ∧ s'.positions = s.positions.set idx (reducedPosition position c) ∧
          (reducedPosition position c).sizeUsd = position.sizeUsd - part) := by
  obtain ⟨hfraction, hpartial⟩ := requestedFraction_part hopen hpart
  obtain ⟨hdust, hrest⟩ := settlement_of_part hopen part feeRates price
  simp only [closePosition, hfind, hprice, hfraction, hpartial]
  refine ⟨_, _, _, rfl, fun hd => ?_, fun hd => ?_⟩
  · obtain ⟨hfull, hsize⟩ := hdust hd
    refine ⟨hsize, ?_⟩
    show (if _ then _ else _) = _
    rw [if_pos hfull]
  · obtain ⟨hfull, hsize⟩ := hrest hd
    refine ⟨hsize, ?_, ?_⟩
    · show (if _ then _ else _) = _
      rw [if_neg (Bool.eq_false_iff.mp hfull)]
    · show position.sizeUsd - _ = _
      rw [hsize]

end SimulatedFlashClient

/-- A client with the paper position and a price for it. -/
def paperClient : SimulatedFlashClient :=
  { balance := 1000, positions := [paperPosition], livePrices := OrderedMap.empty.set "SOL" 100 }

end FlashEdge
