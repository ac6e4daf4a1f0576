import Mathlib.Algebra.BigOperators.Group.List.Basic
import Mathlib.Tactic.Linarith
import Mathlib.Tactic.Ring
import Mathlib.Tactic.NormNum
import FlashEdge.Theory.Ledger
import FlashEdge.Theory.ListSlot
import FlashEdge.Client.Simulation

/-!
# The books of the paper-trading client

The client's balance, the collateral of its positions, its realized PnL and its
fees are a margin ledger (`Theory/Ledger.lean`): opening a position and adding
collateral lock money, removing collateral releases it, and a close settles the
part of the collateral it closes. `forgiven` adds up what the floor at zero of a
negative close return leaves unpaid.

`books_balanced` is the invariant of every run of valid requests: the ledger
balances, no market and side has two positions, and every position has a positive
size and collateral.
-/

namespace FlashEdge

namespace SimulatedFlashClient

/-- The collateral of all open positions. -/
def totalCollateral (positions : List SimulatedPosition) : ℚ :=
  (positions.map SimulatedPosition.collateralUsd).sum

/-- What the floor at zero of a close return leaves unpaid. -/
def Event.floored : Event → ℚ
  | .closed settlement => max (-settlement.returnAmount) 0
  | _ => 0

/-- The sum of what the floors have left unpaid. -/
def forgiven (h : List Event) : ℚ := (h.map Event.floored).sum

/-- The client's books. -/
def books (s : SimulatedFlashClient) (h : List Event) : Ledger ℚ :=
  { cash := s.balance
    locked := totalCollateral s.positions
    realised := s.totalRealizedPnl
    fees := s.totalFeesPaid
    forgiven := forgiven h }

/-- The market and the side of a position. -/
def slot (p : SimulatedPosition) : String × TradeSide := (p.market, p.side)

/-- One position a market and side, each with a positive size and collateral. -/
structure Sound (positions : List SimulatedPosition) : Prop where
  unique : (positions.map slot).Nodup
  positive : ∀ p ∈ positions, 0 < p.sizeUsd ∧ 0 < p.collateralUsd

/-- A valid request: the percentage is in (0, 100] and the amount is positive.
The other operations check their amounts themselves. -/
def Valid : Action → Prop
  | .closePosition _ _ _ _ _ closePercent closeAmount =>
    (∀ percent, closePercent = some percent → 0 < percent ∧ percent ≤ 100) ∧
      ∀ amount, closeAmount = some amount → 0 < amount
  | _ => True

/-- The invariant of a run that started with `initialBalance`. -/
structure Kept (initialBalance : ℚ) (s : SimulatedFlashClient) (h : List Event) : Prop where
  balanced : (s.books h).Balanced initialBalance
  nonneg : 0 ≤ initialBalance → 0 ≤ s.balance
  sound : Sound s.positions

/-! ## What prices, trades and triggers leave alone -/

/-- The same books and the same positions. -/
structure SameAccount (s s' : SimulatedFlashClient) : Prop where
  balance : s'.balance = s.balance
  positions : s'.positions = s.positions
  tradeHistory : s'.tradeHistory = s.tradeHistory
  totalRealizedPnl : s'.totalRealizedPnl = s.totalRealizedPnl
  totalFeesPaid : s'.totalFeesPaid = s.totalFeesPaid
  triggerIndex : s'.triggerIndex = s.triggerIndex

theorem SameAccount.refl (s : SimulatedFlashClient) : SameAccount s s :=
  ⟨rfl, rfl, rfl, rfl, rfl, rfl⟩

theorem SameAccount.trans {s₁ s₂ s₃ : SimulatedFlashClient} (h₁ : SameAccount s₁ s₂)
    (h₂ : SameAccount s₂ s₃) : SameAccount s₁ s₃ :=
  ⟨h₂.balance.trans h₁.balance, h₂.positions.trans h₁.positions,
    h₂.tradeHistory.trans h₁.tradeHistory, h₂.totalRealizedPnl.trans h₁.totalRealizedPnl,
    h₂.totalFeesPaid.trans h₁.totalFeesPaid, h₂.triggerIndex.trans h₁.triggerIndex⟩

/-- A loop whose iterations leave the account alone leaves it alone. -/
theorem SameAccount.foldl {β : Type} {f : SimulatedFlashClient → β → SimulatedFlashClient}
    (hf : ∀ s x, SameAccount s (f s x)) (xs : List β) (s : SimulatedFlashClient) :
    SameAccount s (xs.foldl f s) := by
  induction xs generalizing s with
  | nil => exact .refl s
  | cons x xs ih => exact (hf s x).trans (ih (f s x))

theorem sameAccount_boundLivePrices (s : SimulatedFlashClient) :
    SameAccount s s.boundLivePrices := by
  unfold boundLivePrices
  split
  · exact ⟨rfl, rfl, rfl, rfl, rfl, rfl⟩
  · exact .refl s

theorem sameAccount_takePrimaryPrice (s : SimulatedFlashClient) (sym : String) (tp : TokenPrice) :
    SameAccount s (s.takePrimaryPrice sym tp) := by
  unfold takePrimaryPrice
  cases tp.price.finitePositive? with
  | none =>
    dsimp only
    split
    · exact ⟨rfl, rfl, rfl, rfl, rfl, rfl⟩
    · exact .refl s
  | some price =>
    dsimp only
    split
    · exact ⟨rfl, rfl, rfl, rfl, rfl, rfl⟩
    · exact ⟨rfl, rfl, rfl, rfl, rfl, rfl⟩

theorem sameAccount_fillGap (s : SimulatedFlashClient) (sym : String) (avg : ℚ) :
    SameAccount s (takeSecondaryPrice.fillGap s sym avg) := by
  unfold takeSecondaryPrice.fillGap
  split
  · split
    · exact .refl s
    · exact ⟨rfl, rfl, rfl, rfl, rfl, rfl⟩
  · exact ⟨rfl, rfl, rfl, rfl, rfl, rfl⟩

theorem sameAccount_takeSecondaryPrice (s : SimulatedFlashClient) (sym : String)
    (prices : List ℚ) : SameAccount s (s.takeSecondaryPrice sym prices) := by
  unfold takeSecondaryPrice
  dsimp only
  split
  · split
    · exact sameAccount_fillGap s sym _
    · exact .refl s
  · exact sameAccount_fillGap s sym _

/-- **Refreshing prices moves no money.** -/
theorem sameAccount_refreshPrices (s : SimulatedFlashClient) (feed : PriceFeed) :
    SameAccount s (s.refreshPrices feed) := by
  have hbound := sameAccount_boundLivePrices s
  have hprimary : ∀ (prices : List (String × TokenPrice)) (s : SimulatedFlashClient),
      SameAccount s (prices.foldl (fun s p => s.takePrimaryPrice p.1 p.2) s) := fun prices =>
    .foldl (fun s p => sameAccount_takePrimaryPrice s p.1 p.2) prices
  have hsecondary : ∀ (positions : List RawOpenPosition) (s : SimulatedFlashClient),
      SameAccount s ((secondaryPrices positions).entries.foldl
        (fun s p => s.takeSecondaryPrice p.1 p.2) s) := fun positions =>
    .foldl (fun s (p : String × List ℚ) => sameAccount_takeSecondaryPrice s p.1 p.2) _
  unfold refreshPrices
  cases feed.primary with
  | none =>
    cases feed.secondary with
    | none => exact hbound
    | some positions => exact hbound.trans (hsecondary positions _)
  | some prices =>
    cases feed.secondary with
    | none => exact hbound.trans (hprimary prices _)
    | some positions => exact (hbound.trans (hprimary prices _)).trans (hsecondary positions _)

theorem Kept.same {initialBalance : ℚ} {s s' : SimulatedFlashClient} {h : List Event}
    (hk : Kept initialBalance s h) (hsame : SameAccount s s') : Kept initialBalance s' h := by
  obtain ⟨hbalance, hpositions, -, hpnl, hfees, -⟩ := hsame
  refine ⟨?_, hbalance ▸ hk.nonneg, hpositions ▸ hk.sound⟩
  have hbooks : s'.books h = s.books h := by
    unfold books
    rw [hbalance, hpositions, hpnl, hfees]
  rw [hbooks]
  exact hk.balanced

/-- A step that moves no money may emit events without a floor. -/
theorem Kept.silent {initialBalance : ℚ} {s : SimulatedFlashClient} {h es : List Event}
    (hk : Kept initialBalance s h) (hes : ∀ ev ∈ es, ev.floored = 0) :
    Kept initialBalance s (h ++ es) := by
  have hforgiven : forgiven (h ++ es) = forgiven h := by
    have hzero : (es.map Event.floored).sum = 0 :=
      List.sum_eq_zero fun x hx => by
        obtain ⟨ev, hev, rfl⟩ := List.mem_map.mp hx
        exact hes ev hev
    unfold forgiven
    rw [List.map_append, List.sum_append, hzero, add_zero]
  have hbooks : s.books (h ++ es) = s.books h := by
    unfold books
    rw [hforgiven]
  refine ⟨?_, hk.nonneg, hk.sound⟩
  rw [hbooks]
  exact hk.balanced

/-! ## The list of positions -/

theorem totalCollateral_append (ps qs : List SimulatedPosition) :
    totalCollateral (ps ++ qs) = totalCollateral ps + totalCollateral qs := by
  unfold totalCollateral
  rw [List.map_append, List.sum_append]

theorem totalCollateral_cons (p : SimulatedPosition) (ps : List SimulatedPosition) :
    totalCollateral (p :: ps) = p.collateralUsd + totalCollateral ps := by
  unfold totalCollateral
  rw [List.map_cons, List.sum_cons]

/-- The test with which the code looks a position up. -/
abbrev atSlot (market : String) (side : TradeSide) (p : SimulatedPosition) : Bool :=
  p.market = toUpperCase market && p.side = side

/-- What `findPosition` finds, as a split of the list. -/
theorem findPosition_some {s : SimulatedFlashClient} {market : String} {side : TradeSide}
    {idx : ℕ} {pos : SimulatedPosition} (h : s.findPosition market side = some (idx, pos)) :
    ∃ before after, FirstAt (atSlot market side) s.positions idx before pos after := by
  obtain ⟨i, hi, hpos⟩ := Option.bind_eq_some_iff.mp h
  obtain ⟨q, hq, heq⟩ := Option.map_eq_some_iff.mp hpos
  obtain ⟨rfl, rfl⟩ := Prod.mk.inj heq
  obtain ⟨before, x, after, hat⟩ := FirstAt.of_findIdx? hi
  rw [hat.getElem?] at hq
  obtain rfl := Option.some.inj hq
  exact ⟨before, after, hat⟩

/-- Without a position found there is none at the slot. -/
theorem findPosition_none {s : SimulatedFlashClient} {market : String} {side : TradeSide}
    (h : s.findPosition market side = none) :
    (toUpperCase market, side) ∉ s.positions.map slot := by
  cases hidx : s.positionIndex market side with
  | some i =>
    obtain ⟨before, x, after, hat⟩ := FirstAt.of_findIdx? hidx
    unfold findPosition at h
    rw [hidx, Option.bind_some, hat.getElem?] at h
    cases h
  | none =>
    intro hmem
    obtain ⟨p, hp, hslot⟩ := List.mem_map.mp hmem
    have hnot := List.findIdx?_eq_none_iff.mp hidx p hp
    obtain ⟨hmarket, hside⟩ := Prod.mk.inj hslot
    simp [hmarket, hside] at hnot

/-- A position may be replaced at its slot. -/
theorem Sound.set {ps before after : List SimulatedPosition} {idx : ℕ}
    {p : SimulatedPosition → Bool} {x y : SimulatedPosition} (hs : Sound ps)
    (hat : FirstAt p ps idx before x after) (hslot : slot y = slot x)
    (hpos : 0 < y.sizeUsd ∧ 0 < y.collateralUsd) : Sound (ps.set idx y) := by
  have hunique := hs.unique
  have hpositive := hs.positive
  rw [hat.set y]
  rw [hat.split] at hunique hpositive
  constructor
  · rw [List.map_append, List.map_cons] at hunique ⊢
    rw [hslot]
    exact hunique
  · intro q hq
    rcases List.mem_append.mp hq with hbefore | hrest
    · exact hpositive q (List.mem_append_left _ hbefore)
    · rcases List.mem_cons.mp hrest with rfl | hafter
      · exact hpos
      · exact hpositive q (List.mem_append_right _ (List.mem_cons_of_mem _ hafter))

theorem Sound.eraseIdx {ps : List SimulatedPosition} (hs : Sound ps) (idx : ℕ) :
    Sound (ps.eraseIdx idx) := by
  constructor
  · exact hs.unique.sublist ((List.eraseIdx_sublist ps idx).map _)
  · exact fun q hq => hs.positive q (List.mem_of_mem_eraseIdx hq)

/-- A position may be added at a free slot. -/
theorem Sound.snoc {ps : List SimulatedPosition} {p : SimulatedPosition} (hs : Sound ps)
    (hfree : slot p ∉ ps.map slot)
    (hpos : 0 < p.sizeUsd ∧ 0 < p.collateralUsd) : Sound (ps ++ [p]) := by
  constructor
  · rw [List.map_append, List.map_singleton]
    exact List.nodup_append.mpr ⟨hs.unique, List.nodup_singleton _, fun a ha b hb hab => by
      rw [List.mem_singleton] at hb
      exact hfree (hb ▸ hab ▸ ha)⟩
  · intro q hq
    rcases List.mem_append.mp hq with hold | hnew
    · exact hs.positive q hold
    · rw [List.mem_singleton] at hnew
      exact hnew ▸ hpos

theorem totalCollateral_set {ps before after : List SimulatedPosition} {idx : ℕ}
    {p : SimulatedPosition → Bool} {x : SimulatedPosition} (hat : FirstAt p ps idx before x after)
    (y : SimulatedPosition) :
    totalCollateral (ps.set idx y) = totalCollateral ps - x.collateralUsd + y.collateralUsd := by
  rw [hat.set y, hat.split]
  simp only [totalCollateral_append, totalCollateral_cons]
  ring

theorem totalCollateral_eraseIdx {ps before after : List SimulatedPosition} {idx : ℕ}
    {p : SimulatedPosition → Bool} {x : SimulatedPosition} (hat : FirstAt p ps idx before x after) :
    totalCollateral (ps.eraseIdx idx) = totalCollateral ps - x.collateralUsd := by
  rw [hat.eraseIdx, hat.split]
  simp only [totalCollateral_append, totalCollateral_cons]
  ring

/-! ## The operations move money as the ledger does -/

/-- Recording a trade moves no money. -/
theorem kept_pushTrade {initialBalance : ℚ} {s : SimulatedFlashClient} {h : List Event}
    (hk : Kept initialBalance s h) (trade : SimulatedTrade) :
    Kept initialBalance (s.pushTrade trade) h :=
  ⟨hk.balanced, hk.nonneg, hk.sound⟩

theorem forgiven_snoc (h : List Event) (ev : Event) :
    forgiven (h ++ [ev]) = forgiven h + ev.floored := by
  unfold forgiven
  rw [List.map_append, List.sum_append, List.map_singleton, List.sum_singleton]

/-- An open that passes its checks can be paid, for a positive size. -/
theorem quoteOpen_ok {m : Markets} {s : SimulatedFlashClient} {feeRates : ProtocolFeeRates}
    {market : String} {side : TradeSide} {collateralAmount leverage : ℚ} {q : OpenQuote}
    (hq : quoteOpen m s feeRates market side collateralAmount leverage = .ok q) :
    0 < collateralAmount ∧ 0 < q.sizeUsd ∧ collateralAmount + q.openFee ≤ s.balance := by
  unfold quoteOpen at hq
  dsimp only at hq
  split at hq
  · cases hq
  · split at hq
    · cases hq
    · next hvalid =>
      split at hq
      · cases hq
      · split at hq
        · cases hq
        · split at hq
          · cases hq
          · next hbalance =>
            obtain rfl := Except.ok.inj hq
            have hchecks : 0 < collateralAmount ∧ 11 / 10 ≤ leverage := by
              simp [validateTrade] at hvalid
              exact ⟨hvalid.1.1.1, hvalid.1.2⟩
            obtain ⟨hcollateral, hleverage⟩ := hchecks
            refine ⟨hcollateral, mul_pos hcollateral ?_, not_lt.mp hbalance⟩
            exact lt_of_lt_of_le (by norm_num) hleverage

/-- **Opening locks the collateral and pays the fee.** -/
theorem kept_applyOpen {initialBalance : ℚ} {s : SimulatedFlashClient} {h : List Event}
    {feeRates : ProtocolFeeRates} {id : String} {now : ℚ} {market : String} {side : TradeSide}
    {collateralAmount leverage : ℚ} {q : OpenQuote} (hk : Kept initialBalance s h)
    (hcollateral : 0 < collateralAmount) (hsize : 0 < q.sizeUsd)
    (hpay : collateralAmount + q.openFee ≤ s.balance) :
    Kept initialBalance
      (s.applyOpen feeRates id now market side collateralAmount leverage q).1
      (h ++ [Event.opened collateralAmount q.openFee]) := by
  -- the new list of positions is sound and has this much more collateral
  have hopen : ∀ ps, Sound ps → totalCollateral ps = totalCollateral s.positions + collateralAmount →
      ∀ trade, Kept initialBalance
        ({ s with
          balance := s.balance - (collateralAmount + q.openFee)
          totalFeesPaid := s.totalFeesPaid + q.openFee
          positions := ps }.pushTrade trade) (h ++ [Event.opened collateralAmount q.openFee]) := by
    intro ps hsound htotal trade
    -- the balance check covers the collateral and the fee
    have hcash := Ledger.lock_cash_nonneg (l := s.books h) hpay
    refine kept_pushTrade ⟨?_, fun _ => hcash, hsound⟩ trade
    have hlock := Ledger.lock_balanced hk.balanced collateralAmount q.openFee
    unfold books at hlock ⊢
    dsimp only
    rw [htotal, forgiven_snoc]
    show Ledger.Balanced _ { forgiven := forgiven h + 0, .. }
    rw [add_zero]
    exact hlock
  unfold applyOpen
  dsimp only
  split
  · next idx existing hfind =>
    obtain ⟨before, after, hat⟩ := findPosition_some hfind
    obtain ⟨hsizeE, hcollE⟩ := hk.sound.positive existing hat.mem
    refine hopen _ ?_ ?_ _
    · exact hk.sound.set hat rfl ⟨add_pos hsizeE hsize, add_pos hcollE hcollateral⟩
    rw [totalCollateral_set hat]
    show _ - existing.collateralUsd + (existing.collateralUsd + collateralAmount) = _
    ring
  · next hfind =>
    have hfree := findPosition_none hfind
    refine hopen _ ?_ ?_ _
    · exact hk.sound.snoc hfree ⟨hsize, hcollateral⟩
    rw [totalCollateral_append, totalCollateral_cons]
    show _ + (collateralAmount + 0) = _
    ring

/-- The requested part of a position is more than nothing and at most the whole. -/
theorem requestedFraction_ok {sizeUsd requested : ℚ} {closePercent closeAmount : Option ℚ}
    (hsize : 0 < sizeUsd)
    (hpercent : ∀ percent, closePercent = some percent → 0 < percent ∧ percent ≤ 100)
    (hamount : ∀ amount, closeAmount = some amount → 0 < amount)
    (hreq : requestedFraction sizeUsd closePercent closeAmount = .ok requested) :
    0 < requested ∧ requested ≤ 1 := by
  have hofAmount : requestedFraction.ofAmount sizeUsd closeAmount = .ok requested →
      0 < requested ∧ requested ≤ 1 := by
    intro hof
    cases closeAmount with
    | none =>
      obtain rfl := Except.ok.inj hof
      exact ⟨one_pos, le_refl 1⟩
    | some amount =>
      change (if sizeUsd < amount then _ else _) = _ at hof
      split at hof
      · cases hof
      · next hle =>
        obtain rfl := Except.ok.inj hof
        exact ⟨div_pos (hamount amount rfl) hsize, (div_le_one hsize).mpr (not_lt.mp hle)⟩
  cases closePercent with
  | none => exact hofAmount hreq
  | some percent =>
    change (if percent < 100 then _ else _) = _ at hreq
    split at hreq
    · next hlt =>
      obtain rfl := Except.ok.inj hreq
      obtain ⟨hpos, -⟩ := hpercent percent rfl
      constructor
      · linarith
      · linarith
    · exact hofAmount hreq

/-- A settlement takes the whole position, or a part of it strictly between
nothing and the whole. -/
theorem settlement_part (position : SimulatedPosition) (feeRates : ProtocolFeeRates)
    (price : ℚ) {requested : ℚ} (isPartial : Bool) (hpos : 0 < requested) :
    ((settlement position feeRates price requested isPartial).full = true ∧
      (settlement position feeRates price requested isPartial).closedCollateral =
        position.collateralUsd) ∨
    ∃ f, 0 < f ∧ f < 1 ∧ (settlement position feeRates price requested isPartial).full = false ∧
      (settlement position feeRates price requested isPartial).closedSizeUsd =
        position.sizeUsd * f ∧
      (settlement position feeRates price requested isPartial).closedCollateral =
        position.collateralUsd * f := by
  unfold settlement
  dsimp only
  -- the fraction after the snap, and whether the dust rule makes it the whole
  generalize hf : (if 999 / 1000 ≤ requested then 1 else requested) = f
  have hfpos : 0 < f := by
    rw [← hf]
    split
    · exact one_pos
    · exact hpos
  generalize hfull : (!isPartial || decide (position.sizeUsd * (1 - f) < 1 / 2) ||
    decide (1 ≤ f)) = full
  cases full with
  | true => exact .inl ⟨rfl, mul_one _⟩
  | false =>
    rw [Bool.or_eq_false_iff, decide_eq_false_iff_not, not_le] at hfull
    exact .inr ⟨f, hfpos, hfull.2, rfl, rfl, rfl⟩

/-- **A close settles the collateral it closes.** -/
theorem kept_applyClose {initialBalance : ℚ} {s : SimulatedFlashClient} {h : List Event}
    {feeRates : ProtocolFeeRates} {now price requested : ℚ} {side side' : TradeSide}
    {market : String} {idx : ℕ} {position : SimulatedPosition} {isPartial : Bool}
    (hk : Kept initialBalance s h) (hfind : s.findPosition market side = some (idx, position))
    (hpos : 0 < requested) :
    Kept initialBalance
      (s.applyClose now side' idx position price isPartial
        (settlement position feeRates price requested isPartial)).1
      (h ++ [Event.closed (settlement position feeRates price requested isPartial)]) := by
  obtain ⟨before, after, hat⟩ := findPosition_some hfind
  obtain ⟨hsize, hcoll⟩ := hk.sound.positive position hat.mem
  have hpart := settlement_part position feeRates price isPartial hpos
  generalize settlement position feeRates price requested isPartial = c at hpart ⊢
  -- closed in full or in part, this much less collateral is locked
  have hlist : Sound (if c.full then s.positions.eraseIdx idx
        else s.positions.set idx (reducedPosition position c)) ∧
      totalCollateral (if c.full then s.positions.eraseIdx idx
        else s.positions.set idx (reducedPosition position c)) =
        totalCollateral s.positions - c.closedCollateral := by
    rcases hpart with ⟨hfull, hclosed⟩ | ⟨f, hf₀, hf₁, hnot, hclosedSize, hclosed⟩
    · rw [if_pos hfull, hclosed]
      exact ⟨hk.sound.eraseIdx idx, totalCollateral_eraseIdx hat⟩
    · rw [if_neg (Bool.eq_false_iff.mp hnot)]
      constructor
      · refine hk.sound.set hat rfl ?_
        show 0 < position.sizeUsd - c.closedSizeUsd ∧
          0 < position.collateralUsd - c.closedCollateral
        rw [hclosedSize, hclosed, sub_pos, sub_pos]
        exact ⟨mul_lt_of_lt_one_right hsize hf₁, mul_lt_of_lt_one_right hcoll hf₁⟩
      · rw [totalCollateral_set hat]
        show _ - position.collateralUsd + (position.collateralUsd - c.closedCollateral) = _
        ring
  obtain ⟨hsound, htotal⟩ := hlist
  unfold applyClose
  refine kept_pushTrade ⟨?_, fun hinit => ?_, hsound⟩ _
  · have hsettle := Ledger.settle_balanced hk.balanced c.closedCollateral c.pnl c.closeFee
    unfold books
    rw [htotal, forgiven_snoc]
    exact hsettle
  · exact Ledger.settle_cash_nonneg (l := s.books h) (hk.nonneg hinit) _ _ _

/-- Another collateral and leverage for a position, the cash moved accordingly. -/
theorem kept_moveCollateral {initialBalance : ℚ} {s : SimulatedFlashClient} {h : List Event}
    {market : String} {side : TradeSide} {idx : ℕ} {pos : SimulatedPosition} (amount : ℚ)
    {ev : Event} (hk : Kept initialBalance s h)
    (hfind : s.findPosition market side = some (idx, pos))
    (hcash : 0 ≤ initialBalance → 0 ≤ s.balance + amount)
    (hcoll : amount < pos.collateralUsd) (hev : ev.floored = 0) (trade : SimulatedTrade) :
    Kept initialBalance
      ({ s with
        balance := s.balance + amount
        positions := s.positions.set idx (withCollateral pos (pos.collateralUsd - amount)) }.pushTrade
          trade)
      (h ++ [ev]) := by
  obtain ⟨before, after, hat⟩ := findPosition_some hfind
  obtain ⟨hsize, -⟩ := hk.sound.positive pos hat.mem
  have hsound : Sound
      (s.positions.set idx (withCollateral pos (pos.collateralUsd - amount))) :=
    hk.sound.set hat rfl ⟨hsize, sub_pos.mpr hcoll⟩
  refine kept_pushTrade ⟨?_, hcash, hsound⟩ trade
  have hrelease := Ledger.release_balanced hk.balanced amount
  have htotal : totalCollateral
      (s.positions.set idx (withCollateral pos (pos.collateralUsd - amount))) =
      totalCollateral s.positions - amount := by
    rw [totalCollateral_set hat]
    show _ - pos.collateralUsd + (pos.collateralUsd - amount) = _
    ring
  unfold books
  dsimp only
  rw [htotal, forgiven_snoc, hev, add_zero]
  exact hrelease

/-- Setting or removing a trigger moves no money. -/
theorem kept_setTrigger {initialBalance : ℚ} {s : SimulatedFlashClient} {h : List Event}
    {market : String} {side : TradeSide} {idx : ℕ} {pos : SimulatedPosition} (tp sl : Option ℚ)
    (hk : Kept initialBalance s h) (hfind : s.findPosition market side = some (idx, pos)) :
    Kept initialBalance
      { s with positions := s.positions.set idx { pos with takeProfit := tp, stopLoss := sl } } h := by
  obtain ⟨before, after, hat⟩ := findPosition_some hfind
  have hpos := hk.sound.positive pos hat.mem
  refine ⟨?_, hk.nonneg, hk.sound.set hat rfl hpos⟩
  have htotal : totalCollateral
      (s.positions.set idx { pos with takeProfit := tp, stopLoss := sl }) =
      totalCollateral s.positions := by
    rw [totalCollateral_set hat]
    show _ - pos.collateralUsd + pos.collateralUsd = _
    ring
  unfold books
  dsimp only
  rw [htotal]
  exact hk.balanced

/-! ## Every step keeps the books -/

theorem kept_openPosition {initialBalance : ℚ} {m : Markets} {s s' : SimulatedFlashClient}
    {h : List Event} {feeRates : ProtocolFeeRates} {id : String} {now : ℚ} {market : String}
    {side : TradeSide} {collateralAmount leverage : ℚ} {r : OpenPositionResult} {q : OpenQuote}
    (hk : Kept initialBalance s h)
    (ho : openPosition m s feeRates id now market side collateralAmount leverage = .ok (s', r, q)) :
    Kept initialBalance s' (h ++ [Event.opened collateralAmount q.openFee]) := by
  unfold openPosition at ho
  split at ho
  · cases ho
  · next q' hq =>
    obtain ⟨rfl, hrest⟩ := Prod.mk.inj (Except.ok.inj ho)
    obtain ⟨-, rfl⟩ := Prod.mk.inj hrest
    obtain ⟨hcollateral, hsize, hpay⟩ := quoteOpen_ok hq
    exact kept_applyOpen hk hcollateral hsize hpay

theorem kept_closePosition {initialBalance : ℚ} {s s' : SimulatedFlashClient} {h : List Event}
    {feeRates : ProtocolFeeRates} {now : ℚ} {market : String} {side : TradeSide}
    {closePercent closeAmount : Option ℚ} {r : ClosePositionResult} {c : Settlement}
    (hk : Kept initialBalance s h)
    (hpercent : ∀ percent, closePercent = some percent → 0 < percent ∧ percent ≤ 100)
    (hamount : ∀ amount, closeAmount = some amount → 0 < amount)
    (hc : s.closePosition feeRates now market side closePercent closeAmount = .ok (s', r, c)) :
    Kept initialBalance s' (h ++ [Event.closed c]) := by
  unfold closePosition at hc
  split at hc
  · cases hc
  · next idx position hfind =>
    split at hc
    · cases hc
    · next price hprice =>
      split at hc
      · cases hc
      · next requested hrequested =>
        obtain ⟨rfl, hrest⟩ := Prod.mk.inj (Except.ok.inj hc)
        obtain ⟨-, rfl⟩ := Prod.mk.inj hrest
        obtain ⟨before, after, hat⟩ := findPosition_some hfind
        have hsize := (hk.sound.positive position hat.mem).1
        have hpos := (requestedFraction_ok hsize hpercent hamount hrequested).1
        exact kept_applyClose hk hfind hpos

theorem kept_addCollateral {initialBalance : ℚ} {s s' : SimulatedFlashClient} {h : List Event}
    {now amount : ℚ} {market : String} {side : TradeSide} {r : CollateralResult}
    (hk : Kept initialBalance s h) (ha : s.addCollateral now market side amount = .ok (s', r)) :
    Kept initialBalance s' (h ++ [Event.collateralAdded amount]) := by
  unfold addCollateral at ha
  split at ha
  · cases ha
  · next hpos =>
    split at ha
    · cases ha
    · next hbalance =>
      split at ha
      · cases ha
      · next idx pos hfind =>
        obtain ⟨rfl, -⟩ := Prod.mk.inj (Except.ok.inj ha)
        obtain ⟨before, after, hat⟩ := findPosition_some hfind
        have hcoll := (hk.sound.positive pos hat.mem).2
        -- adding is releasing the opposite amount
        have hcash : 0 ≤ initialBalance → 0 ≤ s.balance + -amount := fun _ => by linarith
        have hevent : (Event.collateralAdded amount).floored = 0 := rfl
        have hmove := kept_moveCollateral (-amount) hk hfind hcash (by linarith) hevent
        simp only [sub_neg_eq_add, ← sub_eq_add_neg] at hmove
        exact hmove _

theorem kept_removeCollateral {initialBalance : ℚ} {s s' : SimulatedFlashClient}
    {h : List Event} {now amount : ℚ} {market : String} {side : TradeSide} {r : CollateralResult}
    (hk : Kept initialBalance s h) (hpos : 0 < amount)
    (hr : s.removeCollateral now market side amount = .ok (s', r)) :
    Kept initialBalance s' (h ++ [Event.collateralRemoved amount]) := by
  unfold removeCollateral at hr
  split at hr
  · cases hr
  · next idx pos hfind =>
    split at hr
    · cases hr
    · next hrest =>
      dsimp only at hr
      generalize (if 0 < pos.collateralUsd - amount then _ else 0 : ℚ) = newLev at hr
      split at hr
      · cases hr
      · obtain ⟨rfl, -⟩ := Prod.mk.inj (Except.ok.inj hr)
        have hcash : 0 ≤ initialBalance → 0 ≤ s.balance + amount := fun hinit =>
          Ledger.release_cash_nonneg (l := s.books h) (hk.nonneg hinit) (le_of_lt hpos)
        exact kept_moveCollateral amount hk hfind hcash (not_le.mp hrest) rfl _

theorem kept_triggerIndex {initialBalance : ℚ} {s : SimulatedFlashClient} {h : List Event}
    (hk : Kept initialBalance s h) (i : Option ℕ) :
    Kept initialBalance { s with triggerIndex := i } h :=
  ⟨hk.balanced, hk.nonneg, hk.sound⟩

/-- An operation that throws has moved no money. -/
theorem kept_failed {initialBalance : ℚ} {s : SimulatedFlashClient} {h : List Event}
    (hk : Kept initialBalance s h) (error : SimulationError) :
    Kept initialBalance s (h ++ [Event.failed error]) := by
  refine hk.silent fun ev hev => ?_
  rw [List.mem_singleton] at hev
  rw [hev]
  rfl

theorem kept_quiet {initialBalance : ℚ} {s : SimulatedFlashClient} {h : List Event}
    (hk : Kept initialBalance s h) : Kept initialBalance s (h ++ []) := by
  rwa [List.append_nil]

theorem kept_triggerNext {initialBalance : ℚ} {s : SimulatedFlashClient} {h : List Event}
    (hk : Kept initialBalance s h) (feed : PriceFeed) (feeRates : ProtocolFeeRates) (now : ℚ)
    (i : ℕ) :
    Kept initialBalance (s.triggerNext feed feeRates now i).1
      (h ++ (s.triggerNext feed feeRates now i).2) := by
  cases i with
  | zero => exact kept_quiet (kept_triggerIndex hk none)
  | succ i =>
    unfold triggerNext
    dsimp only
    split
    · exact kept_quiet (kept_triggerIndex hk _)
    · next pos hpos =>
      have hrefreshed := hk.same (sameAccount_refreshPrices s feed)
      split
      · next s' r c hclose =>
        refine kept_triggerIndex (kept_closePosition hrefreshed ?_ ?_ hclose) _
        · exact fun _ hnone => nomatch hnone
        · exact fun _ hnone => nomatch hnone
      · exact kept_triggerIndex (kept_failed hrefreshed _) _

theorem kept_locked {initialBalance : ℚ} {m : Markets} {s : SimulatedFlashClient}
    {h : List Event} (hk : Kept initialBalance s h) {a : Action} (ha : Valid a) :
    Kept initialBalance (s.locked m a).1 (h ++ (s.locked m a).2) := by
  cases a with
  | openPosition feed feeRates id now market side collateralAmount leverage =>
    have hrefreshed := hk.same (sameAccount_refreshPrices s feed)
    unfold locked
    dsimp only
    split
    · next s' r q hopen => exact kept_openPosition hrefreshed hopen
    · exact kept_failed hrefreshed _
  | closePosition feed feeRates now market side closePercent closeAmount =>
    have hrefreshed := hk.same (sameAccount_refreshPrices s feed)
    unfold locked
    dsimp only
    split
    · next s' r c hclose => exact kept_closePosition hrefreshed ha.1 ha.2 hclose
    · exact kept_failed hrefreshed _
  | addCollateral now market side amount =>
    unfold locked
    dsimp only
    split
    · next s' r hadd => exact kept_addCollateral hk hadd
    · exact kept_failed hk _
  | removeCollateral feed now market side amount =>
    have hrefreshed := hk.same (sameAccount_refreshPrices s feed)
    unfold locked
    dsimp only
    split
    · exact kept_failed hk _
    · next hpos =>
      split
      · next s' r hremove => exact kept_removeCollateral hrefreshed (not_le.mp hpos) hremove
      · exact kept_failed hrefreshed _
  | checkTpSlTriggers => exact kept_quiet (kept_triggerIndex hk _)
  | refreshPrices feed => exact kept_quiet hk
  | setTpSl market side tp sl => exact kept_quiet hk
  | removeTpSl market side => exact kept_quiet hk
  | triggerNext feed feeRates now => exact kept_quiet hk

theorem kept_setTpSl {initialBalance : ℚ} {s : SimulatedFlashClient} {h : List Event}
    (hk : Kept initialBalance s h) (market : String) (side : TradeSide) (tp sl : Option ℚ) :
    Kept initialBalance (s.setTpSl market side tp sl).1 h := by
  unfold setTpSl
  split
  · exact hk
  · next idx pos hfind => exact kept_setTrigger _ _ hk hfind

theorem kept_removeTpSl {initialBalance : ℚ} {s : SimulatedFlashClient} {h : List Event}
    (hk : Kept initialBalance s h) (market : String) (side : TradeSide) :
    Kept initialBalance (s.removeTpSl market side).1 h := by
  unfold removeTpSl
  split
  · exact hk
  · next idx pos hfind => exact kept_setTrigger _ _ hk hfind

theorem kept_step {initialBalance : ℚ} {m : Markets} {s s' : SimulatedFlashClient}
    {h es : List Event} {a : Action} (hk : Kept initialBalance s h) (ha : Valid a)
    (hs : s.step m a = some (s', es)) : Kept initialBalance s' (h ++ es) := by
  have hlocked : (if s.triggerIndex.isNone then some (s.locked m a) else none) = some (s', es) →
      Kept initialBalance s' (h ++ es) := by
    intro hs
    split at hs
    · obtain ⟨rfl, rfl⟩ := Machine.some_pair hs
      exact kept_locked hk ha
    · cases hs
  cases a with
  | refreshPrices feed =>
    obtain ⟨rfl, rfl⟩ := Machine.some_pair hs
    exact kept_quiet (hk.same (sameAccount_refreshPrices s feed))
  | setTpSl market side tp sl =>
    obtain ⟨rfl, rfl⟩ := Machine.some_pair hs
    exact kept_quiet (kept_setTpSl hk market side tp sl)
  | removeTpSl market side =>
    obtain ⟨rfl, rfl⟩ := Machine.some_pair hs
    exact kept_quiet (kept_removeTpSl hk market side)
  | triggerNext feed feeRates now =>
    rw [step] at hs
    split at hs
    · next i hi =>
      obtain ⟨rfl, rfl⟩ := Machine.some_pair hs
      exact kept_triggerNext hk feed feeRates now i
    · cases hs
  | openPosition feed feeRates id now market side collateralAmount leverage => exact hlocked hs
  | closePosition feed feeRates now market side closePercent closeAmount => exact hlocked hs
  | addCollateral now market side amount => exact hlocked hs
  | removeCollateral feed now market side amount => exact hlocked hs
  | checkTpSlTriggers => exact hlocked hs

/-- **The books of the paper-trading client.** In every state reached by valid
requests, prices and passes: the balance is not negative, no market and side has
two positions, every position has a positive size and collateral, and balance
plus collateral is the initial balance plus realized PnL minus fees, up to what
the floor at zero of the close returns has left unpaid. -/
theorem books_balanced {m : Markets} {initialBalance : ℚ} {s : SimulatedFlashClient}
    {h : List Event} (hr : (simulation m initialBalance).Reaches (fun _ _ a => Valid a) s h) :
    (0 ≤ initialBalance → 0 ≤ s.balance) ∧
    (s.positions.map slot).Nodup ∧
    (∀ p ∈ s.positions, 0 < p.sizeUsd ∧ 0 < p.collateralUsd) ∧
    s.balance + totalCollateral s.positions =
      initialBalance + s.totalRealizedPnl - s.totalFeesPaid + forgiven h := by
  have hkept : Kept initialBalance s h := by
    refine hr.invariant (I := Kept initialBalance) ?_ ?_
    · refine ⟨?_, id, List.nodup_nil, fun _ hp => nomatch hp⟩
      show initialBalance + 0 = initialBalance + 0 - 0 + 0
      ring
    · intro s s' h es a _ hk ha hs
      exact kept_step hk ha hs
  exact ⟨hkept.nonneg, hkept.sound.unique, hkept.sound.positive, hkept.balanced⟩

/-- A long position is opened at 100, halved at 110, moved by 10 in and out, and
closed at 50, where it has lost more than its collateral. -/
def crash : List Action :=
  let feed (price : ℚ) : PriceFeed :=
    { primary := some [("SOL", { price := .finite price, priceChange24h := 0 })]
      secondary := none }
  let rates : ProtocolFeeRates :=
    { openFeeRate := 1 / 1000, closeFeeRate := 1 / 1000, maintenanceMarginRate := 1 / 100 }
  [.openPosition (feed 100) rates "a" 0 "sol" .Long 100 5,
    .closePosition (feed 110) rates 1 "SOL" .Long (some 50) none,
    .addCollateral 2 "SOL" .Long 10, .removeCollateral (feed 110) 3 "SOL" .Long 10,
    .closePosition (feed 50) rates 4 "SOL" .Long none none]

theorem books_balanced_crash :
    ∃ s h, (simulation ⟨fun _ => 100, fun _ => 8⟩ 1000).run crash = some (s, h) ∧
      s.positions = [] ∧ 0 < forgiven h ∧
      s.balance + totalCollateral s.positions =
        1000 + s.totalRealizedPnl - s.totalFeesPaid + forgiven h := by
  have hrun : ((simulation ⟨fun _ => 100, fun _ => 8⟩ 1000).run crash).map
      (fun r => (r.1.positions, decide (0 < forgiven r.2))) = some ([], true) := by
    decide +kernel
  obtain ⟨⟨s, h⟩, hs, hsh⟩ := Option.map_eq_some_iff.mp hrun
  obtain ⟨hclosed, hfloored⟩ := Prod.mk.inj hsh
  have hvalid : ∀ a ∈ crash, Valid a := by
    have hhalf : (50 : ℚ) ≤ 100 := by norm_num
    simp [crash, Valid, hhalf]
  have hr := Machine.reaches_of_along Machine.Reaches.init
    (Machine.along_of_forall (fun a ha _ _ => hvalid a ha) _ _) hs
  exact ⟨s, h, hs, hclosed, of_decide_eq_true hfloored, (books_balanced hr).2.2.2⟩

end SimulatedFlashClient

end FlashEdge
