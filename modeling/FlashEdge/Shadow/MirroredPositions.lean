import FlashEdge.Client.SimulationLedger
import FlashEdge.Shadow.ShadowEngine

/-!
# The shadow engine holds what the primary client holds

After every trade the two clients should hold the same size at every market and side
(`Mirrored`). The copy of an open may be refused by the shadow client, whose balance is its
own; a partial close has no copy, and neither have the closes of `flash_close_all`.
`mirrored_iff` says that any of these breaks the mirror, and nothing else does: a full close
is always copied, and collateral does not change a size.
-/

namespace FlashEdge

namespace SimulatedFlashClient

/-! ## The size held at a market and side -/

def heldIn (positions : List SimulatedPosition) (k : String × TradeSide) : Option ℚ :=
  (positions.find? fun p => decide (slot p = k)).map SimulatedPosition.sizeUsd

/-- The size held, if there is a position. -/
def held (s : SimulatedFlashClient) : String × TradeSide → Option ℚ := heldIn s.positions

variable {ps before after : List SimulatedPosition} {x y : SimulatedPosition} {idx : ℕ}
  {market : String} {side : TradeSide}

/-- With one position a market and side, this is what the list holds. -/
theorem heldIn_eq_some_iff (hs : Sound ps) {k : String × TradeSide} {size : ℚ} :
    heldIn ps k = some size ↔ ∃ p ∈ ps, slot p = k ∧ p.sizeUsd = size := by
  unfold heldIn
  constructor
  · intro hheld
    obtain ⟨p, hp, hsize⟩ := Option.map_eq_some_iff.mp hheld
    have hslot := List.find?_some hp
    exact ⟨p, List.mem_of_find?_eq_some hp, of_decide_eq_true hslot, hsize⟩
  · rintro ⟨p, hp, rfl, rfl⟩
    cases hfind : ps.find? fun q => decide (slot q = slot p) with
    | none =>
      have hnot := List.find?_eq_none.mp hfind p hp
      simp at hnot
    | some q =>
      -- the one that is found is this one
      have hslot : slot q = slot p := by simpa using List.find?_some hfind
      have hsame : q = p :=
        List.inj_on_of_nodup_map hs.unique (List.mem_of_find?_eq_some hfind) hp hslot
      rw [hsame]
      rfl

theorem heldIn_free {k : String × TradeSide} (hfree : k ∉ ps.map slot) : heldIn ps k = none := by
  unfold heldIn
  have hnone : (ps.find? fun p => decide (slot p = k)) = none := by
    rw [List.find?_eq_none]
    intro p hp
    simp only [decide_eq_true_eq]
    rintro rfl
    exact hfree (List.mem_map_of_mem hp)
  rw [hnone]
  rfl

theorem heldIn_append (k : String × TradeSide) :
    heldIn (before ++ after) k = (heldIn before k).or (heldIn after k) := by
  unfold heldIn
  rw [List.find?_append]
  cases before.find? fun p => decide (slot p = k) with
  | none => rfl
  | some p => rfl

theorem heldIn_cons (k : String × TradeSide) :
    heldIn (x :: after) k = if slot x = k then some x.sizeUsd else heldIn after k := by
  unfold heldIn
  by_cases hk : slot x = k
  · simp [hk]
  · simp [hk]

/-- The position of a slot in its list. -/
theorem slot_of_firstAt (hat : FirstAt (atSlot market side) ps idx before x after) :
    slot x = (toUpperCase market, side) ∧ (toUpperCase market, side) ∉ before.map slot := by
  constructor
  · have hholds := hat.holds
    simp only [Bool.and_eq_true, decide_eq_true_eq] at hholds
    exact Prod.ext hholds.1 hholds.2
  · intro hmem
    obtain ⟨p, hp, hslot⟩ := List.mem_map.mp hmem
    obtain ⟨hmarket, hside⟩ := Prod.mk.inj hslot
    have hfirst := hat.first p hp
    simp [hmarket, hside] at hfirst

theorem heldIn_at (hat : FirstAt (atSlot market side) ps idx before x after) :
    heldIn ps (toUpperCase market, side) = some x.sizeUsd := by
  obtain ⟨hslot, hfree⟩ := slot_of_firstAt hat
  rw [hat.split, heldIn_append, heldIn_free hfree, heldIn_cons, if_pos hslot]
  rfl

/-- Another position in the place of one. -/
theorem heldIn_set (hat : FirstAt (atSlot market side) ps idx before x after)
    (hy : slot y = slot x) :
    heldIn (ps.set idx y) =
      Function.update (heldIn ps) (toUpperCase market, side) (some y.sizeUsd) := by
  obtain ⟨hslot, hfree⟩ := slot_of_firstAt hat
  funext k
  rw [hat.set y, heldIn_append, heldIn_cons, hy, hslot]
  by_cases hk : k = (toUpperCase market, side)
  · subst hk
    rw [Function.update_self, heldIn_free hfree, if_pos rfl]
    rfl
  · have hne : ¬ (toUpperCase market, side) = k := fun h => hk h.symm
    rw [Function.update_of_ne hk, if_neg hne, hat.split, heldIn_append, heldIn_cons, hslot,
      if_neg hne]

/-- A position is removed. -/
theorem heldIn_eraseIdx (hs : Sound ps)
    (hat : FirstAt (atSlot market side) ps idx before x after) :
    heldIn (ps.eraseIdx idx) =
      Function.update (heldIn ps) (toUpperCase market, side) none := by
  obtain ⟨hslot, hfree⟩ := slot_of_firstAt hat
  have hunique := hs.unique
  rw [hat.split, List.map_append, List.map_cons, hslot] at hunique
  have hafter : (toUpperCase market, side) ∉ after.map slot :=
    (List.nodup_cons.mp (List.Nodup.of_append_right hunique)).1
  funext k
  rw [hat.eraseIdx, heldIn_append]
  by_cases hk : k = (toUpperCase market, side)
  · subst hk
    rw [Function.update_self, heldIn_free hfree, heldIn_free hafter]
    rfl
  · have hne : ¬ (toUpperCase market, side) = k := fun h => hk h.symm
    rw [Function.update_of_ne hk, hat.split, heldIn_append, heldIn_cons, hslot, if_neg hne]

/-- A position at a free slot. -/
theorem heldIn_snoc (hfree : slot y ∉ ps.map slot) :
    heldIn (ps ++ [y]) = Function.update (heldIn ps) (slot y) (some y.sizeUsd) := by
  funext k
  rw [heldIn_append, heldIn_cons]
  by_cases hk : k = slot y
  · subst hk
    rw [Function.update_self, heldIn_free hfree, if_pos rfl]
    rfl
  · have hne : ¬ slot y = k := fun h => hk h.symm
    rw [Function.update_of_ne hk, if_neg hne]
    unfold heldIn
    simp

/-! ## What the operations do to the sizes -/

theorem quoteOpen_sizeUsd {m : Markets} {s : SimulatedFlashClient} {feeRates : ProtocolFeeRates}
    {collateral leverage : ℚ} {q : OpenQuote}
    (hq : quoteOpen m s feeRates market side collateral leverage = .ok q) :
    q.sizeUsd = collateral * leverage := by
  unfold quoteOpen at hq
  dsimp only at hq
  split at hq
  · cases hq
  · split at hq
    · cases hq
    · split at hq
      · cases hq
      · split at hq
        · cases hq
        · split at hq
          · cases hq
          · obtain rfl := Except.ok.inj hq
            rfl

/-- An open adds to the size. -/
theorem held_applyOpen (s : SimulatedFlashClient) (feeRates : ProtocolFeeRates) (id : String)
    (now : ℚ) (market : String) (side : TradeSide) (collateral leverage : ℚ) (q : OpenQuote) :
    (s.applyOpen feeRates id now market side collateral leverage q).1.held =
      Function.update s.held (toUpperCase market, side)
        (some ((s.held (toUpperCase market, side)).getD 0 + q.sizeUsd)) := by
  unfold applyOpen
  dsimp only
  split
  · next idx existing hfind =>
    obtain ⟨before, after, hat⟩ := findPosition_some hfind
    have hat' : s.held (toUpperCase market, side) = some existing.sizeUsd := heldIn_at hat
    rw [hat', Option.getD_some]
    exact heldIn_set hat rfl
  · next hfind =>
    have hfree := findPosition_none hfind
    have hnone : s.held (toUpperCase market, side) = none := heldIn_free hfree
    rw [hnone, Option.getD_none, zero_add]
    exact heldIn_snoc hfree

/-- A close removes the position, or leaves the rest of it. -/
theorem held_applyClose {s : SimulatedFlashClient} (hs : Sound s.positions) (now : ℚ)
    {pos : SimulatedPosition} (hfind : s.findPosition market side = some (idx, pos)) (price : ℚ)
    (isPartial : Bool) (c : Settlement) :
    (s.applyClose now side idx pos price isPartial c).1.held =
      Function.update s.held (toUpperCase market, side)
        (if c.full then none else some (pos.sizeUsd - c.closedSizeUsd)) := by
  obtain ⟨before, after, hat⟩ := findPosition_some hfind
  cases hfull : c.full with
  | true =>
    have herase := heldIn_eraseIdx hs hat
    simp only [applyClose, hfull, if_true]
    exact herase
  | false =>
    have hset : heldIn (s.positions.set idx (reducedPosition pos c)) = _ := heldIn_set hat rfl
    simp only [applyClose, hfull, Bool.false_eq_true, if_false]
    exact hset

/-- A position with other collateral has the same size. -/
theorem heldIn_withCollateral (hat : FirstAt (atSlot market side) ps idx before x after)
    (collateralUsd : ℚ) : heldIn (ps.set idx (withCollateral x collateralUsd)) = heldIn ps := by
  have hset : heldIn (ps.set idx (withCollateral x collateralUsd)) = _ := heldIn_set hat rfl
  have hsame : (withCollateral x collateralUsd).sizeUsd = x.sizeUsd := rfl
  rw [hset, hsame, ← heldIn_at hat, Function.update_eq_self]

theorem held_addCollateral {s s' : SimulatedFlashClient} {now amount : ℚ} {r : CollateralResult}
    (ha : s.addCollateral now market side amount = .ok (s', r)) : s'.held = s.held := by
  unfold addCollateral at ha
  split at ha
  · cases ha
  · split at ha
    · cases ha
    · split at ha
      · cases ha
      · next idx pos hfind =>
        obtain ⟨rfl, -⟩ := Prod.mk.inj (Except.ok.inj ha)
        obtain ⟨before, after, hat⟩ := findPosition_some hfind
        exact heldIn_withCollateral hat _

theorem held_removeCollateral {s s' : SimulatedFlashClient} {now amount : ℚ}
    {r : CollateralResult} (hr : s.removeCollateral now market side amount = .ok (s', r)) :
    s'.held = s.held := by
  unfold removeCollateral at hr
  split at hr
  · cases hr
  · next idx pos hfind =>
    split at hr
    · cases hr
    · dsimp only at hr
      generalize (if 0 < pos.collateralUsd - amount then _ else 0 : ℚ) = newLev at hr
      split at hr
      · cases hr
      · obtain ⟨rfl, -⟩ := Prod.mk.inj (Except.ok.inj hr)
        obtain ⟨before, after, hat⟩ := findPosition_some hfind
        exact heldIn_withCollateral hat _

theorem held_refreshPrices (s : SimulatedFlashClient) (feed : PriceFeed) :
    (s.refreshPrices feed).held = s.held := by
  unfold held
  rw [(sameAccount_refreshPrices s feed).positions]

/-! ## The public methods keep the books -/

/-- The client is in order. -/
def InOrder (initialBalance : ℚ) (s : SimulatedFlashClient) : Prop :=
  ∃ h, Kept initialBalance s h

variable {initialBalance : ℚ} {m : Markets} {s s' : SimulatedFlashClient} {o : Outside}

theorem InOrder.sound (hs : InOrder initialBalance s) : Sound s.positions := by
  obtain ⟨h, hkept⟩ := hs
  exact hkept.sound

theorem InOrder.refreshPrices (hs : InOrder initialBalance s) (feed : PriceFeed) :
    InOrder initialBalance (s.refreshPrices feed) := by
  obtain ⟨h, hkept⟩ := hs
  exact ⟨h, hkept.same (sameAccount_refreshPrices s feed)⟩

/-- An open, when the checks refuse it and when they accept it. -/
theorem callOpenPosition_cases (hs : InOrder initialBalance s) (m : Markets) (o : Outside)
    (market : String) (side : TradeSide) (collateral leverage : ℚ) :
    InOrder initialBalance (callOpenPosition m s o market side collateral leverage).1 ∧
      ((∃ error, quoteOpen m (s.refreshPrices o.feed) o.feeRates market side collateral leverage =
            .error error ∧
          (callOpenPosition m s o market side collateral leverage).2 = .error error ∧
          (callOpenPosition m s o market side collateral leverage).1.held = s.held) ∨
        ∃ q, quoteOpen m (s.refreshPrices o.feed) o.feeRates market side collateral leverage =
            .ok q ∧
          (callOpenPosition m s o market side collateral leverage).1.held =
            Function.update s.held (toUpperCase market, side)
              (some ((s.held (toUpperCase market, side)).getD 0 + collateral * leverage))) := by
  have hrefreshed := hs.refreshPrices o.feed
  have hheld := held_refreshPrices s o.feed
  unfold callOpenPosition openPosition
  dsimp only
  generalize s.refreshPrices o.feed = t at hrefreshed hheld
  cases hq : quoteOpen m t o.feeRates market side collateral leverage with
  | error error => exact ⟨hrefreshed, .inl ⟨error, rfl, rfl, hheld⟩⟩
  | ok q =>
    obtain ⟨h, hkept⟩ := hrefreshed
    obtain ⟨hcollateral, hsize, hpay⟩ := quoteOpen_ok hq
    refine ⟨⟨_, kept_applyOpen hkept hcollateral hsize hpay⟩, .inr ⟨q, rfl, ?_⟩⟩
    dsimp only
    rw [held_applyOpen, quoteOpen_sizeUsd hq, hheld]

/-- The part `requested` of a position is the whole, or leaves nothing worth keeping. -/
def Whole (sizeUsd requested : ℚ) (isPartial : Bool) : Prop :=
  isPartial = false ∨ 999 / 1000 ≤ requested ∨ sizeUsd * (1 - requested) < 1 / 2

theorem settlement_full_iff (pos : SimulatedPosition) (feeRates : ProtocolFeeRates)
    (price requested : ℚ) (isPartial : Bool) :
    (settlement pos feeRates price requested isPartial).full = true ↔
      Whole pos.sizeUsd requested isPartial := by
  unfold settlement Whole
  dsimp only
  by_cases hsnap : 999 / 1000 ≤ requested
  · simp [hsnap]
  · have hlt : ¬ 1 ≤ requested := by linarith
    simp [hsnap, hlt]

/-- The position found is the one held. -/
theorem held_of_findPosition {pos : SimulatedPosition}
    (hfind : s.findPosition market side = some (idx, pos)) :
    s.held (toUpperCase market, side) = some pos.sizeUsd := by
  obtain ⟨before, after, hat⟩ := findPosition_some hfind
  exact heldIn_at hat

theorem findPosition_of_held {size : ℚ} (hheld : s.held (toUpperCase market, side) = some size) :
    ∃ idx pos, s.findPosition market side = some (idx, pos) := by
  cases hfind : s.findPosition market side with
  | some found => exact ⟨found.1, found.2, rfl⟩
  | none =>
    have hnone : s.held (toUpperCase market, side) = none := heldIn_free (findPosition_none hfind)
    rw [hnone] at hheld
    cases hheld

/-- A close that succeeds: the whole position goes, or a smaller one stays. -/
theorem callClosePosition_ok (hs : InOrder initialBalance s) {closePercent closeAmount : Option ℚ}
    (hpercent : ∀ percent, closePercent = some percent → 0 < percent ∧ percent ≤ 100)
    (hamount : ∀ amount, closeAmount = some amount → 0 < amount) {r : ClosePositionResult}
    (hc : s.callClosePosition o market side closePercent closeAmount = (s', .ok r)) :
    InOrder initialBalance s' ∧
      (∃ price, (s.refreshPrices o.feed).getPrice market = .ok price) ∧
      ∃ size requested, s.held (toUpperCase market, side) = some size ∧
        requestedFraction size closePercent closeAmount = .ok requested ∧
        (Whole size requested (isPartialRequest closePercent closeAmount) ∧ r.isPartial = false ∧
            s'.held = Function.update s.held (toUpperCase market, side) none ∨
          ¬ Whole size requested (isPartialRequest closePercent closeAmount) ∧
            r.isPartial = true ∧ ∃ rest, rest ≠ size ∧
              s'.held = Function.update s.held (toUpperCase market, side) (some rest)) := by
  have hrefreshed := hs.refreshPrices o.feed
  have hheld := held_refreshPrices s o.feed
  unfold callClosePosition closePosition at hc
  dsimp only at hc
  generalize s.refreshPrices o.feed = t at hrefreshed hheld hc
  cases hfind : t.findPosition market side with
  | none => rw [hfind] at hc; cases hc
  | some found =>
    obtain ⟨idx, pos⟩ := found
    cases hprice : t.getPrice market with
    | error error => rw [hfind, hprice] at hc; cases hc
    | ok price =>
      cases hrequested : requestedFraction pos.sizeUsd closePercent closeAmount with
      | error error => simp only [hfind, hprice, hrequested] at hc; cases hc
      | ok requested =>
        simp only [hfind, hprice, hrequested] at hc
        obtain ⟨rfl, hr⟩ := Prod.mk.inj hc
        obtain rfl := Except.ok.inj hr
        obtain ⟨h, hkept⟩ := hrefreshed
        obtain ⟨before, after, hat⟩ := findPosition_some hfind
        have hsize := (hkept.sound.positive pos hat.mem).1
        have hpos := (requestedFraction_ok hsize hpercent hamount hrequested).1
        have hclosed := held_applyClose hkept.sound o.now hfind price
          (isPartialRequest closePercent closeAmount)
          (settlement pos o.feeRates price requested (isPartialRequest closePercent closeAmount))
        rw [hheld] at hclosed
        have hwhole := settlement_full_iff pos o.feeRates price requested
          (isPartialRequest closePercent closeAmount)
        have hresult (c : Settlement) :
            (t.applyClose o.now side idx pos price
              (isPartialRequest closePercent closeAmount) c).2.isPartial =
                (isPartialRequest closePercent closeAmount && !c.full) := rfl
        refine ⟨⟨_, kept_applyClose hkept hfind hpos⟩, ⟨price, rfl⟩, pos.sizeUsd, requested, ?_,
          hrequested, ?_⟩
        · rw [← hheld]
          exact held_of_findPosition hfind
        rcases settlement_part pos o.feeRates price (isPartialRequest closePercent closeAmount)
          hpos with ⟨hfull, -⟩ | ⟨f, hf, -, hfull, hsizeClosed, -⟩
        · rw [hfull, if_pos rfl] at hclosed
          refine .inl ⟨hwhole.mp hfull, ?_, hclosed⟩
          rw [hresult, hfull, Bool.not_true, Bool.and_false]
        · have hnot :
              ¬ Whole pos.sizeUsd requested (isPartialRequest closePercent closeAmount) := by
            rw [← hwhole, hfull]
            decide
          have hpartial : isPartialRequest closePercent closeAmount = true := by
            by_contra hno
            exact hnot (.inl (Bool.eq_false_iff.mpr hno))
          have hless : pos.sizeUsd - (settlement pos o.feeRates price requested
              (isPartialRequest closePercent closeAmount)).closedSizeUsd ≠ pos.sizeUsd := by
            rw [hsizeClosed]
            have := mul_pos hsize hf
            linarith
          rw [hfull, if_neg (by decide)] at hclosed
          refine .inr ⟨hnot, (hresult _).trans ?_, _, hless, hclosed⟩
          rw [hfull, hpartial]
          rfl

/-- A close of the whole position that succeeds. -/
theorem callClosePosition_whole (hs : InOrder initialBalance s) {r : ClosePositionResult}
    (hc : s.callClosePosition o market side none none = (s', .ok r)) :
    InOrder initialBalance s' ∧ (∃ size, s.held (toUpperCase market, side) = some size) ∧
      s'.held = Function.update s.held (toUpperCase market, side) none := by
  have hpercent : ∀ percent : ℚ, none = some percent → 0 < percent ∧ percent ≤ 100 :=
    fun _ hnone => by cases hnone
  have hamount : ∀ amount : ℚ, none = some amount → 0 < amount := fun _ hnone => by cases hnone
  obtain ⟨horder, -, size, requested, hheld, -, hpart⟩ :=
    callClosePosition_ok hs hpercent hamount hc
  rcases hpart with ⟨-, -, hclosed⟩ | ⟨hnot, -⟩
  · exact ⟨horder, ⟨size, hheld⟩, hclosed⟩
  · exact absurd (.inl rfl) hnot

/-- A whole position can be closed if there is one, and a price. -/
theorem callClosePosition_all (s : SimulatedFlashClient) (o : Outside) {size price : ℚ}
    (hheld : s.held (toUpperCase market, side) = some size)
    (hprice : (s.refreshPrices o.feed).getPrice market = .ok price) :
    ∃ s' r, s.callClosePosition o market side none none = (s', .ok r) := by
  rw [← held_refreshPrices s o.feed] at hheld
  obtain ⟨idx, pos, hfind⟩ := findPosition_of_held hheld
  unfold callClosePosition closePosition
  dsimp only
  rw [hfind, hprice]
  exact ⟨_, _, rfl⟩

theorem getPrice_congr {t : SimulatedFlashClient}
    (hlive : s.livePrices.get? (toUpperCase market) = t.livePrices.get? (toUpperCase market)) :
    s.getPrice market = t.getPrice market := by
  unfold getPrice
  rw [hlive]

/-- Collateral is added or not. -/
theorem callAddCollateral_held (hs : InOrder initialBalance s) (o : Outside) (market : String)
    (side : TradeSide) (amount : ℚ) :
    InOrder initialBalance (s.callAddCollateral o market side amount).1 ∧
      (s.callAddCollateral o market side amount).1.held = s.held := by
  obtain ⟨h, hkept⟩ := hs
  unfold callAddCollateral
  split
  · next t r hadd => exact ⟨⟨_, kept_addCollateral hkept hadd⟩, held_addCollateral hadd⟩
  · exact ⟨⟨h, hkept⟩, rfl⟩

/-- Collateral is removed or not. -/
theorem callRemoveCollateral_held (hs : InOrder initialBalance s) (o : Outside) (market : String)
    (side : TradeSide) (amount : ℚ) :
    InOrder initialBalance (s.callRemoveCollateral o market side amount).1 ∧
      (s.callRemoveCollateral o market side amount).1.held = s.held := by
  have hheld := held_refreshPrices s o.feed
  unfold callRemoveCollateral
  split
  · exact ⟨hs, rfl⟩
  · next hpos =>
    obtain ⟨h, hkept⟩ := hs.refreshPrices o.feed
    dsimp only
    split
    · next t r hremove =>
      refine ⟨⟨_, kept_removeCollateral hkept (not_le.mp hpos) hremove⟩, ?_⟩
      exact (held_removeCollateral hremove).trans hheld
    · exact ⟨⟨h, hkept⟩, hheld⟩

end SimulatedFlashClient

open SimulatedFlashClient

/-! ## What the engine does to its client -/

namespace ShadowEngine

variable {e : ShadowEngine} (he : e.enabled = true) (o : Outside) (market : String)
  (side : TradeSide)
include he

theorem shadowOpen_client (m : Markets) (collateral leverage : ℚ) :
    (shadowOpen m e o market side collateral leverage).1.client =
        (callOpenPosition m e.client o market side collateral leverage).1 ∧
      (shadowOpen m e o market side collateral leverage).1.enabled = true := by
  unfold shadowOpen
  rw [he, Bool.not_true, if_neg Bool.false_ne_true]
  split
  · next client result hcall => exact ⟨by rw [hcall], rfl⟩
  · next client error hcall => exact ⟨by rw [hcall], rfl⟩

theorem shadowClose_client :
    (e.shadowClose o market side).1.client =
        (e.client.callClosePosition o market side none none).1 ∧
      (e.shadowClose o market side).1.enabled = true := by
  unfold shadowClose
  rw [he, Bool.not_true, if_neg Bool.false_ne_true]
  split
  · next client result hcall => exact ⟨by rw [hcall], rfl⟩
  · next client error hcall => exact ⟨by rw [hcall], rfl⟩

theorem shadowAddCollateral_client (amount : ℚ) :
    (e.shadowAddCollateral o market side amount).1.client =
        (e.client.callAddCollateral o market side amount).1 ∧
      (e.shadowAddCollateral o market side amount).1.enabled = true := by
  unfold shadowAddCollateral
  rw [he, Bool.not_true, if_neg Bool.false_ne_true]
  split
  · next client result hcall => exact ⟨by rw [hcall], rfl⟩
  · next client error hcall => exact ⟨by rw [hcall], rfl⟩

theorem shadowRemoveCollateral_client (amount : ℚ) :
    (e.shadowRemoveCollateral o market side amount).1.client =
        (e.client.callRemoveCollateral o market side amount).1 ∧
      (e.shadowRemoveCollateral o market side amount).1.enabled = true := by
  unfold shadowRemoveCollateral
  rw [he, Bool.not_true, if_neg Bool.false_ne_true]
  split
  · next client result hcall => exact ⟨by rw [hcall], rfl⟩
  · next client error hcall => exact ⟨by rw [hcall], rfl⟩

end ShadowEngine

namespace ShadowedTrading

/-! ## The property and the condition -/

/-- Both hold the same size at every market and side. -/
def Mirrored (s : ShadowedTrading) (_ : List Unit) : Prop :=
  s.primary.held = s.shadow.client.held

/-- The checks of the shadow client accept an open, no close leaves a part of a position,
and `flash_close_all` finds no position. -/
def Copied (m : Markets) (s : ShadowedTrading) (_ : List Unit) : Trade → Prop
  | .openPosition _ copy market side collateral leverage =>
    ∃ q, quoteOpen m (s.shadow.client.refreshPrices copy.feed) copy.feeRates market side
      collateral leverage = .ok q
  | .closePosition _ _ market side closePercent closeAmount =>
    ∀ size requested, s.primary.held (toUpperCase market, side) = some size →
      requestedFraction size closePercent closeAmount = .ok requested →
      Whole size requested (isPartialRequest closePercent closeAmount)
  | .closeAll _ => s.primary.positions = []
  | _ => True

/-- The invariant: both clients are in order and hold the same. -/
structure MirrorInv (initialBalance shadowBalance : ℚ) (s : ShadowedTrading) (h : List Unit) :
    Prop where
  enabled : s.shadow.enabled = true
  primary : InOrder initialBalance s.primary
  shadow : InOrder shadowBalance s.shadow.client
  mirrored : Mirrored s h

variable {initialBalance shadowBalance : ℚ} {m : Markets} {s s' : ShadowedTrading}
  {h es : List Unit} {own copy : Outside} {market : String} {side : TradeSide}

/-- In order and mirrored, both have the same positions up to their prices and collateral. -/
theorem MirrorInv.positions (hI : MirrorInv initialBalance shadowBalance s h)
    (k : String × TradeSide) (size : ℚ) :
    (∃ p ∈ s.primary.positions, slot p = k ∧ p.sizeUsd = size) ↔
      ∃ p ∈ s.shadow.client.positions, slot p = k ∧ p.sizeUsd = size := by
  rw [← heldIn_eq_some_iff hI.primary.sound, ← heldIn_eq_some_iff hI.shadow.sound]
  have hsame : heldIn s.primary.positions = heldIn s.shadow.client.positions := hI.mirrored
  rw [hsame]

/-! ## Opens -/

/-- An open that the primary client accepts adds to its size; the copy is what the shadow
client makes of it. -/
theorem flashOpenPosition_some (hI : MirrorInv initialBalance shadowBalance s h)
    {collateral leverage : ℚ}
    (hopen : s.flashOpenPosition m own copy market side collateral leverage = some s') :
    0 < collateral * leverage ∧ InOrder initialBalance s'.primary ∧
      s'.primary.held = Function.update s.primary.held (toUpperCase market, side)
        (some ((s.primary.held (toUpperCase market, side)).getD 0 + collateral * leverage)) ∧
      s'.shadow.enabled = true ∧ s'.shadow.client =
        (callOpenPosition m s.shadow.client copy market side collateral leverage).1 := by
  have hcases := callOpenPosition_cases hI.primary m own market side collateral leverage
  unfold flashOpenPosition at hopen
  split at hopen
  · next primary result hcall =>
    obtain rfl := Option.some.inj hopen
    obtain ⟨hclient, henabled⟩ :=
      ShadowEngine.shadowOpen_client hI.enabled copy market side m collateral leverage
    rw [hcall] at hcases
    obtain ⟨horder, ⟨error, -, herror, -⟩ | ⟨q, hq, hheld⟩⟩ := hcases
    · cases herror
    · have hsize := (quoteOpen_ok hq).2.1
      rw [quoteOpen_sizeUsd hq] at hsize
      exact ⟨hsize, horder, hheld, henabled, hclient⟩
  · cases hopen

theorem MirrorInv.flashOpenPosition (hI : MirrorInv initialBalance shadowBalance s h)
    {collateral leverage : ℚ}
    (hgood : Copied m s h (.openPosition own copy market side collateral leverage))
    (hopen : s.flashOpenPosition m own copy market side collateral leverage = some s') :
    MirrorInv initialBalance shadowBalance s' h := by
  obtain ⟨-, horder, hheld, henabled, hclient⟩ := flashOpenPosition_some hI hopen
  obtain ⟨hshadow, ⟨error, hrefused, -⟩ | ⟨q, -, hcopy⟩⟩ :=
    callOpenPosition_cases hI.shadow m copy market side collateral leverage
  · obtain ⟨q, hq⟩ := hgood
    rw [hrefused] at hq
    cases hq
  · refine ⟨henabled, horder, by rwa [hclient], ?_⟩
    show s'.primary.held = s'.shadow.client.held
    rw [hheld, hclient, hcopy, hI.mirrored]

/-- An open that the shadow client refuses. -/
theorem not_mirrored_of_refused (hI : MirrorInv initialBalance shadowBalance s h)
    {collateral leverage : ℚ}
    (hbad : ¬ Copied m s h (.openPosition own copy market side collateral leverage))
    (hopen : s.flashOpenPosition m own copy market side collateral leverage = some s') :
    ¬ Mirrored s' h := by
  obtain ⟨hsize, -, hheld, -, hclient⟩ := flashOpenPosition_some hI hopen
  obtain ⟨-, ⟨error, -, -, hcopy⟩ | ⟨q, hq, -⟩⟩ :=
    callOpenPosition_cases hI.shadow m copy market side collateral leverage
  · intro hmirrored
    -- the shadow client still holds what both held before
    have hsame : s'.primary.held = s.primary.held := by
      rw [hmirrored, hclient, hcopy, hI.mirrored]
    have hat := congrFun (hheld.symm.trans hsame) (toUpperCase market, side)
    rw [Function.update_self] at hat
    cases hold : s.primary.held (toUpperCase market, side) with
    | none => rw [hold] at hat; cases hat
    | some size =>
      rw [hold, Option.getD_some] at hat
      have hsum := Option.some.inj hat
      linarith
  · exact absurd ⟨q, hq⟩ hbad

/-! ## Closes -/

theorem validClose_iff {closePercent closeAmount : Option ℚ}
    (hvalid : validClose closePercent closeAmount = true) :
    (∀ percent, closePercent = some percent → 0 < percent ∧ percent ≤ 100) ∧
      ∀ amount, closeAmount = some amount → 0 < amount := by
  unfold validClose at hvalid
  rw [Bool.and_eq_true] at hvalid
  obtain ⟨hpercent, hamount⟩ := hvalid
  constructor
  · rintro percent rfl
    rw [Option.all_some, Bool.and_eq_true, decide_eq_true_eq, decide_eq_true_eq] at hpercent
    exact ⟨lt_of_lt_of_le one_pos hpercent.1, hpercent.2⟩
  · rintro amount rfl
    rw [Option.all_some, decide_eq_true_eq] at hamount
    exact hamount

/-- A full close is copied: the shadow client has the position, and a price. -/
theorem MirrorInv.shadowClose (hI : MirrorInv initialBalance shadowBalance s h)
    (hprice : s.SamePrice own copy market) {price size : ℚ}
    (hown : (s.primary.refreshPrices own.feed).getPrice market = .ok price)
    (hheld : s.primary.held (toUpperCase market, side) = some size) :
    InOrder shadowBalance (s.shadow.shadowClose copy market side).1.client ∧
      (s.shadow.shadowClose copy market side).1.client.held =
        Function.update s.shadow.client.held (toUpperCase market, side) none := by
  have hthere : s.shadow.client.held (toUpperCase market, side) = some size := by
    rw [← hI.mirrored]
    exact hheld
  have hcopyPrice : (s.shadow.client.refreshPrices copy.feed).getPrice market = .ok price := by
    rw [← getPrice_congr hprice]
    exact hown
  obtain ⟨client, r, hcall⟩ := callClosePosition_all s.shadow.client copy hthere hcopyPrice
  obtain ⟨horder, -, hclosed⟩ := callClosePosition_whole hI.shadow hcall
  rw [(ShadowEngine.shadowClose_client hI.enabled copy market side).1, hcall]
  exact ⟨horder, hclosed⟩

/-- A close that succeeds: a whole one is copied, a part is not. -/
theorem flashClosePosition_some (hI : MirrorInv initialBalance shadowBalance s h)
    {closePercent closeAmount : Option ℚ} (hvalid : validClose closePercent closeAmount = true)
    (hclose : s.flashClosePosition own copy market side closePercent closeAmount = some s') :
    (Copied m s h (.closePosition own copy market side closePercent closeAmount) ∧
        MirrorInv initialBalance shadowBalance s' h) ∨
      (¬ Copied m s h (.closePosition own copy market side closePercent closeAmount) ∧
        ¬ Mirrored s' h) := by
  obtain ⟨hpercent, hamount⟩ := validClose_iff hvalid
  unfold flashClosePosition at hclose
  split at hclose
  · next primary r hcall =>
    obtain ⟨horder, ⟨price, hprice⟩, size, requested, hheld, hrequested, hpart⟩ :=
      callClosePosition_ok hI.primary hpercent hamount hcall
    rcases hpart with ⟨hwhole, hfull, hclosed⟩ | ⟨hnot, hpartial, rest, hrest, hclosed⟩
    · rw [if_neg (by rw [hfull]; decide)] at hclose
      split at hclose
      · next hsame =>
        obtain rfl := Option.some.inj hclose
        obtain ⟨hshadow, hcopy⟩ := hI.shadowClose hsame hprice hheld
        refine .inl ⟨?_, (ShadowEngine.shadowClose_client hI.enabled copy market side).2, horder,
          hshadow, ?_⟩
        · intro size' requested' hheld' hrequested'
          obtain rfl := Option.some.inj (hheld.symm.trans hheld')
          obtain rfl := Except.ok.inj (hrequested.symm.trans hrequested')
          exact hwhole
        · show primary.held = _
          rw [hclosed, hcopy, hI.mirrored]
      · cases hclose
    · rw [if_pos hpartial] at hclose
      obtain rfl := Option.some.inj hclose
      refine .inr ⟨fun hcopied => hnot (hcopied size requested hheld hrequested), ?_⟩
      -- the shadow client still holds the size there was before
      intro hmirrored
      have hsame : primary.held = s.primary.held := hmirrored.trans hI.mirrored.symm
      have hat := congrFun (hclosed.symm.trans hsame) (toUpperCase market, side)
      rw [Function.update_self, hheld] at hat
      exact hrest (Option.some.inj hat)
  · cases hclose

/-! ## Closing all -/

/-- What is not held is not held after more closes. -/
theorem closeEach_none {client client' : SimulatedFlashClient}
    {rest : List (SimulatedPosition × Outside)} (hs : InOrder initialBalance client)
    (hclose : closeEach client rest = some client') {k : String × TradeSide}
    (hnone : client.held k = none) : client'.held k = none := by
  induction rest generalizing client with
  | nil =>
    obtain rfl := Option.some.inj hclose
    exact hnone
  | cons first rest ih =>
    obtain ⟨pos, o⟩ := first
    unfold closeEach at hclose
    split at hclose
    · next client₁ r hcall =>
      obtain ⟨horder, -, hclosed⟩ := callClosePosition_whole hs hcall
      apply ih horder hclose
      rw [hclosed]
      by_cases hk : k = (toUpperCase pos.market, pos.side)
      · rw [hk, Function.update_self]
      · rw [Function.update_of_ne hk, hnone]
    · cases hclose

/-- Closing every position of some leaves the shadow client with what it held. -/
theorem not_mirrored_of_closeAll (hI : MirrorInv initialBalance shadowBalance s h)
    {outside : List Outside} (hlength : outside.length = s.primary.positions.length)
    (hsome : s.primary.positions ≠ []) (hclose : s.flashCloseAll outside = some s') :
    ¬ Mirrored s' h := by
  obtain ⟨primary, heach, rfl⟩ := Option.map_eq_some_iff.mp hclose
  cases hpositions : s.primary.positions with
  | nil => exact absurd hpositions hsome
  | cons pos positions =>
    cases outside with
    | nil => rw [hpositions] at hlength; cases hlength
    | cons o outside =>
      rw [hpositions, List.zip_cons_cons] at heach
      unfold closeEach at heach
      split at heach
      · next client₁ r hcall =>
        obtain ⟨horder, ⟨size, hheld⟩, hclosed⟩ := callClosePosition_whole hI.primary hcall
        have hfirst : client₁.held (toUpperCase pos.market, pos.side) = none := by
          rw [hclosed, Function.update_self]
        have hgone := closeEach_none horder heach hfirst
        intro hmirrored
        have hsame : primary.held = s.primary.held := hmirrored.trans hI.mirrored.symm
        rw [hsame, hheld] at hgone
        cases hgone
      · cases heach

/-- Without a position there is nothing to close. -/
theorem MirrorInv.closeAll (hI : MirrorInv initialBalance shadowBalance s h)
    {outside : List Outside} (hnone : s.primary.positions = [])
    (hclose : s.flashCloseAll outside = some s') :
    MirrorInv initialBalance shadowBalance s' h := by
  unfold flashCloseAll at hclose
  rw [hnone, List.zip_nil_left] at hclose
  obtain rfl := Option.some.inj hclose
  exact hI

/-! ## Collateral -/

theorem MirrorInv.flashAddCollateral (hI : MirrorInv initialBalance shadowBalance s h)
    {amount : ℚ} (hadd : s.flashAddCollateral own copy market side amount = some s') :
    MirrorInv initialBalance shadowBalance s' h := by
  obtain ⟨horder, hheld⟩ := callAddCollateral_held hI.primary own market side amount
  obtain ⟨hshadow, hcopy⟩ := callAddCollateral_held hI.shadow copy market side amount
  obtain ⟨hclient, henabled⟩ :=
    ShadowEngine.shadowAddCollateral_client hI.enabled copy market side amount
  unfold ShadowedTrading.flashAddCollateral at hadd
  split at hadd
  · next primary r hcall =>
    obtain rfl := Option.some.inj hadd
    rw [hcall] at horder hheld
    refine ⟨henabled, horder, by rwa [hclient], ?_⟩
    show primary.held = _
    rw [hheld, hclient, hcopy, hI.mirrored]
  · cases hadd

theorem MirrorInv.flashRemoveCollateral (hI : MirrorInv initialBalance shadowBalance s h)
    {amount : ℚ} (hremove : s.flashRemoveCollateral own copy market side amount = some s') :
    MirrorInv initialBalance shadowBalance s' h := by
  obtain ⟨horder, hheld⟩ := callRemoveCollateral_held hI.primary own market side amount
  obtain ⟨hshadow, hcopy⟩ := callRemoveCollateral_held hI.shadow copy market side amount
  obtain ⟨hclient, henabled⟩ :=
    ShadowEngine.shadowRemoveCollateral_client hI.enabled copy market side amount
  unfold ShadowedTrading.flashRemoveCollateral at hremove
  split at hremove
  · next primary r hcall =>
    obtain rfl := Option.some.inj hremove
    rw [hcall] at horder hheld
    refine ⟨henabled, horder, by rwa [hclient], ?_⟩
    show primary.held = _
    rw [hheld, hclient, hcopy, hI.mirrored]
  · cases hremove

/-! ## Every run -/

theorem inOrder_init (balance : ℚ) : InOrder balance { balance } := by
  refine ⟨[], ?_, id, List.nodup_nil, fun _ hp => by cases hp⟩
  show balance + 0 = balance + 0 - 0 + 0
  ring

theorem MirrorInv.init (m : Markets) (initialBalance shadowBalance : ℚ) :
    MirrorInv initialBalance shadowBalance
      (shadowedTrading m initialBalance shadowBalance).init [] where
  enabled := rfl
  primary := inOrder_init initialBalance
  shadow := inOrder_init shadowBalance
  mirrored := rfl

/-- A copied trade keeps the mirror, and one that is not copied breaks it. -/
theorem next_cases (hI : MirrorInv initialBalance shadowBalance s h) {a : Trade}
    (hnext : step.next m s a = some s') :
    (Copied m s h a ∧ MirrorInv initialBalance shadowBalance s' h) ∨
      (¬ Copied m s h a ∧ ¬ Mirrored s' h) := by
  unfold step.next at hnext
  split at hnext
  · next feed =>
    obtain rfl := Option.some.inj hnext
    refine .inl ⟨trivial, hI.enabled, hI.primary.refreshPrices feed, hI.shadow, ?_⟩
    exact (held_refreshPrices s.primary feed).trans hI.mirrored
  · next own copy market side collateral leverage =>
    split at hnext
    · by_cases hcopied : Copied m s h (.openPosition own copy market side collateral leverage)
      · exact .inl ⟨hcopied, hI.flashOpenPosition hcopied hnext⟩
      · exact .inr ⟨hcopied, not_mirrored_of_refused hI hcopied hnext⟩
    · cases hnext
  · next own copy market side closePercent closeAmount =>
    split at hnext
    · next hvalid => exact flashClosePosition_some hI hvalid hnext
    · cases hnext
  · next outside =>
    split at hnext
    · next hlength =>
      by_cases hnone : s.primary.positions = []
      · exact .inl ⟨hnone, hI.closeAll hnone hnext⟩
      · exact .inr ⟨hnone, not_mirrored_of_closeAll hI hlength hnone hnext⟩
    · cases hnext
  · exact .inl ⟨trivial, hI.flashAddCollateral hnext⟩
  · exact .inl ⟨trivial, hI.flashRemoveCollateral hnext⟩

theorem MirrorInv.step {a : Trade} (hI : MirrorInv initialBalance shadowBalance s h)
    (hs : s.step m a = some (s', es)) :
    (Copied m s h a ∧ MirrorInv initialBalance shadowBalance s' (h ++ es)) ∨
      (¬ Copied m s h a ∧ ¬ Mirrored s' (h ++ es)) := by
  obtain ⟨t, hnext, hpair⟩ := Option.map_eq_some_iff.mp hs
  obtain ⟨rfl, rfl⟩ := Prod.mk.inj hpair
  rw [List.append_nil]
  exact next_cases hI hnext

/-- **The mirror.** After every trade of a session the two clients hold the same exactly as
long as every trade is one that is copied. -/
theorem mirrored_iff (m : Markets) (initialBalance shadowBalance : ℚ) (as : List Trade) :
    (shadowedTrading m initialBalance shadowBalance).Always Mirrored
        (shadowedTrading m initialBalance shadowBalance).init [] as ↔
      (shadowedTrading m initialBalance shadowBalance).Along (Copied m)
        (shadowedTrading m initialBalance shadowBalance).init [] as :=
  Machine.always_iff_along_of_step (I := MirrorInv initialBalance shadowBalance)
    (fun hI => hI.mirrored) (fun hI hs => hI.step hs)
    (MirrorInv.init m initialBalance shadowBalance) as

/-! ## Closing all is not copied -/

/-- SOL at 100, without fees. -/
def solAt100 : Outside where
  feed := { primary := some [("SOL", ⟨.finite 100, 0⟩)], secondary := none }
  feeRates := ⟨0, 0, 1 / 100⟩
  id := "1"
  now := 0

def solMarkets : Markets := { maxLeverage := fun _ => 100, slippageBps := fun _ => 0 }

/-- A long is opened and everything is closed. -/
def openAndCloseAll : List Trade :=
  [.openPosition solAt100 solAt100 "SOL" .Long 100 2, .closeAll [solAt100]]

/-- The primary client holds nothing then, and the shadow client still has the position. -/
theorem not_mirrored : ¬ ∀ m s h, (shadowedTrading m 10000 10000).Reachable s h → Mirrored s h := by
  intro hall
  have hrun : ((shadowedTrading solMarkets 10000 10000).run openAndCloseAll).map
      (fun p => (p.1.primary.held ("SOL", .Long), p.1.shadow.client.held ("SOL", .Long))) =
      some (none, some 200) := by
    decide +kernel
  obtain ⟨⟨s, h⟩, hs, hend⟩ := Option.map_eq_some_iff.mp hrun
  obtain ⟨hprimary, hshadow⟩ := Prod.mk.inj hend
  have hmirrored := hall solMarkets s h (Machine.reachable_of_run hs)
  have hsame := congrFun hmirrored ("SOL", .Long)
  dsimp only at hprimary hshadow
  rw [hprimary, hshadow] at hsame
  cases hsame

end ShadowedTrading

end FlashEdge
