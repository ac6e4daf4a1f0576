import FlashEdge.Portfolio.PortfolioManager
import Mathlib.Data.List.Nodup

/-!
# The collateral that was checked

`evaluate` is meant to return a trade that fits the portfolio: filter, risk check and allocation
come one after the other. Filter and check look at the collateral the scanner recommends, and
the collateral that is returned is computed after them from the capital alone, so nothing
compares it with the limits.

- `Room`: what a trade of some size leaves of each limit is not below zero.
- `RoomForAllocation`: the sizes the allocation is chosen from, at the recommended leverage, fit.
- `returnsOpenable_iff`: what is returned passes the check exactly under that condition.
-/

namespace FlashEdge

namespace Portfolio

/-- The sizes of the selected positions, added up. -/
def heldSize (sel : Position → Bool) (positions : List Position) : JsNumber :=
  ((positions.filter sel).map Position.sizeUsd).sum

/-- On the market `market`. -/
def onMarket (market : String) (p : Position) : Bool := toUpperCase p.market = market

/-- On the side `side`. -/
def onSide (side : TradeSide) (p : Position) : Bool := p.side = side

/-- On a market that is correlated with `market`. -/
def onGroupOf (market : String) (p : Position) : Bool :=
  toUpperCase p.market ∈ (getCorrelatedMarkets (toUpperCase market)).map toUpperCase

/-- A trade of size `notional` on a market without positions keeps every limit. -/
structure Room (positions : List Position) (totalCapital : ℚ) (maxExposure : JsNumber)
    (market : String) (direction : TradeSide) (notional : ℚ) : Prop where
  exposureFits : (heldSize (fun _ => true) positions + .finite notional).gt maxExposure = false
  marketFits : notional ≤ totalCapital * MAX_MARKET_EXPOSURE
  directionFits : (heldSize (onSide direction) positions + .finite notional).gt
    (.finite (totalCapital * MAX_DIRECTIONAL_EXPOSURE)) = false
  groupFits : (heldSize (onGroupOf market) positions + .finite notional).gt
    (.finite (totalCapital * MAX_CORRELATED_EXPOSURE)) = false

/-- What is claimed of a returned trade: it passes the check with the collateral it is returned
with, and that is at least 10 and at most the free capital. -/
def Openable (positions : List Position) (balance maxExposure : JsNumber) (o : Opportunity) :
    Prop :=
  (checkPortfolioRisk o positions (getState positions balance).totalCapital maxExposure).passed =
    true ∧
  ∃ c, o.recommendedCollateral = .finite c ∧ 10 ≤ c ∧ c ≤ (getState positions balance).freeCapital

/-- An opportunity that goes into the allocation: the first that the filter accepts, which passes
the check with the collateral of the scanner. -/
structure Selected (opportunities : List Opportunity) (positions : List Position)
    (balance maxPositionSize maxExposure : JsNumber) (best : Opportunity) : Prop where
  freeCapital : 10 ≤ (getState positions balance).freeCapital
  first : (filterOpportunities opportunities positions (getState positions balance).totalCapital
    (getState positions balance).freeCapital maxPositionSize).accepted.head? = some best
  passed : (checkPortfolioRisk best positions (getState positions balance).totalCapital
    maxExposure).passed = true
  maxPositionSize : maxPositionSize.ltRat 10 = false

/-- The largest position fits, or else the minimum of 10 does and with it one of the two parts of
the capital: a quarter of what is free or a fifth of all, in whole dollars. -/
def RoomForAllocation (positions : List Position) (balance maxPositionSize maxExposure : JsNumber)
    (best : Opportunity) : Prop :=
  maxPositionSize ≠ .nan ∧ ∃ leverage, best.recommendedLeverage = .finite leverage ∧
    0 < leverage ∧
    let state := getState positions balance
    let Fits (collateral : ℚ) := Room positions state.totalCapital maxExposure best.market
      best.direction (collateral * leverage)
    ((∃ size, maxPositionSize = .finite size ∧ Fits size) ∨
      Fits 10 ∧ (Fits (mathRound (state.freeCapital * (25 / 100))) ∨
        Fits (mathRound (state.totalCapital * MAX_POSITION_ALLOCATION))))

/-! ## Sizes of selected positions -/

section Sizes

variable {sel sel' : Position → Bool} {positions : List Position}

theorem heldSize_cons (p : Position) :
    heldSize sel (p :: positions) =
      (if sel p = true then p.sizeUsd else 0) + heldSize sel positions := by
  unfold heldSize
  rw [List.filter_cons]
  split
  · rw [List.map_cons, List.sum_cons]
  · exact (zero_add _).symm

theorem heldSize_eq_zero (h : ∀ p ∈ positions, sel p = false) : heldSize sel positions = 0 := by
  unfold heldSize
  rw [List.filter_eq_nil_iff.mpr fun p hp => by rw [h p hp]; exact Bool.false_ne_true]
  rfl

/-- What two selections without a common position hold adds up. -/
theorem heldSize_or (hdisjoint : ∀ p, sel p = true → sel' p = false) :
    heldSize (fun p => sel p || sel' p) positions =
      heldSize sel positions + heldSize sel' positions := by
  induction positions with
  | nil => exact (add_zero _).symm
  | cons p ps ih =>
    have hp : (if (sel p || sel' p) = true then p.sizeUsd else 0 : JsNumber) =
        (if sel p = true then p.sizeUsd else 0) + if sel' p = true then p.sizeUsd else 0 := by
      cases hsel : sel p with
      | true =>
        rw [hdisjoint p hsel]
        exact (add_zero _).symm
      | false => exact (zero_add _).symm
    rw [heldSize_cons, heldSize_cons, heldSize_cons, ih, hp, add_add_add_comm]

end Sizes

/-! ## The exposures that the check counts -/

section Exposures

variable (x : Exposures) (positions : List Position)

theorem ofSide_add (key : String) (side side' : TradeSide) (size : JsNumber) :
    (x.add key side size).ofSide side' =
      x.ofSide side' + if side = side' then size else 0 := by
  cases side <;> cases side' <;> first | rfl | exact (add_zero _).symm

theorem ofMarket_add (key key' : String) (side : TradeSide) (size : JsNumber) :
    (x.add key side size).ofMarket key' =
      x.ofMarket key' + if key = key' then size else 0 := by
  by_cases hkey : key = key'
  · subst hkey
    rw [if_pos rfl]
    unfold Exposures.ofMarket Exposures.add
    dsimp only
    rw [OrderedMap.get?_set_self]
    rfl
  · rw [if_neg hkey, add_zero]
    unfold Exposures.ofMarket Exposures.add
    dsimp only
    rw [OrderedMap.get?_set_of_ne (Ne.symm hkey)]

/-- A counter that each position adds its size to if it is selected ends with the selected
sizes. -/
theorem foldl_add_eq (count : Exposures → JsNumber) (sel : Position → Bool)
    (hadd : ∀ x p, count (x.add (toUpperCase p.market) p.side p.sizeUsd) =
      count x + if sel p = true then p.sizeUsd else 0) :
    count (positions.foldl (fun x pos => x.add (toUpperCase pos.market) pos.side pos.sizeUsd) x) =
      count x + heldSize sel positions := by
  induction positions generalizing x with
  | nil => exact (add_zero _).symm
  | cons p ps ih => rw [List.foldl_cons, ih, hadd, heldSize_cons, add_assoc]

theorem ofSide_riskExposures (side : TradeSide) :
    (riskExposures positions).ofSide side = heldSize (onSide side) positions := by
  unfold riskExposures
  rw [foldl_add_eq _ _ (fun x => x.ofSide side) (onSide side)]
  · cases side <;> exact zero_add _
  · intro x p
    rw [ofSide_add]
    simp only [onSide, decide_eq_true_eq]

theorem ofMarket_riskExposures (market : String) :
    (riskExposures positions).ofMarket market = heldSize (onMarket market) positions := by
  unfold riskExposures
  rw [foldl_add_eq _ _ (fun x => x.ofMarket market) (onMarket market)]
  · exact zero_add _
  · intro x p
    rw [ofMarket_add]
    simp only [onMarket, decide_eq_true_eq]

end Exposures

/-! ## Correlated markets -/

/-- No symbol is in a group twice. -/
theorem correlatedMarkets_nodup (symbol : String) :
    ((getCorrelatedMarkets symbol).map toUpperCase).Nodup := by
  have hgroups : ∀ group ∈ CORRELATION_GROUPS,
      ((group.map toUpperCase).map toUpperCase).Nodup := by decide +kernel
  unfold getCorrelatedMarkets
  split
  · exact List.nodup_singleton _
  · next groupIdx _ =>
    cases hgroup : CORRELATION_GROUPS[groupIdx]? with
    | none => exact List.nodup_nil
    | some group => exact hgroups group (List.mem_of_getElem? hgroup)

/-- The exposures of distinct markets add up to what is held on any of them. -/
theorem foldl_ofMarket (x : Exposures) (positions : List Position)
    (hx : ∀ key, x.ofMarket key = heldSize (onMarket key) positions) {symbols : List String}
    (hnodup : (symbols.map toUpperCase).Nodup) (sum : JsNumber) :
    symbols.foldl (fun sum sym => sum + x.ofMarket (toUpperCase sym)) sum =
      sum + heldSize (fun p => toUpperCase p.market ∈ symbols.map toUpperCase) positions := by
  induction symbols generalizing sum with
  | nil =>
    have hnone : heldSize (fun p => toUpperCase p.market ∈ [].map toUpperCase) positions = 0 :=
      heldSize_eq_zero fun p _ => decide_eq_false List.not_mem_nil
    rw [hnone, add_zero]
    rfl
  | cons sym rest ih =>
    rw [List.map_cons, List.nodup_cons] at hnodup
    obtain ⟨hfresh, hrest⟩ := hnodup
    have hsplit : heldSize (fun p => toUpperCase p.market ∈ (sym :: rest).map toUpperCase)
        positions = heldSize (onMarket (toUpperCase sym)) positions +
          heldSize (fun p => toUpperCase p.market ∈ rest.map toUpperCase) positions := by
      rw [← heldSize_or]
      · congr 1
        funext p
        rw [List.map_cons, onMarket, ← Bool.decide_or]
        exact decide_eq_decide.mpr List.mem_cons
      · intro p hp
        refine decide_eq_false fun hmem => hfresh ?_
        rwa [of_decide_eq_true hp] at hmem
    rw [List.foldl_cons, ih hrest, hsplit, hx, add_assoc]

theorem checkCorrelation_passed (market : String) (positions : List Position)
    {totalCapital : ℚ} (hcapital : 0 < totalCapital) (notional : ℚ) :
    (checkCorrelation (toUpperCase market) (riskExposures positions) totalCapital
      MAX_CORRELATED_EXPOSURE (.finite notional)).passed =
    !(heldSize (onGroupOf market) positions + .finite notional).gt
      (.finite (totalCapital * MAX_CORRELATED_EXPOSURE)) := by
  have hgroup := foldl_ofMarket (riskExposures positions) positions
    (ofMarket_riskExposures positions) (correlatedMarkets_nodup (toUpperCase market)) 0
  rw [zero_add] at hgroup
  unfold checkCorrelation
  dsimp only
  rw [if_neg (not_le.mpr hcapital), hgroup, JsNumber.finiteOr0_finite]
  unfold onGroupOf
  split
  · next h => rw [h]; rfl
  · next h => rw [Bool.eq_false_iff.mpr h]; rfl

/-! ## The check -/

section Check

variable {o : Opportunity} {positions : List Position} {totalCapital : ℚ} {maxExposure : JsNumber}

/-- A check with one more limit passes if the limit is kept and the rest passes. -/
theorem passed_ite {exceeded : Prop} [Decidable exceeded] {reason : Option RiskReason}
    {rest : PortfolioRiskCheck} :
    (if exceeded then { passed := false, reason := reason } else rest).passed = true ↔
      ¬ exceeded ∧ rest.passed = true := by
  by_cases h : exceeded
  · rw [if_pos h]
    exact ⟨fun hpassed => (by cases hpassed), fun hkept => absurd h hkept.1⟩
  · rw [if_neg h]
    exact ⟨fun hpassed => ⟨h, hpassed⟩, fun hkept => hkept.2⟩

/-- The side that is not traded has to keep its limit too. -/
def otherSide : TradeSide → TradeSide
  | .Long => .Short
  | .Short => .Long

theorem checkPortfolioRisk_passed_iff :
    (checkPortfolioRisk o positions totalCapital maxExposure).passed = true ↔
      0 < totalCapital ∧ 0 < o.notional ∧ positions.length < MAX_POSITIONS ∧
      (heldSize (fun _ => true) positions + .finite o.notional).gt maxExposure = false ∧
      (heldSize (onMarket (toUpperCase o.market)) positions + .finite o.notional).gt
        (.finite (totalCapital * MAX_MARKET_EXPOSURE)) = false ∧
      (heldSize (onSide o.direction) positions + .finite o.notional).gt
        (.finite (totalCapital * MAX_DIRECTIONAL_EXPOSURE)) = false ∧
      (heldSize (onSide (otherSide o.direction)) positions).gt
        (.finite (totalCapital * MAX_DIRECTIONAL_EXPOSURE)) = false ∧
      (heldSize (onGroupOf o.market) positions + .finite o.notional).gt
        (.finite (totalCapital * MAX_CORRELATED_EXPOSURE)) = false := by
  have hlong : (riskExposures positions).longExposure = heldSize (onSide .Long) positions :=
    ofSide_riskExposures positions .Long
  have hshort : (riskExposures positions).shortExposure = heldSize (onSide .Short) positions :=
    ofSide_riskExposures positions .Short
  have htotal : heldSize (fun _ => true) positions =
      heldSize (onSide .Long) positions + heldSize (onSide .Short) positions := by
    rw [← heldSize_or]
    · congr 1
      funext p
      unfold onSide
      cases p.side <;> rfl
    · intro p hp
      unfold onSide at hp ⊢
      rw [of_decide_eq_true hp]
      rfl
  unfold checkPortfolioRisk
  dsimp only
  rw [passed_ite, passed_ite, passed_ite, passed_ite, passed_ite, passed_ite, passed_ite,
    passed_ite, ofMarket_riskExposures, hlong, hshort, ← htotal, not_le, not_le, not_le]
  simp only [Bool.not_eq_true, Bool.not_eq_false, and_true]
  refine and_congr_right fun hcapital => ?_
  rw [checkCorrelation_passed o.market positions hcapital o.notional, Bool.not_eq_true']
  refine and_congr_right fun _ => and_congr_right fun _ => and_congr_right fun _ =>
    and_congr_right fun _ => ?_
  -- the two sides are checked in the order long, short
  cases o.direction with
  | Long => exact Iff.rfl
  | Short => exact and_left_comm

end Check

/-! ## The filter -/

section Filter

variable {positions : List Position} {totalCapital : ℚ} {s : PortfolioFilter}

/-- What is accepted stays, in its order. -/
theorem accepted_prefix (opportunities : List Opportunity) :
    s.accepted <+:
      (opportunities.foldl (PortfolioFilter.next positions totalCapital) s).accepted := by
  induction opportunities generalizing s with
  | nil => exact List.prefix_rfl
  | cons opp rest ih =>
    refine List.IsPrefix.trans ?_ ih
    unfold PortfolioFilter.next
    dsimp only
    split
    · exact List.prefix_rfl
    · exact List.prefix_append _ _

/-- The best is the first opportunity that the filter would accept alone. -/
theorem head?_accepted (hnone : s.accepted = []) (opportunities : List Opportunity) :
    (opportunities.foldl (PortfolioFilter.next positions totalCapital) s).accepted.head? =
      opportunities.find? fun opp => (s.rejects positions totalCapital opp).isNone := by
  induction opportunities generalizing s with
  | nil =>
    rw [List.foldl_nil, hnone]
    rfl
  | cons opp rest ih =>
    rw [List.foldl_cons, List.find?_cons]
    cases hrejects : s.rejects positions totalCapital opp with
    | some reason =>
      have hnext : s.next positions totalCapital opp =
          { s with rejected := s.rejected ++ [⟨toUpperCase opp.market, reason⟩] } := by
        unfold PortfolioFilter.next
        rw [hrejects]
      rw [hnext]
      exact ih hnone
    | none =>
      have hnext : (s.next positions totalCapital opp).accepted = [opp] := by
        unfold PortfolioFilter.next
        rw [hrejects]
        dsimp only
        rw [hnone, List.nil_append]
      obtain ⟨rest', hrest⟩ : (s.next positions totalCapital opp).accepted <+:
          (rest.foldl (PortfolioFilter.next positions totalCapital)
            (s.next positions totalCapital opp)).accepted := accepted_prefix rest
      rw [← hrest, hnext]
      rfl

/-- No position is held on the market of an opportunity that is not rejected. -/
theorem not_held {opp : Opportunity} (h : s.rejects positions totalCapital opp = none) :
    ∀ p ∈ positions, onMarket (toUpperCase opp.market) p = false := by
  unfold PortfolioFilter.rejects at h
  dsimp only at h
  split at h
  · cases h
  split at h
  · cases h
  next hfresh =>
    intro p hp
    refine decide_eq_false fun hmarket => hfresh ?_
    exact List.contains_iff_mem.mpr (List.mem_map.mpr ⟨p, hp, hmarket⟩)

end Filter

/-! ## The allocation -/

section Allocation

variable {totalCapital freeCapital : ℚ} {maxPositionSize : JsNumber}

/-- The collateral that is allocated, unless it is too small. -/
def allocated (totalCapital freeCapital : ℚ) (maxPositionSize : JsNumber) : JsNumber :=
  maxPositionSize.min (.finite (max 10 (mathRound
    (min (freeCapital * (25 / 100)) (totalCapital * MAX_POSITION_ALLOCATION)))))

theorem ltRat_min {x : JsNumber} {bound : ℚ} (hbound : 10 ≤ bound) :
    JsNumber.ltRat 10 (x.min (.finite bound)) = JsNumber.ltRat 10 x := by
  cases x with
  | finite q =>
    unfold JsNumber.min
    dsimp only
    rw [JsNumber.gt_finite_finite]
    split
    · next h =>
      have hlt := of_decide_eq_true h
      exact (decide_eq_false (not_lt.mpr hbound)).trans
        (decide_eq_false (not_lt.mpr (hbound.trans hlt.le))).symm
    · rfl
  | posInfinity => exact decide_eq_false (not_lt.mpr hbound)
  | negInfinity => rfl
  | nan => rfl

theorem leRat_eq_false {x : JsNumber} (hx : JsNumber.ltRat 10 x = false) :
    JsNumber.leRat 0 x = false := by
  cases x with
  | finite q =>
    have hq := not_lt.mp (of_decide_eq_false hx)
    exact decide_eq_false (not_le.mpr (lt_of_lt_of_le (by norm_num) hq))
  | posInfinity => rfl
  | negInfinity => cases hx
  | nan => rfl

/-- With capital, nothing is allocated exactly if positions have to be smaller than 10. -/
theorem computeAllocation_collateral (htotal : 0 < totalCapital) (hfree : 0 < freeCapital) :
    (computeAllocation totalCapital freeCapital maxPositionSize).collateral =
      if JsNumber.ltRat 10 maxPositionSize = true then 0
      else allocated totalCapital freeCapital maxPositionSize := by
  unfold computeAllocation
  dsimp only
  rw [if_neg (not_or.mpr ⟨not_le.mpr htotal, not_le.mpr hfree⟩), ltRat_min (le_max_left _ _)]
  split <;> rfl

/-- A quarter of at least 10 in whole dollars is not more than the whole. -/
theorem mathRound_quarter_le (hfree : 10 ≤ freeCapital) :
    mathRound (freeCapital * (25 / 100)) ≤ freeCapital := by
  have hfloor := Int.floor_le (freeCapital * (25 / 100) + 1 / 2)
  unfold mathRound
  linarith

theorem mathRound_mono : Monotone mathRound := by
  intro x y h
  unfold mathRound
  exact_mod_cast Int.floor_mono (add_le_add_left h (1 / 2))

/-- The amount before the bound on one position. -/
def unbounded (totalCapital freeCapital : ℚ) : ℚ :=
  max 10 (mathRound (min (freeCapital * (25 / 100)) (totalCapital * MAX_POSITION_ALLOCATION)))

theorem unbounded_le (hfree : 10 ≤ freeCapital) :
    unbounded totalCapital freeCapital ≤ freeCapital :=
  max_le hfree ((mathRound_mono (min_le_left _ _)).trans (mathRound_quarter_le hfree))

section Fits

/-! What fits at some amount fits at any smaller one. -/

variable {Fits : ℚ → Prop} (hFits : ∀ x y, x ≤ y → Fits y → Fits x)
include hFits

theorem fits_min_iff (x y : ℚ) : Fits (min x y) ↔ Fits x ∨ Fits y := by
  constructor
  · intro h
    rcases min_choice x y with hmin | hmin
    · exact .inl (by rwa [hmin] at h)
    · exact .inr (by rwa [hmin] at h)
  · rintro (h | h)
    · exact hFits _ _ (min_le_left _ _) h
    · exact hFits _ _ (min_le_right _ _) h

theorem fits_max_iff (x y : ℚ) : Fits (max x y) ↔ Fits x ∧ Fits y := by
  constructor
  · intro h
    exact ⟨hFits _ _ (le_max_left _ _) h, hFits _ _ (le_max_right _ _) h⟩
  · rintro ⟨hx, hy⟩
    rcases max_choice x y with hmax | hmax
    · rwa [hmax]
    · rwa [hmax]

theorem fits_unbounded_iff :
    Fits (unbounded totalCapital freeCapital) ↔
      Fits 10 ∧ (Fits (mathRound (freeCapital * (25 / 100))) ∨
        Fits (mathRound (totalCapital * MAX_POSITION_ALLOCATION))) := by
  unfold unbounded
  rw [fits_max_iff hFits, mathRound_mono.map_min, fits_min_iff hFits]

end Fits

/-- What is allocated is the smaller of a finite bound on one position and the amount before it. -/
theorem exists_allocated (totalCapital freeCapital : ℚ)
    (hsmall : JsNumber.ltRat 10 maxPositionSize = false) (hnan : maxPositionSize ≠ .nan) :
    ∃ c, allocated totalCapital freeCapital maxPositionSize = .finite c ∧ 10 ≤ c ∧
      c ≤ unbounded totalCapital freeCapital ∧
      ∀ Fits : ℚ → Prop, (∀ x y, x ≤ y → Fits y → Fits x) →
        (Fits c ↔ (∃ size, maxPositionSize = .finite size ∧ Fits size) ∨
          Fits 10 ∧ (Fits (mathRound (freeCapital * (25 / 100))) ∨
            Fits (mathRound (totalCapital * MAX_POSITION_ALLOCATION)))) := by
  cases maxPositionSize with
  | finite size =>
    refine ⟨min size (unbounded totalCapital freeCapital), ?_, ?_, min_le_right _ _, ?_⟩
    · unfold allocated JsNumber.min
      dsimp only
      rw [JsNumber.gt_finite_finite]
      split
      · next h => exact congrArg _ (min_eq_right (of_decide_eq_true h).le).symm
      · next h => exact congrArg _ (min_eq_left (not_lt.mp fun hlt => h (decide_eq_true hlt))).symm
    · exact le_min (not_lt.mp (of_decide_eq_false hsmall)) (le_max_left _ _)
    · intro Fits hFits
      rw [fits_min_iff hFits, fits_unbounded_iff hFits]
      refine or_congr_left ⟨fun h => ⟨size, rfl, h⟩, ?_⟩
      rintro ⟨size', hsize, h⟩
      rwa [JsNumber.finite.inj hsize]
  | posInfinity =>
    refine ⟨unbounded totalCapital freeCapital, rfl, le_max_left _ _, le_rfl, ?_⟩
    intro Fits hFits
    rw [fits_unbounded_iff hFits]
    refine ⟨.inr, fun h => h.resolve_left ?_⟩
    rintro ⟨size, hsize, -⟩
    cases hsize
  | negInfinity => cases hsmall
  | nan => exact absurd rfl hnan

end Allocation

/-! ## What is returned -/

section Evaluate

variable {opportunities : List Opportunity} {positions : List Position}
  {balance maxPositionSize maxExposure : JsNumber} {best o : Opportunity}

namespace Selected

variable (hS : Selected opportunities positions balance maxPositionSize maxExposure best)
include hS

theorem totalCapital_pos : 0 < (getState positions balance).totalCapital :=
  (checkPortfolioRisk_passed_iff.mp hS.passed).1

theorem freeCapital_pos : 0 < (getState positions balance).freeCapital :=
  lt_of_lt_of_le (by norm_num) hS.freeCapital

theorem heldOnMarket : heldSize (onMarket (toUpperCase best.market)) positions = 0 := by
  have hfirst := hS.first
  unfold filterOpportunities at hfirst
  dsimp only at hfirst
  rw [head?_accepted rfl] at hfirst
  have haccepted := List.find?_some hfirst
  exact heldSize_eq_zero (not_held (Option.isNone_iff_eq_none.mp haccepted))

end Selected

/-- What is returned is the selected opportunity with the allocated collateral. -/
theorem evaluate_eq_some_iff :
    evaluate opportunities positions balance maxPositionSize maxExposure = some o ↔
      ∃ best, Selected opportunities positions balance maxPositionSize maxExposure best ∧
        o = { best with
          recommendedCollateral := allocated (getState positions balance).totalCapital
            (getState positions balance).freeCapital maxPositionSize } := by
  constructor
  · intro h
    unfold evaluate at h
    dsimp only at h
    split at h
    · cases h
    next hfree =>
    split at h
    · cases h
    next best rest haccepted =>
    split at h
    · cases h
    next hpassed =>
    rw [Bool.not_eq_false] at hpassed
    have hcapital := (checkPortfolioRisk_passed_iff.mp hpassed).1
    have hfreePos : 0 < (getState positions balance).freeCapital :=
      lt_of_lt_of_le (by norm_num) (not_lt.mp hfree)
    rw [computeAllocation_collateral hcapital hfreePos] at h
    cases hsmall : JsNumber.ltRat 10 maxPositionSize with
    | true =>
      rw [hsmall, if_pos rfl] at h
      cases h
    | false =>
      rw [hsmall, if_neg Bool.false_ne_true, leRat_eq_false, if_neg Bool.false_ne_true] at h
      · exact ⟨best, ⟨not_lt.mp hfree, by rw [haccepted]; rfl, hpassed, hsmall⟩,
          (Option.some.inj h).symm⟩
      · exact (ltRat_min (le_max_left _ _)).trans hsmall
  · rintro ⟨best, hS, rfl⟩
    obtain ⟨rest, haccepted⟩ := List.head?_eq_some_iff.mp hS.first
    unfold evaluate
    dsimp only
    rw [if_neg (not_lt.mpr hS.freeCapital), haccepted]
    dsimp only
    rw [if_neg fun hfailed => Bool.false_ne_true (hfailed.symm.trans hS.passed),
      computeAllocation_collateral hS.totalCapital_pos hS.freeCapital_pos, hS.maxPositionSize,
      if_neg Bool.false_ne_true, leRat_eq_false, if_neg Bool.false_ne_true]
    exact (ltRat_min (le_max_left _ _)).trans hS.maxPositionSize

/-- The check of the selected opportunity at another collateral is a matter of room. -/
theorem Selected.passed_iff (hS : Selected opportunities positions balance maxPositionSize
    maxExposure best) (collateral : JsNumber) :
    (checkPortfolioRisk { best with recommendedCollateral := collateral } positions
      (getState positions balance).totalCapital maxExposure).passed = true ↔
      0 < (collateral * best.recommendedLeverage).finiteOr0 ∧
      Room positions (getState positions balance).totalCapital maxExposure best.market
        best.direction (collateral * best.recommendedLeverage).finiteOr0 := by
  obtain ⟨hcapital, -, hcount, -, -, -, hother, -⟩ := checkPortfolioRisk_passed_iff.mp hS.passed
  rw [checkPortfolioRisk_passed_iff]
  dsimp only [Opportunity.notional]
  rw [hS.heldOnMarket, zero_add, JsNumber.gt_finite_finite, decide_eq_false_iff_not, not_lt]
  constructor
  · rintro ⟨-, hpos, -, hexposure, hmarket, hdirection, -, hgroup⟩
    exact ⟨hpos, hexposure, hmarket, hdirection, hgroup⟩
  · rintro ⟨hpos, hexposure, hmarket, hdirection, hgroup⟩
    exact ⟨hcapital, hpos, hcount, hexposure, hmarket, hdirection, hother, hgroup⟩

/-- A smaller trade has room where a larger one has. -/
theorem Room.of_le {totalCapital : ℚ} {market : String} {direction : TradeSide} {p q : ℚ}
    (hpq : p ≤ q) (hroom : Room positions totalCapital maxExposure market direction q) :
    Room positions totalCapital maxExposure market direction p where
  exposureFits := JsNumber.gt_add_eq_false hpq hroom.exposureFits
  marketFits := hpq.trans hroom.marketFits
  directionFits := JsNumber.gt_add_eq_false hpq hroom.directionFits
  groupFits := JsNumber.gt_add_eq_false hpq hroom.groupFits

theorem Selected.openable_iff (hS : Selected opportunities positions balance maxPositionSize
    maxExposure best) :
    Openable positions balance maxExposure { best with
      recommendedCollateral := allocated (getState positions balance).totalCapital
        (getState positions balance).freeCapital maxPositionSize } ↔
      RoomForAllocation positions balance maxPositionSize maxExposure best := by
  obtain ⟨-, leverage, -, hleverage⟩ :=
    JsNumber.finite_of_mul (checkPortfolioRisk_passed_iff.mp hS.passed).2.1.ne'
  unfold Openable RoomForAllocation
  rw [hS.passed_iff, hleverage]
  by_cases hnan : maxPositionSize = .nan
  · subst hnan
    refine ⟨?_, fun h => absurd rfl h.1⟩
    rintro ⟨-, c, hc, -⟩
    cases hc
  obtain ⟨c, hc, hmin, hmax, hfits⟩ := exists_allocated (getState positions balance).totalCapital
    (getState positions balance).freeCapital hS.maxPositionSize hnan
  have hc0 : 0 < c := lt_of_lt_of_le (by norm_num) hmin
  -- at a positive leverage a smaller collateral has room where a larger one has
  have hroom := fun hpos : 0 < leverage => hfits
    (fun x => Room positions (getState positions balance).totalCapital maxExposure best.market
      best.direction (x * leverage))
    (fun _ _ hxy => Room.of_le (mul_le_mul_of_nonneg_right hxy hpos.le))
  rw [hc, JsNumber.finite_mul_finite, JsNumber.finiteOr0_finite]
  constructor
  · rintro ⟨⟨hpos, hfit⟩, -⟩
    have hleveragePos := (mul_pos_iff_of_pos_left hc0).mp hpos
    exact ⟨hnan, leverage, rfl, hleveragePos, (hroom hleveragePos).mp hfit⟩
  · rintro ⟨-, leverage', hleverage', hleveragePos, hfit⟩
    obtain rfl := JsNumber.finite.inj hleverage'
    exact ⟨⟨mul_pos hc0 hleveragePos, (hroom hleveragePos).mpr hfit⟩, c, rfl, hmin,
      hmax.trans (unbounded_le hS.freeCapital)⟩

end Evaluate

/-- Whatever is returned passes the check with the collateral it is returned with, exactly if the
selected opportunity has room for the sizes that the allocation is chosen from. -/
theorem returnsOpenable_iff (opportunities : List Opportunity) (positions : List Position)
    (balance maxPositionSize maxExposure : JsNumber) :
    (∀ o, evaluate opportunities positions balance maxPositionSize maxExposure = some o →
      Openable positions balance maxExposure o) ↔
    ∀ best, Selected opportunities positions balance maxPositionSize maxExposure best →
      RoomForAllocation positions balance maxPositionSize maxExposure best := by
  constructor
  · intro h best hS
    exact hS.openable_iff.mp (h _ (evaluate_eq_some_iff.mpr ⟨best, hS, rfl⟩))
  · intro h o ho
    obtain ⟨best, hS, rfl⟩ := evaluate_eq_some_iff.mp ho
    exact hS.openable_iff.mpr (h best hS)

/-- A long of 20 dollars is recommended to a portfolio of 1000 dollars in cash. -/
def smallLong : Opportunity :=
  { market := "SOL", direction := .Long, recommendedLeverage := .finite 2
    recommendedCollateral := .finite 10 }

/-- The long passes the check as one of 20 dollars and is returned as one of 400, where 300 is
allowed on a market. -/
theorem allocated_unchecked :
    ¬ ∀ o, evaluate [smallLong] [] (.finite 1000) (.finite 500) (.finite 2000) = some o →
      Openable [] (.finite 1000) (.finite 2000) o := by
  intro h
  have hreturned : evaluate [smallLong] [] (.finite 1000) (.finite 500) (.finite 2000) =
      some { smallLong with recommendedCollateral := .finite 200 } := by decide +kernel
  have hrefused : (checkPortfolioRisk { smallLong with recommendedCollateral := .finite 200 } []
      (getState [] (.finite 1000)).totalCapital (.finite 2000)).passed = false := by
    decide +kernel
  exact Bool.false_ne_true (hrefused.symm.trans (h _ hreturned).1)

end Portfolio

end FlashEdge
