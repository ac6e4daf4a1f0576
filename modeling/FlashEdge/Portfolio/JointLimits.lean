import FlashEdge.Portfolio.CheckedCollateral
import FlashEdge.Portfolio.Rebalance

/-!
# The limits of all accepted opportunities together

The filter takes the opportunities one after the other. What it has accepted counts towards the
number of positions and the exposures of the next round. The markets it compares with are those
of the existing positions, and stay so.

- `held`: the positions that count, with one for every accepted opportunity.
- `exposures_filterState`: the running totals are the exposures of these.
- `withinLimits_snoc`: what one round keeps.
- `jointLimits_iff`: when the limits are kept after every round.
-/

namespace FlashEdge

namespace Portfolio

/-- The position an opportunity is for. -/
def Opportunity.asPosition (o : Opportunity) : Position where
  market := o.market
  side := o.direction
  entryPrice := 0
  leverage := o.recommendedLeverage
  sizeUsd := .finite o.notional
  collateralUsd := o.recommendedCollateral
  timestamp := 0
  unrealizedPnlPercent := 0

/-- The positions whose size counts, and those of the accepted opportunities. -/
def held (positions : List Position) (accepted : List Opportunity) : List Position :=
  positions.filter Position.counted ++ accepted.map Opportunity.asPosition

/-- The markets of the positions and of the accepted opportunities. -/
def heldMarkets (positions : List Position) (accepted : List Opportunity) : List String :=
  (positions.map fun p => toUpperCase p.market) ++ accepted.map fun o => toUpperCase o.market

/-- All limits at once: the number of positions, one position a market, and the shares of the
capital on each side and in each group of correlated markets. -/
structure WithinLimits (positions : List Position) (totalCapital : ℚ)
    (accepted : List Opportunity) : Prop where
  count : positions.length + accepted.length ≤ MAX_POSITIONS
  markets : (heldMarkets positions accepted).Nodup
  directional : ∀ side, (heldSize (onSide side) (held positions accepted)).gt
    (.finite (totalCapital * MAX_DIRECTIONAL_EXPOSURE)) = false
  correlated : ∀ market, (heldSize (onGroupOf market) (held positions accepted)).gt
    (.finite (totalCapital * MAX_CORRELATED_EXPOSURE)) = false

/-- The state of the filter after some opportunities. -/
def filterState (positions : List Position) (totalCapital freeCapital : ℚ)
    (opportunities : List Opportunity) : PortfolioFilter :=
  opportunities.foldl (PortfolioFilter.next positions totalCapital)
    { exposures := filterExposures positions, freeCapital := .finite freeCapital }

/-- No round accepts an opportunity of a market that an earlier round has accepted. -/
def NoRepeatedMarket (positions : List Position) (totalCapital freeCapital : ℚ)
    (opportunities : List Opportunity) : Prop :=
  ∀ before opp, before ++ [opp] <+: opportunities →
    (filterState positions totalCapital freeCapital before).rejects positions totalCapital opp =
      none →
    toUpperCase opp.market ∉
      (filterState positions totalCapital freeCapital before).accepted.map fun o =>
        toUpperCase o.market

/-! ### The running totals -/

section

variable {positions : List Position} {totalCapital freeCapital : ℚ}

theorem heldSize_append (sel : Position → Bool) (l : List Position) (p : Position) :
    heldSize sel (l ++ [p]) = heldSize sel l + if sel p = true then p.sizeUsd else 0 := by
  induction l with
  | nil => rw [List.nil_append, heldSize_cons, add_comm]
  | cons q l ih => rw [List.cons_append, heldSize_cons, ih, heldSize_cons, add_assoc]

theorem filterExposures_eq (positions : List Position) :
    filterExposures positions = riskExposures (positions.filter Position.counted) := by
  unfold filterExposures riskExposures
  rw [List.foldl_filter]
  congr 1
  funext x p
  unfold Position.counted
  by_cases hmarket : p.market = ""
  · rw [if_pos (.inl hmarket), hmarket]
    rfl
  · cases hsize : p.sizeUsd.isFinite with
    | false => rw [if_pos (.inr rfl), Bool.and_false, if_neg Bool.false_ne_true]
    | true =>
      rw [if_neg (fun h => h.elim hmarket (fun hno => by cases hno)), Bool.and_true,
        if_pos (by simp [hmarket])]

theorem held_snoc (positions : List Position) (accepted : List Opportunity) (o : Opportunity) :
    held positions (accepted ++ [o]) = held positions accepted ++ [o.asPosition] := by
  unfold held
  rw [List.map_append, List.map_singleton, List.append_assoc]

/-- A round that accepts the opportunity appends it, and any other leaves what there is. -/
theorem accepted_next (positions : List Position) (totalCapital : ℚ) (s : PortfolioFilter)
    (opp : Opportunity) :
    (s.rejects positions totalCapital opp = none ∧
        (s.next positions totalCapital opp).accepted = s.accepted ++ [opp] ∧
        (s.next positions totalCapital opp).exposures =
          s.exposures.add (toUpperCase opp.market) opp.direction (.finite opp.notional)) ∨
      (s.rejects positions totalCapital opp ≠ none ∧
        (s.next positions totalCapital opp).accepted = s.accepted ∧
        (s.next positions totalCapital opp).exposures = s.exposures) := by
  unfold PortfolioFilter.next
  dsimp only
  cases s.rejects positions totalCapital opp with
  | none => exact .inl ⟨rfl, rfl, rfl⟩
  | some reason => exact .inr ⟨(by simp), rfl, rfl⟩

theorem filterState_snoc (opportunities : List Opportunity) (opp : Opportunity) :
    filterState positions totalCapital freeCapital (opportunities ++ [opp]) =
      (filterState positions totalCapital freeCapital opportunities).next positions totalCapital
        opp := by
  unfold filterState
  rw [List.foldl_append, List.foldl_cons, List.foldl_nil]

/-- After any number of rounds the totals are those of the positions held by then. -/
theorem exposures_filterState (opportunities : List Opportunity) :
    (filterState positions totalCapital freeCapital opportunities).exposures =
      riskExposures (held positions
        (filterState positions totalCapital freeCapital opportunities).accepted) := by
  induction opportunities using List.reverseRecOn with
  | nil =>
    show filterExposures positions = riskExposures (positions.filter Position.counted ++ [])
    rw [filterExposures_eq, List.append_nil]
  | append_singleton before opp ih =>
    rw [filterState_snoc]
    obtain ⟨-, haccepted, hexposures⟩ | ⟨-, haccepted, hexposures⟩ :=
      accepted_next positions totalCapital
        (filterState positions totalCapital freeCapital before) opp
    · rw [haccepted, hexposures, held_snoc, ih]
      unfold riskExposures
      rw [List.foldl_append, List.foldl_cons, List.foldl_nil]
      rfl
    · rw [haccepted, hexposures, ih]

/-! ### Groups of correlated markets -/

/-- The groups are disjoint: every symbol is in the group it is found in. -/
theorem getCorrelationGroup_mem {groupIdx : ℕ} {group : List String} {symbol : String}
    (hgroup : CORRELATION_GROUPS[groupIdx]? = some group)
    (hmem : symbol ∈ (group.map toUpperCase).map toUpperCase) :
    getCorrelationGroup symbol = some groupIdx := by
  have hall : ∀ i < CORRELATION_GROUPS.length,
      ∀ sym ∈ (((CORRELATION_GROUPS[i]?).getD []).map toUpperCase).map toUpperCase,
        getCorrelationGroup sym = some i := by decide +kernel
  refine hall groupIdx (List.getElem?_eq_some_iff.mp hgroup).1 symbol ?_
  rw [hgroup]
  exact hmem

/-- Correlation does not depend on the case of the symbol. -/
theorem getCorrelationGroup_toUpperCase (symbol : String) :
    getCorrelationGroup (toUpperCase symbol) = getCorrelationGroup symbol := by
  unfold getCorrelationGroup
  rw [toUpperCase_toUpperCase]

/-- What is correlated with a market has the correlated markets of that market. -/
theorem onGroupOf_eq {market : String} {p : Position} (h : onGroupOf market p = true) :
    onGroupOf market = onGroupOf p.market := by
  have hmem := of_decide_eq_true h
  have hgroups : (getCorrelatedMarkets (toUpperCase market)).map toUpperCase =
      (getCorrelatedMarkets (toUpperCase p.market)).map toUpperCase := by
    unfold getCorrelatedMarkets at hmem ⊢
    rw [getCorrelationGroup_toUpperCase] at hmem ⊢
    cases hidx : getCorrelationGroup market with
    | none =>
      rw [hidx] at hmem
      dsimp only at hmem
      rw [List.map_singleton, List.mem_singleton, toUpperCase_toUpperCase,
        toUpperCase_toUpperCase] at hmem
      rw [hmem, getCorrelationGroup_toUpperCase, hidx]
    | some groupIdx =>
      rw [hidx] at hmem
      dsimp only at hmem
      cases hgroup : CORRELATION_GROUPS[groupIdx]? with
      | none =>
        rw [hgroup] at hmem
        exact absurd hmem List.not_mem_nil
      | some group =>
        rw [hgroup] at hmem
        rw [getCorrelationGroup_mem hgroup hmem]
  funext q
  unfold onGroupOf
  rw [hgroups]

/-! ### One round -/

/-- What an opportunity that passes the checks has room for. -/
theorem room_of_rejects {s : PortfolioFilter} {opp : Opportunity}
    (hexposures : s.exposures = riskExposures (held positions s.accepted))
    (h : s.rejects positions totalCapital opp = none) :
    positions.length + s.accepted.length < MAX_POSITIONS ∧
      toUpperCase opp.market ∉ (positions.map fun p => toUpperCase p.market) ∧
      (heldSize (onSide opp.direction) (held positions s.accepted) + .finite opp.notional).gt
        (.finite (totalCapital * MAX_DIRECTIONAL_EXPOSURE)) = false ∧
      (heldSize (onGroupOf opp.market) (held positions s.accepted) + .finite opp.notional).gt
        (.finite (totalCapital * MAX_CORRELATED_EXPOSURE)) = false := by
  unfold PortfolioFilter.rejects at h
  dsimp only at h
  split at h
  · cases h
  · next hcount =>
    split at h
    · cases h
    · next hmarket =>
      split at h
      · cases h
      · split at h
        · cases h
        · next hside =>
          split at h
          · cases h
          · next hgroup =>
            rw [hexposures, ofSide_riskExposures] at hside
            rw [Bool.not_eq_false, hexposures] at hgroup
            have hcapital : 0 < totalCapital := by
              by_contra hno
              unfold checkCorrelation at hgroup
              rw [if_pos (not_lt.mp hno)] at hgroup
              cases hgroup
            rw [checkCorrelation_passed opp.market _ hcapital, Bool.not_eq_true'] at hgroup
            refine ⟨not_le.mp hcount, fun hmem => hmarket ?_, Bool.eq_false_iff.mpr hside, hgroup⟩
            exact List.contains_iff_mem.mpr hmem

/-- A round that accepts an opportunity of a new market keeps all limits. -/
theorem withinLimits_snoc {s : PortfolioFilter} {opp : Opportunity}
    (hexposures : s.exposures = riskExposures (held positions s.accepted))
    (hwithin : WithinLimits positions totalCapital s.accepted)
    (h : s.rejects positions totalCapital opp = none)
    (hnew : toUpperCase opp.market ∉ s.accepted.map fun o => toUpperCase o.market) :
    WithinLimits positions totalCapital (s.accepted ++ [opp]) := by
  obtain ⟨hcount, hmarket, hside, hgroup⟩ := room_of_rejects hexposures h
  refine ⟨?_, ?_, ?_, ?_⟩
  · rw [List.length_append, List.length_singleton]
    omega
  · have hfresh : toUpperCase opp.market ∉ heldMarkets positions s.accepted := fun hmem =>
      (List.mem_append.mp hmem).elim hmarket hnew
    have hsnoc : heldMarkets positions (s.accepted ++ [opp]) =
        heldMarkets positions s.accepted ++ [toUpperCase opp.market] := by
      unfold heldMarkets
      rw [List.map_append, List.map_singleton, List.append_assoc]
    rw [hsnoc, List.nodup_append_comm, List.singleton_append]
    exact List.nodup_cons.mpr ⟨hfresh, hwithin.markets⟩
  · intro side
    rw [held_snoc, heldSize_append]
    by_cases hsame : opp.direction = side
    · subst hsame
      rw [if_pos (show onSide opp.direction opp.asPosition = true from decide_eq_true rfl)]
      exact hside
    · rw [if_neg (show ¬ onSide side opp.asPosition = true from fun h =>
        hsame (of_decide_eq_true h)), add_zero]
      exact hwithin.directional side
  · intro market
    rw [held_snoc, heldSize_append]
    by_cases hin : onGroupOf market opp.asPosition = true
    · rw [if_pos hin, onGroupOf_eq hin]
      exact hgroup
    · rw [if_neg hin, add_zero]
      exact hwithin.correlated market

/-! ### All rounds -/

/-- What is accepted after every round is within the limits exactly if the existing positions
are, and no market is accepted twice. -/
theorem jointLimits_iff (positions : List Position) (totalCapital freeCapital : ℚ)
    (maxPositionSize : JsNumber) (opportunities : List Opportunity) :
    (∀ before, before <+: opportunities → WithinLimits positions totalCapital
        (filterOpportunities before positions totalCapital freeCapital
          maxPositionSize).accepted) ↔
      WithinLimits positions totalCapital [] ∧
        NoRepeatedMarket positions totalCapital freeCapital opportunities := by
  show (∀ before, before <+: opportunities → WithinLimits positions totalCapital
    (filterState positions totalCapital freeCapital before).accepted) ↔ _
  constructor
  · intro hall
    refine ⟨hall [] (List.nil_prefix), fun before opp hprefix hpass hin => ?_⟩
    have hafter := (hall (before ++ [opp]) hprefix).markets
    rw [filterState_snoc] at hafter
    obtain ⟨-, haccepted, -⟩ | ⟨hnot, -⟩ :=
      accepted_next positions totalCapital
        (filterState positions totalCapital freeCapital before) opp
    · rw [haccepted] at hafter
      unfold heldMarkets at hafter
      rw [List.map_append, List.map_singleton, ← List.append_assoc, List.nodup_append_comm,
        List.singleton_append, List.nodup_cons] at hafter
      exact hafter.1 (List.mem_append_right _ hin)
    · exact hnot hpass
  · rintro ⟨hinit, hfresh⟩ before hprefix
    induction before using List.reverseRecOn with
    | nil => exact hinit
    | append_singleton before opp ih =>
      have hwithin := ih ((List.prefix_append before [opp]).trans hprefix)
      rw [filterState_snoc]
      obtain ⟨hpass, haccepted, -⟩ | ⟨-, haccepted, -⟩ :=
        accepted_next positions totalCapital
          (filterState positions totalCapital freeCapital before) opp
      · rw [haccepted]
        exact withinLimits_snoc (exposures_filterState before) hwithin hpass
          (hfresh before opp hprefix hpass)
      · rw [haccepted]
        exact hwithin

end

/-- A long of a hundred dollars. -/
def hundredLong (market : String) : Opportunity where
  market
  direction := .Long
  recommendedLeverage := .finite 2
  recommendedCollateral := .finite 50

/-- The scanner lists a market twice, and both are accepted. -/
theorem market_accepted_twice :
    ¬ WithinLimits [] 1000
      (filterOpportunities [hundredLong "SOL", hundredLong "SOL"] [] 1000 500
        (.finite 200)).accepted := by
  intro hwithin
  exact absurd hwithin.markets (by decide +kernel)

end Portfolio

end FlashEdge
