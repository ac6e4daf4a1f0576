import FlashEdge.Portfolio.Rebalance
import Mathlib.Algebra.Order.BigOperators.Group.List

/-!
# Following the suggestions

What the suggestions of the analysis are, and what the portfolio is like once all of them are
followed. One close is suggested for a side that is too heavy, whatever it takes to bring the
side down to its limit.

- `Resolves`: the limits are restored.
- `still_heavy`: they are not.
- `suggested_analyzeRebalance`: what is suggested, and what it does to the shares.
-/

namespace FlashEdge

namespace Portfolio

/-- The portfolio once an action is followed. Taking out collateral leaves the size as it is. -/
def RebalanceAction.follow (positions : List Position) (a : RebalanceAction) : List Position :=
  match a.type with
  | .close_position => positions.filter fun p => p.key ≠ (a.market, a.side)
  | .reduce_collateral => positions.map fun p =>
      if p.key = (a.market, a.side) then
        { p with collateralUsd := p.collateralUsd - a.amount.getD 0 } else p
  | .info => positions

def followed (positions : List Position) (actions : List RebalanceAction) : List Position :=
  actions.foldl RebalanceAction.follow positions

/-- Reductions leave the minimum collateral, no position is to be closed and reduced, and a
side that was too heavy is so no longer, or holds no position. -/
structure Resolves (positions : List Position) (actions : List RebalanceAction) : Prop where
  minimum : ∀ a ∈ actions, a.type = .reduce_collateral →
    ∀ p ∈ positions, p.key = (a.market, a.side) →
      ∀ c amount, p.collateralUsd = .finite c → a.amount = some (.finite amount) →
        10 ≤ c - amount
  disjoint : ∀ a ∈ actions, ∀ b ∈ actions, a.type = .close_position →
    b.type = .reduce_collateral → (a.market, a.side) ≠ (b.market, b.side)
  limit : ∀ side, REBALANCE_DIRECTIONAL_TRIGGER < sidePct side positions →
    sidePct side (followed positions actions) ≤ REBALANCE_DIRECTIONAL_TRIGGER ∨
      ∀ p ∈ followed positions actions, p.side ≠ side

/-- What the suggestions for a portfolio are. -/
structure Suggested (positions : List Position) (totalCapital : JsNumber)
    (actions : List RebalanceAction) : Prop where
  disjoint : ∀ a ∈ actions, ∀ b ∈ actions, a.type = .close_position →
    b.type = .reduce_collateral → (a.market, a.side) ≠ (b.market, b.side)
  heavy : ∀ capital, totalCapital = .finite capital → 0 < capital →
    ∀ side, REBALANCE_DIRECTIONAL_TRIGGER < sidePct side positions →
      ∃ a weakest, actions.filter (·.type = .close_position) = [a] ∧ a.side = side ∧
        Weakest (positions.filter fun p => p.side = side) weakest ∧ a.market = weakest.market
  light : (∀ side, sidePct side positions ≤ REBALANCE_DIRECTIONAL_TRIGGER) →
    ∀ a ∈ actions, a.type = .reduce_collateral
  share : (∀ p ∈ positions, 0 ≤ p.sizeUsd.finiteOr0) →
    ∀ side, REBALANCE_DIRECTIONAL_TRIGGER < sidePct side positions →
      sidePct side (followed positions actions) ≤ sidePct side positions
  reduced : ∀ a ∈ actions, a.type = .reduce_collateral → ∀ capital,
    totalCapital = .finite capital →
    REBALANCE_CONCENTRATION_TRIGGER <
        marketExposure a.market (remainingPositions positions) / capital ∧
      ∃ (target : Position) (capped : JsNumber),
        Weakest ((remainingPositions positions).filter fun p => p.market = a.market) target ∧
        a.side = target.side ∧ a.amount = some capped.round ∧
        ∀ c, target.collateralUsd = .finite c →
          ∃ x, capped = .finite x ∧ 0 ≤ x ∧ min c 10 ≤ c - x

/-! ### What following does to the exposures -/

/-- What the exposures are counted of. -/
def Position.shape (p : Position) : (String × TradeSide) × JsNumber := (p.key, p.sizeUsd)

theorem sideExposure_of_shape {positions positions' : List Position} (side : TradeSide)
    (h : positions'.map Position.shape = positions.map Position.shape) :
    sideExposure side positions' = sideExposure side positions := by
  have hshape : ∀ l : List Position, sideExposure side l =
      (((l.map Position.shape).filter fun t =>
        (t.1.1 ≠ "" && t.2.isFinite) && t.1.2 = side).map (·.2.finiteOr0)).sum := by
    intro l
    rw [List.filter_map, List.map_map]
    rfl
  rw [hshape, hshape, h]

theorem sidePct_of_shape {positions positions' : List Position} (side : TradeSide)
    (h : positions'.map Position.shape = positions.map Position.shape) :
    sidePct side positions' = sidePct side positions := by
  unfold sidePct
  rw [sideExposure_of_shape .Long h, sideExposure_of_shape .Short h, sideExposure_of_shape side h]

/-- Reductions change no shape. -/
theorem shape_followed {actions : List RebalanceAction}
    (h : ∀ a ∈ actions, a.type = .reduce_collateral) (positions : List Position) :
    (followed positions actions).map Position.shape = positions.map Position.shape := by
  unfold followed
  induction actions generalizing positions with
  | nil => rfl
  | cons a actions ih =>
    rw [List.foldl_cons, ih fun b hb => h b (List.mem_cons_of_mem a hb)]
    unfold RebalanceAction.follow
    rw [h a List.mem_cons_self]
    dsimp only
    rw [List.map_map]
    refine List.map_congr_left fun p _ => ?_
    rw [Function.comp_apply]
    split <;> rfl

/-- Closes leave the positions that none of them is for. -/
theorem followed_closes {actions : List RebalanceAction}
    (h : ∀ a ∈ actions, a.type = .close_position) (positions : List Position) :
    followed positions actions =
      positions.filter fun p => p.key ∉ actions.map fun a => (a.market, a.side) := by
  unfold followed
  induction actions generalizing positions with
  | nil => exact (List.filter_eq_self.mpr fun p _ => decide_eq_true List.not_mem_nil).symm
  | cons a actions ih =>
    rw [List.foldl_cons, ih fun b hb => h b (List.mem_cons_of_mem a hb)]
    unfold RebalanceAction.follow
    rw [h a List.mem_cons_self]
    dsimp only
    rw [List.filter_filter]
    refine List.filter_congr fun p _ => ?_
    rw [List.map_cons, ← Bool.decide_and, decide_eq_decide, List.mem_cons, not_or, and_comm]

/-- All suggestions together leave the exposures of the remaining positions. -/
theorem sidePct_followed (positions : List Position) (capital : ℚ) (side : TradeSide) :
    sidePct side (followed positions (directionalActions positions ++
        concentrationActions capital (remainingPositions positions))) =
      sidePct side (remainingPositions positions) := by
  have hcloses : followed positions (directionalActions positions) =
      remainingPositions positions :=
    followed_closes (fun a ha => type_of_directionalActions ha) positions
  have happend : followed positions (directionalActions positions ++
      concentrationActions capital (remainingPositions positions)) =
        followed (remainingPositions positions)
          (concentrationActions capital (remainingPositions positions)) := by
    unfold followed at hcloses ⊢
    rw [List.foldl_append, hcloses]
  rw [happend]
  exact sidePct_of_shape side
    (shape_followed (fun a ha => (mem_concentrationActions ha).1) _)

/-! ### The share after a close -/

/-- The share of a smaller part, beside the same other part, is no larger. -/
theorem share_mono {x x' y : ℚ} (hx' : 0 ≤ x') (hx : x' ≤ x) (hy : 0 ≤ y) :
    (if 0 < x' + y then x' / (x' + y) * 100 else 0) ≤
      if 0 < x + y then x / (x + y) * 100 else 0 := by
  split
  · next hpos =>
    have hpos' : 0 < x + y := by linarith
    rw [if_pos hpos']
    refine mul_le_mul_of_nonneg_right ?_ (by norm_num)
    rw [div_le_div_iff₀ hpos hpos', mul_add, mul_add]
    have hcross : x' * y ≤ x * y := mul_le_mul_of_nonneg_right hx hy
    linarith [mul_comm x' x]
  · split
    · next hpos => exact mul_nonneg (div_nonneg (hx'.trans hx) hpos.le) (by norm_num)
    · exact le_refl 0

theorem sideExposure_nonneg {positions : List Position} (side : TradeSide)
    (h : ∀ p ∈ positions, 0 ≤ p.sizeUsd.finiteOr0) : 0 ≤ sideExposure side positions := by
  unfold sideExposure
  refine List.sum_nonneg fun x hx => ?_
  obtain ⟨p, hp, rfl⟩ := List.mem_map.mp hx
  exact h p (List.mem_of_mem_filter hp)

theorem sideExposure_filter_le {positions : List Position} (side : TradeSide)
    (keep : Position → Bool) (h : ∀ p ∈ positions, 0 ≤ p.sizeUsd.finiteOr0) :
    sideExposure side (positions.filter keep) ≤ sideExposure side positions := by
  unfold sideExposure
  refine List.Sublist.sum_le_sum ((List.filter_sublist.filter _).map _) fun x hx => ?_
  obtain ⟨p, hp, rfl⟩ := List.mem_map.mp hx
  exact h p (List.mem_of_mem_filter hp)

/-- Without positions of one side, the other side is what it was. -/
theorem sideExposure_filter_eq {positions : List Position} {side : TradeSide}
    {keep : Position → Bool} (h : ∀ p ∈ positions, p.side = side → keep p = true) :
    sideExposure side (positions.filter keep) = sideExposure side positions := by
  unfold sideExposure
  rw [List.filter_filter]
  refine congrArg (fun l : List Position => (l.map (·.sizeUsd.finiteOr0)).sum) ?_
  refine List.filter_congr fun p hp => ?_
  by_cases hside : p.side = side
  · rw [h p hp hside, Bool.and_true]
  · rw [decide_eq_false hside, Bool.and_false, Bool.false_and]

theorem sidePct_remaining {positions : List Position} {side : TradeSide}
    (hsizes : ∀ p ∈ positions, 0 ≤ p.sizeUsd.finiteOr0)
    (hheavy : REBALANCE_DIRECTIONAL_TRIGGER < sidePct side positions) :
    sidePct side (remainingPositions positions) ≤ sidePct side positions := by
  obtain ⟨a, ha, hactions⟩ := directionalActions_of_heavy hheavy
  have hside : a.side = side := (directionalAction_some ha).2.2.1
  have hkept : ∀ p ∈ remainingPositions positions, 0 ≤ p.sizeUsd.finiteOr0 :=
    fun p hp => hsizes p (mem_remainingPositions.mp hp).1
  have hsmaller : sideExposure side (remainingPositions positions) ≤
      sideExposure side positions := sideExposure_filter_le side _ hsizes
  have hother : ∀ other, other ≠ side →
      sideExposure other (remainingPositions positions) = sideExposure other positions := by
    intro other hne
    refine sideExposure_filter_eq fun p _ hp => decide_eq_true ?_
    rw [hactions, List.map_singleton, List.mem_singleton]
    intro hkey
    exact hne (hp.symm.trans ((Prod.mk.inj hkey).2.trans hside))
  unfold sidePct
  cases side with
  | Long =>
    rw [hother .Short (by decide)]
    exact share_mono (sideExposure_nonneg .Long hkept) hsmaller (sideExposure_nonneg .Short hsizes)
  | Short =>
    rw [hother .Long (by decide), add_comm (sideExposure .Long positions),
      add_comm (sideExposure .Long positions)]
    exact share_mono (sideExposure_nonneg .Short hkept) hsmaller (sideExposure_nonneg .Long hsizes)

/-! ### The suggestions -/

theorem Suggested.nothing (positions : List Position) {totalCapital : JsNumber}
    (h : ∀ capital, totalCapital = .finite capital → 0 < capital → positions = []) :
    Suggested positions totalCapital [] := by
  refine ⟨?_, ?_, ?_, ?_, ?_⟩
  · exact fun a ha => absurd ha List.not_mem_nil
  · intro capital hcapital hpos side hheavy
    obtain ⟨p, hp⟩ := exists_of_sidePct hheavy
    rw [h capital hcapital hpos] at hp
    exact absurd hp List.not_mem_nil
  · exact fun _ a ha => absurd ha List.not_mem_nil
  · exact fun _ side _ => le_refl (sidePct side positions)
  · exact fun a ha => absurd ha List.not_mem_nil

/-- For every portfolio and capital. -/
theorem suggested_analyzeRebalance (positions : List Position) (totalCapital : JsNumber) :
    Suggested positions totalCapital (analyzeRebalance positions totalCapital).actions := by
  unfold analyzeRebalance
  split
  · next capital =>
    split
    · next hnothing =>
      refine .nothing positions fun c hc hpos => ?_
      obtain rfl := JsNumber.finite.inj hc
      rcases hnothing with hempty | hcapital
      · exact List.length_eq_zero_iff.mp hempty
      · exact absurd hcapital (not_le.mpr hpos)
    · have hclose : ∀ a ∈ directionalActions positions, a.type = .close_position :=
        fun a ha => type_of_directionalActions ha
      have hreduce : ∀ a ∈ concentrationActions capital (remainingPositions positions),
          a.type = .reduce_collateral := fun a ha => (mem_concentrationActions ha).1
      refine ⟨?_, ?_, ?_, ?_, ?_⟩
      · intro a ha b hb haclose hbreduce
        have ha : a ∈ directionalActions positions := by
          refine (List.mem_append.mp ha).resolve_right fun h => ?_
          rw [hreduce a h] at haclose
          cases haclose
        have hb : b ∈ concentrationActions capital (remainingPositions positions) := by
          refine (List.mem_append.mp hb).resolve_left fun h => ?_
          rw [hclose b h] at hbreduce
          cases hbreduce
        obtain ⟨-, -, target, _, hweakest, hside, -⟩ := mem_concentrationActions hb
        obtain ⟨hremaining, hmarket⟩ := List.mem_filter.mp hweakest.mem
        -- The reduced position is one of those left after the close.
        have hne := (mem_remainingPositions.mp hremaining).2 a ha
        rw [hside, ← of_decide_eq_true hmarket]
        exact hne.symm
      · intro c hc hpos side hheavy
        obtain ⟨a, ha, hactions⟩ := directionalActions_of_heavy hheavy
        obtain ⟨-, htype, hside, weakest, hweakest, hmarket⟩ := directionalAction_some ha
        refine ⟨a, weakest, ?_, hside, hweakest, hmarket⟩
        have hnone : (concentrationActions capital (remainingPositions positions)).filter
            (·.type = .close_position) = [] := by
          refine List.filter_eq_nil_iff.mpr fun b hb hbclose => ?_
          rw [hreduce b hb] at hbclose
          cases of_decide_eq_true hbclose
        rw [List.filter_append, hnone, hactions, List.append_nil, List.filter_singleton, htype]
        rfl
      · intro hlight a ha
        refine hreduce a ((List.mem_append.mp ha).resolve_left fun h => ?_)
        obtain ⟨side, h⟩ := mem_directionalActions.mp h
        rw [directionalAction_none (hlight side)] at h
        cases h
      · intro hsizes side hheavy
        dsimp only
        rw [sidePct_followed]
        exact sidePct_remaining hsizes hheavy
      · intro a ha htype c hc
        obtain rfl := JsNumber.finite.inj hc
        have ha : a ∈ concentrationActions capital (remainingPositions positions) := by
          refine (List.mem_append.mp ha).resolve_left fun h => ?_
          rw [hclose a h] at htype
          cases htype
        obtain ⟨-, hlarge, target, reductionTarget, hweakest, hside, hamount⟩ :=
          mem_concentrationActions ha
        exact ⟨hlarge, target, _, hweakest, hside, hamount,
          fun c hc => cappedAmount_leaves hc reductionTarget⟩
  · next hcapital => exact .nothing positions fun c hc _ => absurd hc (hcapital c)

/-- A position at a leverage of two. -/
def sized (market : String) (side : TradeSide) (size pnl : ℚ) : Position where
  market
  side
  entryPrice := .finite 1
  leverage := .finite 2
  sizeUsd := .finite size
  collateralUsd := .finite (size / 2)
  timestamp := .finite 0
  unrealizedPnlPercent := .finite pnl

/-- Three longs and a small short. -/
def heavyLongs : List Position :=
  [sized "SOL" .Long 100 3, sized "BTC" .Long 100 (-2), sized "ETH" .Long 100 1,
    sized "JUP" .Short 10 0]

/-- The long in BTC is closed, and the longs still are 95% of the exposure. -/
theorem still_heavy :
    ¬ Resolves heavyLongs (analyzeRebalance heavyLongs (.finite 1000)).actions := by
  intro hresolves
  rcases hresolves.limit .Long (by decide +kernel) with hlimit | hnone
  · exact absurd hlimit (by decide +kernel)
  · exact absurd hnone (by decide +kernel)

end Portfolio

end FlashEdge
