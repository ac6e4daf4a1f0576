import FlashEdge.Portfolio.PortfolioManager
import Mathlib.Data.List.Sort
import Mathlib.Tactic.Linarith

/-!
# Rebalancing (`portfolio/rebalance.ts`)

Suggestions for a portfolio that leans to one side or is concentrated in one market. The heavier
side is answered with one close, that of its weakest position. The exposures are then counted
again without the closed position, and for every market that is still too large the weakest
position in it is to be reduced.

- `analyzeRebalance`: the analysis.
- `head?_byPnl`: what `sort(…)[0]` is.
- `directionalActions_of_heavy`: a side that is too heavy is answered with one close.
- `mem_concentrationActions`: what a reduction is suggested for.
-/

namespace FlashEdge

namespace Portfolio

/-- Fraction of the capital. -/
def REBALANCE_CONCENTRATION_TRIGGER : ℚ := 4 / 10

/-- Percent of the exposure. -/
def REBALANCE_DIRECTIONAL_TRIGGER : ℚ := 70

inductive RebalanceType where
  | reduce_collateral
  | close_position
  | info
deriving DecidableEq, Repr

structure RebalanceAction where
  type : RebalanceType
  market : String
  side : TradeSide
  reason : String
  amount : Option JsNumber := none
deriving DecidableEq, Repr

structure RebalanceResult where
  balanced : Bool
  longPct : ℚ
  shortPct : ℚ
  directionalBias : String
  actions : List RebalanceAction
deriving DecidableEq, Repr

/-- The position has a market and a finite size. -/
def Position.counted (p : Position) : Bool := p.market ≠ "" && p.sizeUsd.isFinite

/-- `longExposure` or `shortExposure`. -/
def sideExposure (side : TradeSide) (positions : List Position) : ℚ :=
  ((positions.filter fun p => p.counted && p.side = side).map (·.sizeUsd.finiteOr0)).sum

/-- `longPct` or `shortPct`. -/
def sidePct (side : TradeSide) (positions : List Position) : ℚ :=
  let totalExposure := sideExposure .Long positions + sideExposure .Short positions
  if 0 < totalExposure then sideExposure side positions / totalExposure * 100 else 0

/-- `p.unrealizedPnlPercent || 0`. -/
def Position.pnl (p : Position) : JsNumber :=
  match p.unrealizedPnlPercent with
  | .nan => 0
  | pnl => pnl

/-- Sorted by profit, the weakest first; the sort is stable. -/
def byPnl (positions : List Position) : List Position :=
  positions.insertionSort fun a b => a.pnl.gt b.pnl = false

def Position.key (p : Position) : String × TradeSide := (p.market, p.side)

/-- The weakest position of a side is to be closed, if the side is too heavy. -/
def directionalAction (side : TradeSide) (positions : List Position) : Option RebalanceAction :=
  if REBALANCE_DIRECTIONAL_TRIGGER < sidePct side positions then
    (byPnl (positions.filter fun p => p.side = side)).head?.map fun weakest =>
      { type := .close_position
        market := weakest.market
        side
        reason := (match side with | .Long => "Long" | .Short => "Short") ++ "-heavy (" ++
          (JsNumber.finite (sidePct side positions)).toFixed 0 ++ "%): close weakest " ++
          side.value ++ " " ++ weakest.market ++ " (PnL: " ++
          weakest.unrealizedPnlPercent.toFixed 1 ++ "%)" }
  else none

/-- The closes that are suggested. -/
def directionalActions (positions : List Position) : List RebalanceAction :=
  (directionalAction .Long positions).toList ++ (directionalAction .Short positions).toList

/-- What is left once the suggested closes are made. `closedKeys` holds the market and the side
of every close. -/
def remainingPositions (positions : List Position) : List Position :=
  let closedKeys := (directionalActions positions).map fun a => (a.market, a.side)
  positions.filter fun p => p.key ∉ closedKeys

/-- The exposure of each market, in the order of the positions. -/
def remainingExposure (remaining : List Position) : OrderedMap String ℚ :=
  remaining.foldl (fun map p =>
    if p.counted then map.set p.market ((map.get? p.market).getD 0 + p.sizeUsd.finiteOr0)
    else map) .empty

/-- What is to be taken out of `target`, before it is rounded: at least 10, and no more than
leaves 10 of the collateral. -/
def cappedAmount (target : Position) (reductionTarget : ℚ) : JsNumber :=
  ((JsNumber.finite 10).max
      (if target.leverage.gtRat 0 then (JsNumber.finite reductionTarget).div target.leverage
        else .finite reductionTarget)).min
    ((JsNumber.finite 0).max (target.collateralUsd - .finite 10))

/-- The weakest position of a market is to be reduced, if the market is too large. -/
def concentrationAction (totalCapital : ℚ) (remaining : List Position) (market : String)
    (exposure : ℚ) : Option RebalanceAction :=
  let pct := exposure / totalCapital
  let reductionTarget := exposure - totalCapital * MAX_MARKET_EXPOSURE
  if REBALANCE_CONCENTRATION_TRIGGER < pct then
    match (byPnl (remaining.filter fun p => p.market = market)).head? with
    | none => none
    | some target =>
      if 0 < reductionTarget then
        some
          { type := .reduce_collateral
            market := target.market
            side := target.side
            amount := some (cappedAmount target reductionTarget).round
            reason := market ++ " concentration " ++ (JsNumber.finite (pct * 100)).toFixed 0 ++
              "%: reduce by ~$" ++ toString ⌊reductionTarget + 1 / 2⌋ }
      else none
  else none

/-- The reductions that are suggested. -/
def concentrationActions (totalCapital : ℚ) (remaining : List Position) : List RebalanceAction :=
  (remainingExposure remaining).entries.filterMap fun entry =>
    concentrationAction totalCapital remaining entry.1 entry.2

def directionalBias (longPct shortPct : ℚ) : String :=
  if 60 < longPct ∧ 0 < shortPct then (JsNumber.finite (longPct / shortPct)).toFixed 1 ++ ":1 Long"
  else if 60 < longPct then "Long Only"
  else if 60 < shortPct ∧ 0 < longPct then
    (JsNumber.finite (shortPct / longPct)).toFixed 1 ++ ":1 Short"
  else if 60 < shortPct then "Short Only"
  else "Balanced"

/-- The answer where there is nothing to analyse. -/
def nothingToRebalance : RebalanceResult where
  balanced := true
  longPct := 0
  shortPct := 0
  directionalBias := "none"
  actions := []

def analyzeRebalance (positions : List Position) (totalCapital : JsNumber) : RebalanceResult :=
  match totalCapital with
  | .finite capital =>
    if positions.length = 0 ∨ capital ≤ 0 then nothingToRebalance
    else
      let longPct := sidePct .Long positions
      let shortPct := sidePct .Short positions
      let remaining := remainingPositions positions
      let concentrated := (remainingExposure remaining).entries.any fun entry =>
        REBALANCE_CONCENTRATION_TRIGGER < entry.2 / capital
      { balanced := !(decide (REBALANCE_DIRECTIONAL_TRIGGER < longPct) ||
          decide (REBALANCE_DIRECTIONAL_TRIGGER < shortPct) || concentrated)
        longPct
        shortPct
        directionalBias := directionalBias longPct shortPct
        actions := directionalActions positions ++ concentrationActions capital remaining }
  | _ => nothingToRebalance

/-- `PortfolioManager.analyzeRebalance(positions, balance)`. -/
def managedRebalance (positions : List Position) (balance : JsNumber) : RebalanceResult :=
  analyzeRebalance positions (.finite (getState positions balance).totalCapital)

/-- No position has a lower profit. -/
structure Weakest (positions : List Position) (weakest : Position) : Prop where
  mem : weakest ∈ positions
  least : ∀ p ∈ positions, weakest.pnl.gt p.pnl = false

/-! ### The weakest position -/

theorem pnl_ne_nan (p : Position) : p.pnl ≠ .nan := by
  unfold Position.pnl
  split
  · exact fun h => by cases h
  · next h => exact h

theorem gt_total {x y : JsNumber} (hx : x ≠ .nan) (hy : y ≠ .nan) :
    x.gt y = false ∨ y.gt x = false := by
  cases x <;> cases y
  case finite.finite p q =>
    rw [JsNumber.gt_finite_finite, JsNumber.gt_finite_finite, decide_eq_false_iff_not,
      decide_eq_false_iff_not, not_lt, not_lt]
    exact le_total p q
  all_goals first
    | exact absurd rfl hx
    | exact absurd rfl hy
    | exact .inl rfl
    | exact .inr rfl

theorem gt_trans {x y z : JsNumber} (hx : x ≠ .nan) (hy : y ≠ .nan) (hz : z ≠ .nan)
    (hxy : x.gt y = false) (hyz : y.gt z = false) : x.gt z = false := by
  cases x <;> cases y <;> cases z
  case finite.finite.finite p q r =>
    rw [JsNumber.gt_finite_finite, decide_eq_false_iff_not, not_lt] at hxy hyz ⊢
    exact hxy.trans hyz
  all_goals first
    | rfl
    | exact absurd rfl hx
    | exact absurd rfl hy
    | exact absurd rfl hz
    | exact Bool.noConfusion hxy
    | exact Bool.noConfusion hyz

/-- The first of the sorted positions is the weakest. -/
theorem head?_byPnl {positions : List Position} {weakest : Position}
    (h : (byPnl positions).head? = some weakest) : Weakest positions weakest := by
  have hsorted : (byPnl positions).Pairwise fun a b => a.pnl.gt b.pnl = false := by
    have htotal : Std.Total fun a b : Position => a.pnl.gt b.pnl = false :=
      ⟨fun a b => gt_total (pnl_ne_nan a) (pnl_ne_nan b)⟩
    have htrans : IsTrans Position fun a b => a.pnl.gt b.pnl = false :=
      ⟨fun a b c => gt_trans (pnl_ne_nan a) (pnl_ne_nan b) (pnl_ne_nan c)⟩
    exact List.pairwise_insertionSort _ positions
  have hmem : ∀ p, p ∈ byPnl positions ↔ p ∈ positions := fun p => List.mem_insertionSort _
  cases hlist : byPnl positions with
  | nil =>
    rw [hlist] at h
    cases h
  | cons first rest =>
    rw [hlist, List.head?_cons] at h
    obtain rfl := Option.some.inj h
    rw [hlist] at hsorted hmem
    refine ⟨(hmem first).mp List.mem_cons_self, fun p hp => ?_⟩
    rcases List.mem_cons.mp ((hmem p).mpr hp) with rfl | hrest
    · rcases gt_total (pnl_ne_nan p) (pnl_ne_nan p) with hself | hself <;> exact hself
    · exact (List.pairwise_cons.mp hsorted).1 p hrest

/-! ### The suggested close -/

section

variable {positions : List Position} {side : TradeSide} {a : RebalanceAction}

theorem directionalAction_some (h : directionalAction side positions = some a) :
    REBALANCE_DIRECTIONAL_TRIGGER < sidePct side positions ∧ a.type = .close_position ∧
      a.side = side ∧
      ∃ weakest, Weakest (positions.filter fun p => p.side = side) weakest ∧
        a.market = weakest.market := by
  obtain ⟨hheavy, hsome⟩ := Option.ite_none_right_eq_some.mp h
  obtain ⟨weakest, hhead, rfl⟩ := Option.map_eq_some_iff.mp hsome
  exact ⟨hheavy, rfl, rfl, weakest, head?_byPnl hhead, rfl⟩

theorem directionalAction_none (h : sidePct side positions ≤ REBALANCE_DIRECTIONAL_TRIGGER) :
    directionalAction side positions = none := by
  unfold directionalAction
  rw [if_neg (not_lt.mpr h)]

/-- A share that is too large is the share of some position. -/
theorem exists_of_sidePct (h : REBALANCE_DIRECTIONAL_TRIGGER < sidePct side positions) :
    ∃ p, p ∈ positions.filter fun p => p.side = side := by
  by_contra hnone
  have hempty : (positions.filter fun p => p.side = side) = [] :=
    List.eq_nil_iff_forall_not_mem.mpr fun p hp => hnone ⟨p, hp⟩
  have hzero : sideExposure side positions = 0 := by
    unfold sideExposure
    rw [← List.filter_filter, hempty]
    rfl
  unfold sidePct at h
  dsimp only at h
  rw [hzero, zero_div, zero_mul, ite_self] at h
  exact absurd h (by decide +kernel)

theorem directionalAction_isSome
    (h : REBALANCE_DIRECTIONAL_TRIGGER < sidePct side positions) :
    ∃ a, directionalAction side positions = some a := by
  obtain ⟨p, hp⟩ := exists_of_sidePct h
  have hne : byPnl (positions.filter fun p => p.side = side) ≠ [] := by
    intro hnil
    have hin : p ∈ byPnl (positions.filter fun p => p.side = side) :=
      (List.mem_insertionSort _).mpr hp
    rw [hnil] at hin
    exact List.not_mem_nil hin
  unfold directionalAction
  rw [if_pos h, List.head?_eq_some_head hne]
  exact ⟨_, rfl⟩

theorem sidePct_add (positions : List Position) :
    sidePct .Long positions + sidePct .Short positions = 0 ∨
      sidePct .Long positions + sidePct .Short positions = 100 := by
  unfold sidePct
  dsimp only
  split
  · next hpos =>
    right
    rw [← add_mul, ← add_div, div_self hpos.ne', one_mul]
  · left
    exact add_zero 0

/-- The sides are not both too heavy. -/
theorem sidePct_other (h : REBALANCE_DIRECTIONAL_TRIGGER < sidePct side positions) :
    ∀ other, other ≠ side → sidePct other positions ≤ REBALANCE_DIRECTIONAL_TRIGGER := by
  unfold REBALANCE_DIRECTIONAL_TRIGGER at h ⊢
  intro other hne
  have hsum := sidePct_add positions
  cases side <;> cases other <;> first
    | exact absurd rfl hne
    | rcases hsum with hsum | hsum <;> linarith

/-- One close is suggested for a side that is too heavy. -/
theorem directionalActions_of_heavy
    (h : REBALANCE_DIRECTIONAL_TRIGGER < sidePct side positions) :
    ∃ a, directionalAction side positions = some a ∧ directionalActions positions = [a] := by
  obtain ⟨a, ha⟩ := directionalAction_isSome h
  refine ⟨a, ha, ?_⟩
  unfold directionalActions
  cases side with
  | Long =>
    rw [ha, directionalAction_none (sidePct_other h .Short (by decide))]
    rfl
  | Short =>
    rw [ha, directionalAction_none (sidePct_other h .Long (by decide))]
    rfl

theorem mem_directionalActions :
    a ∈ directionalActions positions ↔ ∃ side, directionalAction side positions = some a := by
  unfold directionalActions
  rw [List.mem_append, Option.mem_toList, Option.mem_toList]
  constructor
  · rintro (h | h)
    · exact ⟨.Long, h⟩
    · exact ⟨.Short, h⟩
  · rintro ⟨side, h⟩
    cases side with
    | Long => exact .inl h
    | Short => exact .inr h

theorem type_of_directionalActions (h : a ∈ directionalActions positions) :
    a.type = .close_position := by
  obtain ⟨side, h⟩ := mem_directionalActions.mp h
  exact (directionalAction_some h).2.1

theorem mem_remainingPositions {p : Position} :
    p ∈ remainingPositions positions ↔
      p ∈ positions ∧ ∀ a ∈ directionalActions positions, p.key ≠ (a.market, a.side) := by
  unfold remainingPositions
  dsimp only
  rw [List.mem_filter, decide_eq_true_eq, List.mem_map, not_exists]
  refine and_congr_right fun _ => forall_congr' fun a => ?_
  rw [not_and]
  exact forall_congr' fun _ => ne_comm

end

/-! ### The suggested reductions -/

/-- What the counted positions of a market hold. -/
def marketExposure (market : String) (positions : List Position) : ℚ :=
  ((positions.filter fun p => p.counted && p.market = market).map (·.sizeUsd.finiteOr0)).sum

section

variable {remaining : List Position} {market : String}

theorem marketExposure_append (l : List Position) (p : Position) :
    marketExposure market (l ++ [p]) =
      marketExposure market l +
        if p.counted = true ∧ p.market = market then p.sizeUsd.finiteOr0 else 0 := by
  unfold marketExposure
  rw [List.filter_append, List.map_append, List.sum_append, List.filter_singleton]
  by_cases hp : p.counted = true ∧ p.market = market
  · have hsel : (p.counted && decide (p.market = market)) = true := by simp [hp]
    rw [if_pos hp, hsel]
    exact congrArg _ (add_zero _)
  · have hsel : (p.counted && decide (p.market = market)) = false := by
      rw [Bool.and_eq_false_iff, decide_eq_false_iff_not]
      exact (Decidable.not_and_iff_or_not.mp hp).imp_left Bool.eq_false_iff.mpr
    rw [if_neg hp, hsel]
    rfl

/-- The map holds the exposure of every market. -/
theorem getD_remainingExposure :
    ((remainingExposure remaining).get? market).getD 0 = marketExposure market remaining := by
  induction remaining using List.reverseRecOn with
  | nil => rfl
  | append_singleton l p ih =>
    rw [marketExposure_append, ← ih]
    unfold remainingExposure
    rw [List.foldl_append, List.foldl_cons, List.foldl_nil]
    split
    · next hp =>
      rw [OrderedMap.get?_set]
      by_cases hm : p.market = market
      · subst hm
        rw [if_pos rfl, if_pos ⟨hp, rfl⟩]
        rfl
      · rw [if_neg (Ne.symm hm), if_neg (fun h => hm h.2), add_zero]
    · next hp => rw [if_neg (fun h => hp h.1), add_zero]

theorem mem_remainingExposure {exposure : ℚ}
    (h : (market, exposure) ∈ (remainingExposure remaining).entries) :
    exposure = marketExposure market remaining := by
  rw [← getD_remainingExposure, OrderedMap.get?_eq_some_iff.mpr h, Option.getD_some]

/-- A reduction is suggested for a market that holds too much, and of its weakest position. -/
theorem mem_concentrationActions {capital : ℚ} {a : RebalanceAction}
    (h : a ∈ concentrationActions capital remaining) :
    a.type = .reduce_collateral ∧
      REBALANCE_CONCENTRATION_TRIGGER < marketExposure a.market remaining / capital ∧
      ∃ target reductionTarget, Weakest (remaining.filter fun p => p.market = a.market) target ∧
        a.side = target.side ∧ a.amount = some (cappedAmount target reductionTarget).round := by
  obtain ⟨⟨market, exposure⟩, hentry, haction⟩ := List.mem_filterMap.mp h
  obtain ⟨hlarge, hsome⟩ := Option.ite_none_right_eq_some.mp haction
  split at hsome
  · cases hsome
  · next target hhead =>
    obtain ⟨-, hsome⟩ := Option.ite_none_right_eq_some.mp hsome
    obtain rfl := Option.some.inj hsome
    have hweakest := head?_byPnl hhead
    have hmarket : target.market = market :=
      of_decide_eq_true (List.mem_filter.mp hweakest.mem).2
    refine ⟨rfl, ?_, target, _, ?_, rfl, rfl⟩
    · show _ < marketExposure target.market remaining / capital
      rw [hmarket, ← mem_remainingExposure hentry]
      exact hlarge
    · show Weakest (remaining.filter fun p => p.market = target.market) target
      rw [hmarket]
      exact hweakest

end

/-! ### The capped amount -/

theorem max_finite_finite (p q : ℚ) :
    (JsNumber.finite p).max (.finite q) = .finite (max p q) := by
  show (if decide (q < p) = true then JsNumber.finite p else .finite q) = _
  split
  · next h => rw [max_eq_left (of_decide_eq_true h).le]
  · next h => rw [max_eq_right (not_lt.mp fun hlt => h (decide_eq_true hlt))]

theorem min_finite_finite (p q : ℚ) :
    (JsNumber.finite p).min (.finite q) = .finite (min p q) := by
  show (if decide (q < p) = true then JsNumber.finite q else .finite p) = _
  split
  · next h => rw [min_eq_right (of_decide_eq_true h).le]
  · next h => rw [min_eq_left (not_lt.mp fun hlt => h (decide_eq_true hlt))]

/-- Divided by a positive leverage, a finite target is finite. -/
theorem finite_div_leverage (reductionTarget : ℚ) (leverage : JsNumber) :
    ∃ x, (if leverage.gtRat 0 then (JsNumber.finite reductionTarget).div leverage
      else .finite reductionTarget) = .finite x := by
  split
  · next hpos =>
    cases leverage with
    | finite q =>
      have hq : (0 : ℚ) < q := of_decide_eq_true hpos
      exact ⟨reductionTarget / q, if_neg hq.ne'⟩
    | posInfinity => exact ⟨0, rfl⟩
    | negInfinity => cases hpos
    | nan => cases hpos
  · exact ⟨reductionTarget, rfl⟩

/-- Before it is rounded, the amount leaves 10 of the collateral, or takes nothing. -/
theorem cappedAmount_leaves {target : Position} {c : ℚ} (h : target.collateralUsd = .finite c)
    (reductionTarget : ℚ) :
    ∃ x, cappedAmount target reductionTarget = .finite x ∧ 0 ≤ x ∧ min c 10 ≤ c - x := by
  obtain ⟨wanted, hwanted⟩ := finite_div_leverage reductionTarget target.leverage
  refine ⟨min (max 10 wanted) (max 0 (c - 10)), ?_, ?_, ?_⟩
  · unfold cappedAmount
    rw [hwanted, h, max_finite_finite, JsNumber.finite_sub_finite, max_finite_finite,
      min_finite_finite]
  · exact le_min (le_max_of_le_left (by norm_num)) (le_max_left _ _)
  · have hcap : min (max 10 wanted) (max 0 (c - 10)) ≤ max 0 (c - 10) := min_le_right _ _
    generalize min (max 10 wanted) (max 0 (c - 10)) = x at hcap ⊢
    rcases le_total c 10 with hsmall | hlarge
    · rw [max_eq_left (by linarith)] at hcap
      exact (min_le_left _ _).trans (by linarith)
    · rw [max_eq_right (by linarith)] at hcap
      exact (min_le_right _ _).trans (by linarith)

end Portfolio

end FlashEdge
