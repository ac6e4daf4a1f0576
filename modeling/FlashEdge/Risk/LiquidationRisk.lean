import Mathlib.Algebra.Order.Field.Basic
import Mathlib.Tactic.Positivity
import FlashEdge.Js

/-!
# The liquidation risk of a position (`risk/liquidation-risk.ts`)

The distance to liquidation is the price move that is left, in percent of the entry price:
positive on the safe side of the liquidation price, negative past it. The level of risk and
the message are read off the distance alone. Where one of the three prices is missing the
distance stays at its initial zero, which reads as a position past its liquidation price.

- `assessLiquidationRisk`: the assessment.
- `rank_levelOf_anti`: the ladder of thresholds, as a function of the distance.
- `faithful_iff`: for which positions the assessment says what it means.
-/

namespace FlashEdge

namespace LiquidationRisk

/-- What is read of a position. -/
structure Position where
  market : String
  side : TradeSide
  leverage : JsNumber
  entryPrice : JsNumber
  currentPrice : JsNumber
  markPrice : JsNumber
  liquidationPrice : JsNumber
deriving DecidableEq, Repr

inductive RiskLevel where
  | healthy
  | warning
  | critical
deriving DecidableEq, Repr

/-- The levels in order. -/
def RiskLevel.rank : RiskLevel → ℕ
  | healthy => 0
  | warning => 1
  | critical => 2

/-- The four messages, with the distance they print. -/
inductive Report where
  | past
  | close (distancePct : ℚ)
  | near (distancePct : ℚ)
  | safe (distancePct : ℚ)
deriving DecidableEq, Repr

structure RiskAssessment where
  market : String
  side : TradeSide
  leverage : JsNumber
  distanceToLiquidation : ℚ
  riskLevel : RiskLevel
  report : Report
deriving DecidableEq, Repr

namespace Position

/-- `currentPrice`, or `markPrice` where that is zero or missing. -/
def price? (position : Position) : Option ℚ :=
  (position.currentPrice.finitePositive?).or position.markPrice.finitePositive?

def curPrice (position : Position) : ℚ := position.price?.getD 0

def liqPrice (position : Position) : ℚ := position.liquidationPrice.finiteOr0

def entry (position : Position) : ℚ := position.entryPrice.finiteOr0

/-- The distance to liquidation, in percent of the entry price. -/
def distancePct (position : Position) : ℚ :=
  if 0 < position.curPrice ∧ 0 < position.liqPrice ∧ 0 < position.entry then
    match position.side with
    | .Long => (position.curPrice - position.liqPrice) / position.entry * 100
    | .Short => (position.liqPrice - position.curPrice) / position.entry * 100
  else 0

end Position

def levelOf (distancePct : ℚ) : RiskLevel :=
  if distancePct ≤ 0 then .critical
  else if distancePct < 5 then .critical
  else if distancePct < 15 then .warning
  else .healthy

def reportOf (distancePct : ℚ) : Report :=
  if distancePct ≤ 0 then .past
  else if distancePct < 5 then .close distancePct
  else if distancePct < 15 then .near distancePct
  else .safe distancePct

def assessLiquidationRisk (position : Position) : RiskAssessment where
  market := position.market
  side := position.side
  leverage := position.leverage
  distanceToLiquidation := position.distancePct
  riskLevel := levelOf position.distancePct
  report := reportOf position.distancePct

/-- The text of `message`. -/
def message (position : Position) : String :=
  let name := position.market ++ " " ++ position.side.value
  let liq := position.liquidationPrice.toFixed 2
  let percent := fun distancePct : ℚ => (JsNumber.finite distancePct).toFixed 1
  match (assessLiquidationRisk position).report with
  | .past => "CRITICAL: " ++ name ++ " is PAST liquidation price ($" ++ liq ++
      "). Position may already be liquidated."
  | .close d => "CRITICAL: " ++ name ++ " is only " ++ percent d ++ "% from liquidation at $" ++
      liq ++ ". Consider adding collateral or reducing position."
  | .near d => "WARNING: " ++ name ++ " is " ++ percent d ++ "% from liquidation at $" ++ liq ++
      ". Monitor closely."
  | .safe d => name ++ " is " ++ percent d ++ "% from liquidation. Position looks healthy."

def assessAllPositions (positions : List Position) : List RiskAssessment :=
  positions.map assessLiquidationRisk

/-! ### What the assessment means -/

/-- At the liquidation price or past it: below it for a long, above it for a short. -/
def AtOrBeyond : TradeSide → ℚ → ℚ → Prop
  | .Long, liq, price => price ≤ liq
  | .Short, liq, price => liq ≤ price

/-- The second price is at least as far on the safe side as the first. -/
def Further : TradeSide → ℚ → ℚ → Prop
  | .Long, price, price' => price ≤ price'
  | .Short, price, price' => price' ≤ price

instance (side : TradeSide) (liq price : ℚ) : Decidable (AtOrBeyond side liq price) :=
  match side with
  | .Long => inferInstanceAs (Decidable (price ≤ liq))
  | .Short => inferInstanceAs (Decidable (liq ≤ price))

/-- The position at another mark price. -/
def Position.marked (position : Position) (price : ℚ) : Position :=
  { position with currentPrice := .finite price, markPrice := .finite price }

/-- The liquidation price, where there is one: zero stands for none. -/
def Position.liquidation? (position : Position) : Option ℚ :=
  position.liquidationPrice.finitePositive?

/-- A report of a position past liquidation is about a price at or beyond a real liquidation
price, and a price further away neither shortens the distance nor raises the risk. -/
structure Faithful (position : Position) : Prop where
  past : (assessLiquidationRisk position).report = .past →
    ∃ price liq, position.price? = some price ∧ position.liquidation? = some liq ∧
      AtOrBeyond position.side liq price
  distance : ∀ price price', position.price? = some price → 0 < price' →
    Further position.side price price' →
      (assessLiquidationRisk position).distanceToLiquidation ≤
        (assessLiquidationRisk (position.marked price')).distanceToLiquidation
  level : ∀ price price', position.price? = some price → 0 < price' →
    Further position.side price price' →
      (assessLiquidationRisk (position.marked price')).riskLevel.rank ≤
        (assessLiquidationRisk position).riskLevel.rank

/-- There are a mark price and a liquidation price, and an entry price to measure by unless
the position is past liquidation anyway. -/
def Assessable (position : Position) : Prop :=
  ∃ price liq, position.price? = some price ∧ position.liquidation? = some liq ∧
    (0 < position.entry ∨ AtOrBeyond position.side liq price)

/-! ### The ladder -/

theorem reportOf_eq_past {distancePct : ℚ} : reportOf distancePct = .past ↔ distancePct ≤ 0 := by
  unfold reportOf
  constructor
  · intro h
    by_contra hpos
    rw [if_neg hpos] at h
    split at h
    · cases h
    · split at h <;> cases h
  · intro h
    rw [if_pos h]

/-- A longer distance is never a higher level of risk. -/
theorem rank_levelOf_anti {d d' : ℚ} (h : d ≤ d') : (levelOf d').rank ≤ (levelOf d).rank := by
  have hcritical : ∀ e : ℚ, e < 5 → levelOf e = .critical := by
    intro e he
    unfold levelOf
    rw [if_pos he, ite_self]
  have hmost : ∀ level : RiskLevel, level.rank ≤ 2 := by
    intro level
    cases level <;> decide
  by_cases hd : d < 5
  · rw [hcritical d hd]
    exact hmost _
  · have hd5 : 5 ≤ d := not_lt.mp hd
    have habove : ∀ e : ℚ, 5 ≤ e → levelOf e = if e < 15 then .warning else .healthy := by
      intro e he
      unfold levelOf
      rw [if_neg (not_le.mpr (lt_of_lt_of_le (by norm_num) he)), if_neg (not_lt.mpr he)]
    rw [habove d hd5, habove d' (hd5.trans h)]
    by_cases hd' : d' < 15
    · rw [if_pos hd', if_pos (lt_of_le_of_lt h hd')]
    · rw [if_neg hd']
      exact Nat.zero_le _

/-! ### The distance -/

section

variable {position : Position} {price liq : ℚ}

theorem finitePositive?_finite (q : ℚ) :
    (JsNumber.finite q).finitePositive? = if 0 < q then some q else none := rfl

theorem finitePositive?_pos {x : JsNumber} {q : ℚ} (h : x.finitePositive? = some q) :
    0 < q ∧ x = .finite q := by
  cases x with
  | finite r =>
    obtain ⟨hr, hq⟩ := Option.ite_none_right_eq_some.mp h
    obtain rfl := Option.some.inj hq
    exact ⟨hr, rfl⟩
  | _ => cases h

theorem finitePositive?_eq_none {x : JsNumber} (h : x.finitePositive? = none) :
    x.finiteOr0 ≤ 0 := by
  cases x with
  | finite r =>
    by_contra hr
    have hpos : 0 < r := not_le.mp hr
    rw [finitePositive?_finite, if_pos hpos] at h
    cases h
  | _ => exact le_refl _

theorem Position.curPrice_pos (h : position.price? = some price) :
    0 < price ∧ position.curPrice = price := by
  refine ⟨?_, by unfold Position.curPrice; rw [h, Option.getD_some]⟩
  obtain hcurrent | ⟨-, hmark⟩ := Option.or_eq_some_iff.mp h
  · exact (finitePositive?_pos hcurrent).1
  · exact (finitePositive?_pos hmark).1

theorem Position.price?_marked {price' : ℚ} (h : 0 < price') :
    (position.marked price').price? = some price' := by
  show ((JsNumber.finite price').finitePositive?).or _ = _
  rw [finitePositive?_finite, if_pos h, Option.some_or]

/-- Without a mark price the distance is zero. -/
theorem Position.distancePct_of_price?_eq_none (h : position.price? = none) :
    position.distancePct = 0 := by
  unfold Position.distancePct Position.curPrice
  rw [h, if_neg (fun hpos => lt_irrefl _ hpos.1)]

/-- Without a liquidation price the distance is zero. -/
theorem Position.distancePct_of_liquidation?_eq_none (h : position.liquidation? = none) :
    position.distancePct = 0 := by
  unfold Position.distancePct
  rw [if_neg (fun hpos => absurd hpos.2.1 (not_lt.mpr (finitePositive?_eq_none h)))]

/-- Without an entry price the distance is zero. -/
theorem Position.distancePct_of_entry (h : ¬ 0 < position.entry) : position.distancePct = 0 := by
  unfold Position.distancePct
  rw [if_neg (fun hpos => h hpos.2.2)]

/-- The signed room between a price and the liquidation price. -/
def room : TradeSide → ℚ → ℚ → ℚ
  | .Long, liq, price => price - liq
  | .Short, liq, price => liq - price

theorem room_nonpos {side : TradeSide} : room side liq price ≤ 0 ↔ AtOrBeyond side liq price := by
  cases side with
  | Long => exact sub_nonpos
  | Short => exact sub_nonpos

theorem room_mono {side : TradeSide} {price' : ℚ} (h : Further side price price') :
    room side liq price ≤ room side liq price' := by
  cases side with
  | Long => exact sub_le_sub_right h liq
  | Short => exact sub_le_sub_left h liq

/-- Where all three prices are there, the distance is the room in percent of the entry. -/
theorem Position.distancePct_eq (hprice : position.price? = some price)
    (hliq : position.liquidation? = some liq) (hentry : 0 < position.entry) :
    position.distancePct = room position.side liq price / position.entry * 100 := by
  obtain ⟨hpos, hcur⟩ := Position.curPrice_pos hprice
  obtain ⟨hliqpos, hfinite⟩ := finitePositive?_pos hliq
  have hliqPrice : position.liqPrice = liq := by
    unfold Position.liqPrice
    rw [hfinite, JsNumber.finiteOr0_finite]
  unfold Position.distancePct
  rw [hcur, hliqPrice, if_pos ⟨hpos, hliqpos, hentry⟩]
  cases position.side <;> rfl

/-- With an entry price, the distance is not positive exactly at or beyond liquidation. -/
theorem Position.distancePct_nonpos (hprice : position.price? = some price)
    (hliq : position.liquidation? = some liq) (hentry : 0 < position.entry) :
    position.distancePct ≤ 0 ↔ AtOrBeyond position.side liq price := by
  have hscale : (0 : ℚ) < 100 / position.entry := by positivity
  rw [Position.distancePct_eq hprice hliq hentry, div_mul_eq_mul_div, mul_div_assoc,
    ← room_nonpos, ← not_lt, ← not_lt, mul_pos_iff_of_pos_right hscale]

/-- A price further away does not shorten the distance, whichever prices are missing. -/
theorem Position.distancePct_mono {price' : ℚ} (hprice : position.price? = some price)
    (hpos : 0 < price') (hfurther : Further position.side price price') :
    position.distancePct ≤ (position.marked price').distancePct := by
  have hprice' : (position.marked price').price? = some price' := Position.price?_marked hpos
  cases hliq : position.liquidation? with
  | none =>
    have hliq' : (position.marked price').liquidation? = none := hliq
    rw [Position.distancePct_of_liquidation?_eq_none hliq,
      Position.distancePct_of_liquidation?_eq_none hliq']
  | some liq =>
    have hliq' : (position.marked price').liquidation? = some liq := hliq
    by_cases hentry : 0 < position.entry
    · have hentry' : 0 < (position.marked price').entry := hentry
      rw [Position.distancePct_eq hprice hliq hentry,
        Position.distancePct_eq hprice' hliq' hentry']
      have hroom : room position.side liq price ≤ room position.side liq price' :=
        room_mono hfurther
      exact mul_le_mul_of_nonneg_right (div_le_div_of_nonneg_right hroom hentry.le) (by norm_num)
    · have hentry' : ¬ 0 < (position.marked price').entry := hentry
      rw [Position.distancePct_of_entry hentry, Position.distancePct_of_entry hentry']

end

/-- A position is reported past liquidation exactly where its distance is not positive. -/
theorem report_eq_past {position : Position} :
    (assessLiquidationRisk position).report = .past ↔ position.distancePct ≤ 0 :=
  reportOf_eq_past

/-- Monotonicity holds of every position; what fails where a price is missing is the report. -/
theorem faithful_iff (position : Position) : Faithful position ↔ Assessable position := by
  constructor
  · intro hfaithful
    by_cases hpast : position.distancePct ≤ 0
    · obtain ⟨price, liq, hprice, hliq, hbeyond⟩ := hfaithful.past (report_eq_past.mpr hpast)
      exact ⟨price, liq, hprice, hliq, .inr hbeyond⟩
    · -- A positive distance was measured, so nothing was missing.
      have hne : position.distancePct ≠ 0 := fun h => hpast h.le
      obtain ⟨price, hprice⟩ := Option.ne_none_iff_exists'.mp
        (fun h => hne (Position.distancePct_of_price?_eq_none h))
      obtain ⟨liq, hliq⟩ := Option.ne_none_iff_exists'.mp
        (fun h => hne (Position.distancePct_of_liquidation?_eq_none h))
      exact ⟨price, liq, hprice, hliq,
        .inl (by_contra fun h => hne (Position.distancePct_of_entry h))⟩
  · rintro ⟨price, liq, hprice, hliq, hmeasured⟩
    refine ⟨fun hpast => ⟨price, liq, hprice, hliq, ?_⟩, ?_, ?_⟩
    · obtain hentry | hbeyond := hmeasured
      · exact (Position.distancePct_nonpos hprice hliq hentry).mp (report_eq_past.mp hpast)
      · exact hbeyond
    · intro _ _ hcurrent hpos hfurther
      exact Position.distancePct_mono hcurrent hpos hfurther
    · intro _ _ hcurrent hpos hfurther
      exact rank_levelOf_anti (Position.distancePct_mono hcurrent hpos hfurther)

/-- A long that no price liquidates, at a profit. -/
def unliquidatable : Position where
  market := "SOL"
  side := .Long
  leverage := .finite 1
  entryPrice := .finite 140
  currentPrice := .finite 150
  markPrice := .finite 150
  liquidationPrice := .finite 0

example : message unliquidatable =
    "CRITICAL: SOL long is PAST liquidation price ($0.00). Position may already be liquidated." := by
  decide +kernel

/-- It is reported as past its liquidation price. -/
theorem unliquidatable_reported_past : ¬ Faithful unliquidatable := by
  intro hfaithful
  obtain ⟨price, liq, -, hliq, -⟩ := hfaithful.past (report_eq_past.mpr (by decide +kernel))
  cases hliq

end LiquidationRisk

end FlashEdge
