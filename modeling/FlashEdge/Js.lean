import Mathlib.Data.Rat.Defs
import Mathlib.Algebra.Order.Field.Rat
import Mathlib.Data.List.Infix
import Mathlib.Algebra.BigOperators.Group.List.Basic
import Mathlib.Data.Rat.Floor

/-!
# The runtime's strings and numbers

What the modelled code uses of the language: `toUpperCase`, `toLowerCase` and
`includes` on strings (symbols and messages are ASCII text), and numbers that
may fail to be finite. A finite number is exact here.
-/

namespace FlashEdge

/-- `s.toUpperCase()`. -/
def toUpperCase (s : String) : String := String.ofList (s.toList.map Char.toUpper)

/-- `s.toLowerCase()`. -/
def toLowerCase (s : String) : String := String.ofList (s.toList.map Char.toLower)

theorem toUpper_toUpper (c : Char) : c.toUpper.toUpper = c.toUpper := by
  unfold Char.toUpper
  by_cases h : c.val ≥ 'a'.val ∧ c.val ≤ 'z'.val
  · rw [dif_pos h, dif_neg]
    -- A lower-case letter is moved below the lower-case letters.
    rintro ⟨hagain, -⟩
    have hlow : 97 ≤ c.val.toNat := UInt32.le_iff_toNat_le.mp h.1
    have hhigh : c.val.toNat ≤ 122 := UInt32.le_iff_toNat_le.mp h.2
    have hmoved : 97 ≤ (c.val + ('A'.val - 'a'.val)).toNat := UInt32.le_iff_toNat_le.mp hagain
    rw [UInt32.toNat_add] at hmoved
    change 97 ≤ (c.val.toNat + 4294967264) % 4294967296 at hmoved
    omega
  · rw [dif_neg h, dif_neg h]

theorem toUpperCase_toUpperCase (s : String) : toUpperCase (toUpperCase s) = toUpperCase s := by
  unfold toUpperCase
  rw [String.toList_ofList, List.map_map]
  exact congrArg _ (List.map_congr_left fun c _ => toUpper_toUpper c)

/-- `s.includes(sub)`. -/
def includes (s sub : String) : Bool := decide (sub.toList <:+: s.toList)

/-- A number of the runtime. -/
inductive JsNumber where
  | finite (q : ℚ)
  | posInfinity
  | negInfinity
  | nan
deriving DecidableEq, Repr

namespace JsNumber

/-- `x > 0`; false for `NaN`. -/
def isPositive : JsNumber → Bool
  | finite q => decide (0 < q)
  | posInfinity => true
  | negInfinity => false
  | nan => false

/-- The value of a number for which `Number.isFinite(x) && x > 0` holds. -/
def finitePositive? : JsNumber → Option ℚ
  | finite q => if 0 < q then some q else none
  | _ => none

/-- `q <= x` for a finite `q`; false for `NaN`. -/
def geRat (q : ℚ) : JsNumber → Bool
  | finite r => decide (q ≤ r)
  | posInfinity => true
  | negInfinity => false
  | nan => false

/-- `q >= x` for a finite `q`; false for `NaN`. -/
def leRat (q : ℚ) : JsNumber → Bool
  | finite r => decide (r ≤ q)
  | posInfinity => false
  | negInfinity => true
  | nan => false

/-- `x < q` for a finite `q`; false for `NaN`. -/
def ltRat (q : ℚ) : JsNumber → Bool
  | finite r => decide (r < q)
  | posInfinity => false
  | negInfinity => true
  | nan => false

/-- `x > q` for a finite `q`; false for `NaN`. -/
def gtRat (q : ℚ) : JsNumber → Bool
  | finite r => decide (q < r)
  | posInfinity => true
  | negInfinity => false
  | nan => false

end JsNumber

/-- `enum TradeSide`. -/
inductive TradeSide where
  | Long
  | Short
deriving DecidableEq, Repr

/-- Positions go by market and side. -/
instance decidableMemKeys (key : String × TradeSide) (keys : List (String × TradeSide)) :
    Decidable (key ∈ keys) :=
  List.instDecidableMemOfLawfulBEq key keys

/-- The string a `TradeSide` is. -/
def TradeSide.value : TradeSide → String
  | .Long => "long"
  | .Short => "short"

/-!
## Arithmetic of the runtime's numbers

Sums, products and comparisons of numbers that may fail to be finite, by the rules of the
runtime: `NaN` absorbs, opposite infinities add up to `NaN`, zero times an infinity is `NaN`,
and no comparison with `NaN` holds. Finite numbers are exact, so sums may be reordered.
-/

namespace JsNumber

/-- `x + y`. -/
def add : JsNumber → JsNumber → JsNumber
  | finite p, finite q => finite (p + q)
  | nan, _ => nan
  | _, nan => nan
  | posInfinity, negInfinity => nan
  | negInfinity, posInfinity => nan
  | posInfinity, _ => posInfinity
  | negInfinity, _ => negInfinity
  | finite _, y => y

/-- `-x`. -/
def neg : JsNumber → JsNumber
  | finite q => finite (-q)
  | posInfinity => negInfinity
  | negInfinity => posInfinity
  | nan => nan

/-- `Math.sign(x)`, `0` for `NaN`. -/
def signum : JsNumber → ℤ
  | finite q => if 0 < q then 1 else if q < 0 then -1 else 0
  | posInfinity => 1
  | negInfinity => -1
  | nan => 0

/-- The infinity of that sign, `NaN` for `0`. -/
def infinityOf (sign : ℤ) : JsNumber :=
  if 0 < sign then posInfinity else if sign < 0 then negInfinity else nan

/-- `x * y`. -/
def mul : JsNumber → JsNumber → JsNumber
  | finite p, finite q => finite (p * q)
  | x, y => infinityOf (x.signum * y.signum)

/-- `x > y`. -/
def gt : JsNumber → JsNumber → Bool
  | finite p, finite q => decide (q < p)
  | finite _, negInfinity => true
  | posInfinity, finite _ => true
  | posInfinity, negInfinity => true
  | _, _ => false

/-- `Math.min(x, y)`. -/
def min : JsNumber → JsNumber → JsNumber
  | nan, _ => nan
  | _, nan => nan
  | x, y => if x.gt y then y else x

/-- `Math.max(x, y)`. -/
def max : JsNumber → JsNumber → JsNumber
  | nan, _ => nan
  | _, nan => nan
  | x, y => if x.gt y then x else y

/-- `x / y`; there is one zero here, and it divides like the positive one. -/
def div : JsNumber → JsNumber → JsNumber
  | finite p, finite q => if q = 0 then infinityOf (finite p).signum else finite (p / q)
  | finite _, posInfinity => finite 0
  | finite _, negInfinity => finite 0
  | x, finite q => infinityOf (x.signum * if q < 0 then -1 else 1)
  | _, _ => nan

/-- `Math.round(x)`: halves go up. -/
def round : JsNumber → JsNumber
  | finite q => finite ⌊q + 1 / 2⌋
  | x => x

/-- `x.toFixed(digits)`, for numbers below `1e21`. -/
def toFixed (digits : ℕ) : JsNumber → String
  | finite q =>
    let scaled := ⌊|q| * 10 ^ digits + 1 / 2⌋.toNat
    let fraction := toString (scaled % 10 ^ digits)
    (if q < 0 then "-" else "") ++ toString (scaled / 10 ^ digits) ++
      if digits = 0 then "" else
        "." ++ String.ofList (List.replicate (digits - fraction.length) '0') ++ fraction
  | posInfinity => "Infinity"
  | negInfinity => "-Infinity"
  | nan => "NaN"

/-- `Number.isFinite(x)`. -/
def isFinite : JsNumber → Bool
  | finite _ => true
  | _ => false

/-- `Number.isFinite(x) ? x : 0`. -/
def finiteOr0 : JsNumber → ℚ
  | finite q => q
  | _ => 0

instance : Zero JsNumber := ⟨finite 0⟩

instance : Add JsNumber := ⟨add⟩

instance : AddCommMonoid JsNumber where
  add_assoc x y z := by
    cases x <;> cases y <;> cases z <;> try rfl
    exact congrArg finite (add_assoc _ _ _)
  zero_add x := by
    cases x <;> try rfl
    exact congrArg finite (zero_add _)
  add_zero x := by
    cases x <;> try rfl
    exact congrArg finite (add_zero _)
  add_comm x y := by
    cases x <;> cases y <;> try rfl
    exact congrArg finite (add_comm _ _)
  nsmul := nsmulRec

instance : Mul JsNumber := ⟨mul⟩

instance : Sub JsNumber := ⟨fun x y => x + y.neg⟩

@[simp] theorem finite_add_finite (p q : ℚ) : finite p + finite q = finite (p + q) := rfl

@[simp] theorem finite_sub_finite (p q : ℚ) : finite p - finite q = finite (p - q) := by
  show finite (p + -q) = _
  rw [← sub_eq_add_neg]

@[simp] theorem finite_mul_finite (p q : ℚ) : finite p * finite q = finite (p * q) := rfl

@[simp] theorem finiteOr0_finite (q : ℚ) : (finite q).finiteOr0 = q := rfl

@[simp] theorem gt_finite_finite (p q : ℚ) : (finite p).gt (finite q) = decide (q < p) := rfl

@[simp] theorem finiteOr0_infinityOf (sign : ℤ) : (infinityOf sign).finiteOr0 = 0 := by
  unfold infinityOf
  split
  · rfl
  · split <;> rfl

/-- A product that is finite and not zero has finite factors. -/
theorem finite_of_mul {x y : JsNumber} (h : (x * y).finiteOr0 ≠ 0) :
    ∃ p q, x = finite p ∧ y = finite q := by
  have hmul : (∃ p q, x = finite p ∧ y = finite q) ∨
      x * y = infinityOf (x.signum * y.signum) := by
    cases x <;> cases y
    case finite.finite p q => exact .inl ⟨p, q, rfl, rfl⟩
    all_goals exact .inr rfl
  refine hmul.resolve_right fun hinfinite => h ?_
  rw [hinfinite, finiteOr0_infinityOf]

/-- What a larger finite addend does not lift over the limit, a smaller one does not. -/
theorem gt_add_eq_false {x limit : JsNumber} {p q : ℚ} (hpq : p ≤ q)
    (h : (x + finite q).gt limit = false) : (x + finite p).gt limit = false := by
  cases x with
  | finite r =>
    cases limit with
    | finite l =>
      rw [finite_add_finite, gt_finite_finite, decide_eq_false_iff_not, not_lt] at h ⊢
      exact (add_le_add_right hpq r).trans h
    | negInfinity => exact h
    | posInfinity => rfl
    | nan => rfl
  | posInfinity => exact h
  | negInfinity => exact h
  | nan => exact h

end JsNumber

end FlashEdge
