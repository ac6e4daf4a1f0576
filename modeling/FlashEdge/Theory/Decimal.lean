import Mathlib.Data.Nat.Digits.Defs
import Mathlib.Data.Rat.Defs
import Mathlib.Algebra.Order.Field.Rat
import Mathlib.Tactic.Ring
import Mathlib.Tactic.NormNum

/-!
# Decimal numbers as text

A finite number of a language with binary floating point prints as the shortest
decimal that reads back as the same number. Here a number *is* that decimal: a sign,
its significant digits and an exponent of ten, in the one form without trailing
zeros. So every number prints, and reading is exact.

- `Decimal.ofScaled`: the decimal of a digit string and an exponent.
- `Decimal.print`: the text, in plain notation between `1e-6` and `1e21` and in
  exponent notation outside.
- `Decimal.read`: what a JSON number literal stands for, and `none` for anything
  else. `Decimal.read_print` is the round trip.
-/

namespace FlashEdge

/-- A decimal, `digits * 10 ^ exponent` or its negative. -/
structure Decimal where
  negative : Bool
  digits : ℕ
  exponent : ℤ
  zero : digits = 0 → negative = false ∧ exponent = 0
  normal : digits ≠ 0 → digits % 10 ≠ 0
deriving DecidableEq

namespace Decimal

@[ext] theorem ext {a b : Decimal} (hn : a.negative = b.negative) (hd : a.digits = b.digits)
    (he : a.exponent = b.exponent) : a = b := by
  cases a
  cases b
  simp_all

instance : Zero Decimal := ⟨⟨false, 0, 0, fun _ => ⟨rfl, rfl⟩, fun h => absurd rfl h⟩⟩

/-- The number. -/
def toRat (d : Decimal) : ℚ := (if d.negative then -1 else 1) * d.digits * 10 ^ d.exponent

/-! ## The normal form -/

/-- Move trailing zeros to the exponent. -/
def strip : ℕ → ℕ → ℤ → ℕ × ℤ
  | 0, n, e => (n, e)
  | fuel + 1, n, e => if n % 10 = 0 then strip fuel (n / 10) (e + 1) else (n, e)

/-- With enough fuel there are none left. -/
theorem strip_normal {fuel n : ℕ} (hn : n ≠ 0) (hfuel : n ≤ fuel) (e : ℤ) :
    (strip fuel n e).1 % 10 ≠ 0 := by
  induction fuel generalizing n e with
  | zero => omega
  | succ fuel ih =>
    unfold strip
    split
    · exact ih (by omega) (by omega) (e + 1)
    · assumption

/-- The decimal of `n * 10 ^ e`. -/
def ofScaled (negative : Bool) (n : ℕ) (e : ℤ) : Decimal :=
  if hn : n = 0 then 0
  else
    { negative
      digits := (strip n n e).1
      exponent := (strip n n e).2
      zero := fun h => absurd (by rw [h]) (strip_normal hn (le_refl n) e)
      normal := fun _ => strip_normal hn (le_refl n) e }

theorem strip_scaled {s fuel : ℕ} (hs : s % 10 ≠ 0) (k : ℕ) (hfuel : k ≤ fuel) (e : ℤ) :
    strip fuel (s * 10 ^ k) e = (s, e + k) := by
  induction k generalizing fuel e with
  | zero =>
    cases fuel with
    | zero => simp [strip]
    | succ fuel => simp [strip, hs]
  | succ k ih =>
    obtain ⟨fuel, rfl⟩ : ∃ f, fuel = f + 1 := ⟨fuel - 1, by omega⟩
    have hdiv : s * 10 ^ (k + 1) / 10 = s * 10 ^ k := by
      rw [pow_succ, ← mul_assoc]
      exact Nat.mul_div_cancel _ (by omega)
    have hmod : s * 10 ^ (k + 1) % 10 = 0 := by
      rw [pow_succ, ← mul_assoc]
      exact Nat.mul_mod_left _ _
    unfold strip
    rw [if_pos hmod, hdiv, ih (by omega)]
    push_cast
    ring_nf

/-- Reading digits with zeros behind them gives the decimal back. -/
theorem ofScaled_digits (d : Decimal) (k : ℕ) :
    ofScaled d.negative (d.digits * 10 ^ k) (d.exponent - k) = d := by
  by_cases hzero : d.digits = 0
  · obtain ⟨hn, he⟩ := d.zero hzero
    unfold ofScaled
    rw [dif_pos (by rw [hzero, zero_mul])]
    exact ext hn.symm hzero.symm he.symm
  · have hpos : 0 < 10 ^ k := by positivity
    have hle : k ≤ d.digits * 10 ^ k := by
      calc k ≤ 10 ^ k := (Nat.lt_pow_self (by norm_num)).le
        _ ≤ d.digits * 10 ^ k := Nat.le_mul_of_pos_left _ (by omega)
    have hstrip := strip_scaled (d.normal hzero) k hle (d.exponent - k)
    have hne : d.digits * 10 ^ k ≠ 0 := Nat.mul_ne_zero hzero hpos.ne'
    unfold ofScaled
    rw [dif_neg hne]
    apply ext
    · rfl
    · exact congrArg Prod.fst hstrip
    · exact (congrArg Prod.snd hstrip).trans (by ring)

/-! ## Printing -/

/-- The digits in exponent notation, with the exponent of the first one. -/
def printExponent (ds : List Char) (e : ℤ) : List Char :=
  (match ds with
    | d :: d' :: rest => d :: '.' :: d' :: rest
    | ds => ds) ++
    'e' :: (if e < 0 then '-' else '+') :: Nat.toDigits 10 e.natAbs

/-- A number without its sign, from its digits and its exponent. -/
def printAbs (ds : List Char) (e : ℤ) : List Char :=
  -- the decimal point stands after `n` digits
  let n := ds.length + e
  if 0 ≤ e ∧ n ≤ 21 then ds ++ List.replicate e.toNat '0'
  else if 0 < n ∧ n ≤ 21 then ds.take n.toNat ++ '.' :: ds.drop n.toNat
  else if -6 < n ∧ n ≤ 0 then '0' :: '.' :: (List.replicate (-n).toNat '0' ++ ds)
  else printExponent ds (n - 1)

/-- The text of a number. -/
def print (d : Decimal) : List Char :=
  (if d.negative then ['-'] else []) ++ printAbs (Nat.toDigits 10 d.digits) d.exponent

/-! ## Reading -/

/-- The digits after a point, if there is one, and what follows. -/
def readFraction : List Char → Option (List Char × List Char)
  | '.' :: rest =>
    if rest.takeWhile Char.isDigit = [] then none
    else some (rest.takeWhile Char.isDigit, rest.dropWhile Char.isDigit)
  | rest => some ([], rest)

/-- A nonempty string of digits. -/
def readDigits (ds : List Char) : Option ℕ :=
  if ds ≠ [] ∧ ds.all Char.isDigit then some (Nat.ofDigitChars 10 ds 0) else none

/-- The exponent, if there is one, and nothing else. -/
def readExponent : List Char → Option ℤ
  | [] => some 0
  | c :: rest =>
    if c = 'e' ∨ c = 'E' then
      match rest with
      | '-' :: ds => (readDigits ds).map fun n => -(n : ℤ)
      | '+' :: ds => (readDigits ds).map fun n => (n : ℤ)
      | ds => (readDigits ds).map fun n => (n : ℤ)
    else none

/-- A number literal without its sign. -/
def readAbs (negative : Bool) (l : List Char) : Option Decimal :=
  let int := l.takeWhile Char.isDigit
  -- no leading zeros
  if int = [] ∨ (int.head? = some '0' ∧ int ≠ ['0']) then none
  else
    match readFraction (l.dropWhile Char.isDigit) with
    | none => none
    | some (frac, rest) =>
      (readExponent rest).map fun e =>
        ofScaled negative (Nat.ofDigitChars 10 (int ++ frac) 0) (e - frac.length)

/-- A number literal. -/
def read : List Char → Option Decimal
  | '-' :: l => readAbs true l
  | l => readAbs false l

/-! ## The round trip -/

/-- The number of a nonzero digit string does not begin with a zero. -/
theorem head_toDigits {n : ℕ} (hn : n ≠ 0) : (Nat.toDigits 10 n).head? ≠ some '0' := by
  induction n using Nat.strong_induction_on with
  | _ n ih =>
    rw [Nat.toDigits_eq_if (by norm_num)]
    split
    · next hlt =>
      have hdigit : ∀ m, m < 10 → m ≠ 0 → Nat.digitChar m ≠ '0' := by decide
      simpa using hdigit n hlt hn
    · next hge =>
      have htail := ih (n / 10) (by omega) (by omega)
      cases hds : Nat.toDigits 10 (n / 10) with
      | nil => exact absurd hds Nat.toDigits_ne_nil
      | cons d ds =>
        rw [hds] at htail
        exact htail

theorem all_digits (n : ℕ) : ∀ c ∈ Nat.toDigits 10 n, c.isDigit = true :=
  fun _ hc => Nat.isDigit_of_mem_toDigits (by norm_num) (by norm_num) hc

/-- What follows a digit string does not go on with a digit. -/
def Stops (rest : List Char) : Prop := ∀ c ∈ rest.head?, c.isDigit = false

theorem takeWhile_digits {ds rest : List Char} (hds : ∀ c ∈ ds, c.isDigit = true)
    (hrest : Stops rest) : (ds ++ rest).takeWhile Char.isDigit = ds := by
  rw [List.takeWhile_append_of_pos hds]
  cases rest with
  | nil => simp
  | cons c rest => simp [hrest c rfl]

theorem dropWhile_digits {ds rest : List Char} (hds : ∀ c ∈ ds, c.isDigit = true)
    (hrest : Stops rest) : (ds ++ rest).dropWhile Char.isDigit = rest := by
  rw [List.dropWhile_append_of_pos hds]
  cases rest with
  | nil => rfl
  | cons c rest => simp [hrest c rfl]

/-- Digits before the point, a fraction and an exponent. -/
theorem readAbs_append (negative : Bool) {int frac rest rest' : List Char} {e : ℤ}
    (hint : ∀ c ∈ int, c.isDigit = true) (hne : int ≠ [])
    (hlead : int.head? ≠ some '0' ∨ int = ['0']) (hrest : Stops rest)
    (hfrac : readFraction rest = some (frac, rest')) (hexp : readExponent rest' = some e) :
    readAbs negative (int ++ rest) =
      some (ofScaled negative (Nat.ofDigitChars 10 (int ++ frac) 0) (e - frac.length)) := by
  have hlegal : ¬ (int = [] ∨ (int.head? = some '0' ∧ int ≠ ['0'])) := by
    rintro (hnil | ⟨hzero, hmore⟩)
    · exact hne hnil
    · exact hlead.elim (fun h => h hzero) hmore
  simp only [readAbs, takeWhile_digits hint hrest, dropWhile_digits hint hrest]
  rw [if_neg hlegal, hfrac]
  simp [hexp]

theorem readFraction_point {frac rest : List Char} (hfrac : ∀ c ∈ frac, c.isDigit = true)
    (hne : frac ≠ []) (hrest : Stops rest) :
    readFraction ('.' :: (frac ++ rest)) = some (frac, rest) := by
  simp only [readFraction, takeWhile_digits hfrac hrest, dropWhile_digits hfrac hrest]
  rw [if_neg hne]

theorem readFraction_exponent (rest : List Char) :
    readFraction ('e' :: rest) = some ([], 'e' :: rest) := by
  simp [readFraction]

theorem readDigits_toDigits (n : ℕ) : readDigits (Nat.toDigits 10 n) = some n := by
  have hall : (Nat.toDigits 10 n).all Char.isDigit = true := List.all_eq_true.mpr (all_digits n)
  simp [readDigits, hall]

theorem readExponent_print (e : ℤ) :
    readExponent ('e' :: (if e < 0 then '-' else '+') :: Nat.toDigits 10 e.natAbs) = some e := by
  by_cases hneg : e < 0
  · simp [readExponent, hneg, readDigits_toDigits, abs_of_neg hneg]
  · simp [readExponent, hneg, readDigits_toDigits, abs_of_nonneg (not_lt.mp hneg)]

theorem stops_nil : Stops [] := fun _ hc => by cases hc

theorem stops_cons {c : Char} (hc : c.isDigit = false) (rest : List Char) : Stops (c :: rest) := by
  intro d hd
  obtain rfl := Option.mem_some_iff.mp hd
  exact hc

section Forms

variable (negative : Bool) {n : ℕ} {e : ℤ}

/-- A whole number, without a point. -/
theorem readAbs_whole (hn : n ≠ 0 ∨ e = 0) (he : 0 ≤ e) :
    readAbs negative (Nat.toDigits 10 n ++ List.replicate e.toNat '0') =
      some (ofScaled negative (n * 10 ^ e.toNat) (e - e.toNat)) := by
  have hint : ∀ c ∈ Nat.toDigits 10 n ++ List.replicate e.toNat '0', c.isDigit = true := by
    intro c hc
    rcases List.mem_append.mp hc with hc | hc
    · exact all_digits n c hc
    · rw [List.eq_of_mem_replicate hc]
      rfl
  have hlead : (Nat.toDigits 10 n ++ List.replicate e.toNat '0').head? ≠ some '0' ∨
      Nat.toDigits 10 n ++ List.replicate e.toNat '0' = ['0'] := by
    by_cases hzero : n = 0
    · obtain rfl := hn.resolve_left (not_not.mpr hzero)
      right
      simp [hzero]
    · have hhead := head_toDigits hzero
      left
      cases hds : Nat.toDigits 10 n with
      | nil => exact absurd hds Nat.toDigits_ne_nil
      | cons d ds =>
        rw [hds] at hhead
        exact hhead
  have hread := readAbs_append negative hint (by simp) hlead stops_nil
    (show readFraction [] = some ([], []) from rfl) (show readExponent [] = some 0 from rfl)
  have hvalue : Nat.ofDigitChars 10 (Nat.toDigits 10 n ++ List.replicate e.toNat '0' ++ []) 0 =
      n * 10 ^ e.toNat := by
    rw [List.append_nil, Nat.ofDigitChars_append, Nat.ofDigitChars_replicate_zero,
      Nat.ofDigitChars_ten_toDigits, mul_comm]
  have hexp : (0 : ℤ) - ([] : List Char).length = e - e.toNat := by
    simp
    omega
  rw [hvalue, hexp, List.append_nil] at hread
  exact hread

/-- The point between the digits. -/
theorem readAbs_point (hn : n ≠ 0) {k : ℕ} (hk : 0 < k)
    (hlen : (Nat.toDigits 10 n).length = k + (-e).toNat) (he : e < 0) :
    readAbs negative
        ((Nat.toDigits 10 n).take k ++ '.' :: (Nat.toDigits 10 n).drop k) =
      some (ofScaled negative n e) := by
  have hdigits : ∀ c ∈ (Nat.toDigits 10 n).take k, c.isDigit = true :=
    fun c hc => all_digits n c (List.mem_of_mem_take hc)
  have hfrac : ∀ c ∈ (Nat.toDigits 10 n).drop k, c.isDigit = true :=
    fun c hc => all_digits n c (List.mem_of_mem_drop hc)
  have hdrop : (Nat.toDigits 10 n).drop k ≠ [] := by
    rw [Ne, List.drop_eq_nil_iff]
    omega
  have htake : (Nat.toDigits 10 n).take k ≠ [] := by
    rw [Ne, List.take_eq_nil_iff]
    simp
    omega
  have hlead : ((Nat.toDigits 10 n).take k).head? ≠ some '0' := by
    rw [List.head?_take, if_neg (by omega)]
    exact head_toDigits hn
  have hread := readAbs_append negative hdigits htake (.inl hlead) (stops_cons rfl _)
    (by simpa using readFraction_point hfrac hdrop stops_nil)
    (show readExponent [] = some 0 from rfl)
  rw [List.take_append_drop, Nat.ofDigitChars_ten_toDigits, List.length_drop] at hread
  rw [hread]
  congr 2
  omega

/-- Zeros between the point and the digits. -/
theorem readAbs_small {k : ℕ} (hlen : ((Nat.toDigits 10 n).length : ℤ) + e = -k) :
    readAbs negative ('0' :: '.' :: (List.replicate k '0' ++ Nat.toDigits 10 n)) =
      some (ofScaled negative n e) := by
  have hfrac : ∀ c ∈ List.replicate k '0' ++ Nat.toDigits 10 n, c.isDigit = true := by
    intro c hc
    rcases List.mem_append.mp hc with hc | hc
    · rw [List.eq_of_mem_replicate hc]
      rfl
    · exact all_digits n c hc
  have hzero : ∀ c ∈ ['0'], c.isDigit = true := by
    intro c hc
    rw [List.mem_singleton.mp hc]
    rfl
  have hread := readAbs_append negative hzero (by simp) (.inr rfl)
    (stops_cons rfl _) (by simpa using readFraction_point hfrac (by simp) stops_nil)
    (show readExponent [] = some 0 from rfl)
  have hvalue : Nat.ofDigitChars 10 (['0'] ++ (List.replicate k '0' ++ Nat.toDigits 10 n)) 0 =
      n := by
    rw [← List.append_assoc, Nat.ofDigitChars_append,
      show ['0'] ++ List.replicate k '0' = List.replicate (k + 1) '0' from rfl,
      Nat.ofDigitChars_replicate_zero, mul_zero, Nat.ofDigitChars_ten_toDigits]
  rw [hvalue, List.length_append, List.length_replicate] at hread
  have hexp : (0 : ℤ) - ((k + (Nat.toDigits 10 n).length : ℕ) : ℤ) = e := by
    push_cast
    omega
  rw [hexp] at hread
  exact hread

/-- Exponent notation. -/
theorem readAbs_exponent (hn : n ≠ 0) :
    readAbs negative
        (printExponent (Nat.toDigits 10 n) ((Nat.toDigits 10 n).length + e - 1)) =
      some (ofScaled negative n e) := by
  have hhead := head_toDigits hn
  have hall := all_digits n
  have hvalue := Nat.ofDigitChars_ten_toDigits (n := n)
  have hexp := readExponent_print ((Nat.toDigits 10 n).length + e - 1)
  cases hds : Nat.toDigits 10 n with
  | nil => exact absurd hds Nat.toDigits_ne_nil
  | cons d ds =>
    rw [hds] at hhead hall hvalue hexp
    have hd : ∀ c ∈ [d], c.isDigit = true := by
      intro c hc
      exact hall c (by simpa using .inl (List.mem_singleton.mp hc))
    have hlead : [d].head? ≠ some '0' := hhead
    cases ds with
    | nil =>
      have hread := readAbs_append negative hd (by simp) (.inl hlead) (stops_cons rfl _)
        (readFraction_exponent _) hexp
      rw [List.append_nil, hvalue] at hread
      refine Eq.trans hread ?_
      congr 2
      simp
    | cons d' rest =>
      have hfrac : ∀ c ∈ d' :: rest, c.isDigit = true :=
        fun c hc => hall c (List.mem_cons_of_mem _ hc)
      have hread := readAbs_append negative hd (by simp) (.inl hlead) (stops_cons rfl _)
        (readFraction_point hfrac (by simp) (stops_cons rfl _)) hexp
      rw [show [d] ++ d' :: rest = d :: d' :: rest from rfl, hvalue] at hread
      refine Eq.trans hread ?_
      congr 2
      simp
      omega

end Forms

/-- What is printed of the digits is read as the same number. -/
theorem readAbs_printAbs (negative : Bool) {n : ℕ} {e : ℤ} (hn : n ≠ 0 ∨ e = 0) :
    ∃ k : ℕ, readAbs negative (printAbs (Nat.toDigits 10 n) e) =
      some (ofScaled negative (n * 10 ^ k) (e - k)) := by
  unfold printAbs
  dsimp only
  split
  · next hwhole => exact ⟨e.toNat, readAbs_whole negative hn hwhole.1⟩
  have hlen := Nat.length_toDigits_pos (b := 10) (n := n)
  refine ⟨0, ?_⟩
  rw [pow_zero, mul_one, Nat.cast_zero, sub_zero]
  split
  · next hwhole hpoint =>
    have hneg : e < 0 := by omega
    exact readAbs_point negative (hn.resolve_right (by omega)) (by omega) (by omega) hneg
  split
  · next hsmall => exact readAbs_small negative (by omega)
  · next hwhole _ hsmall =>
    by_cases hzero : n = 0
    · obtain rfl := hn.resolve_left (not_not.mpr hzero)
      subst hzero
      exact absurd ⟨le_refl 0, by simp⟩ hwhole
    · exact readAbs_exponent negative hzero

/-- A minus sign is no digit. -/
theorem readAbs_minus (negative : Bool) (l : List Char) : readAbs negative ('-' :: l) = none := by
  unfold readAbs
  exact if_pos (.inl rfl)

/-- **Round trip.** A printed number reads as itself. -/
theorem read_print (d : Decimal) : read d.print = some d := by
  have hn : d.digits ≠ 0 ∨ d.exponent = 0 := by
    by_cases hzero : d.digits = 0
    · exact .inr (d.zero hzero).2
    · exact .inl hzero
  obtain ⟨k, hread⟩ := readAbs_printAbs d.negative hn
  rw [ofScaled_digits] at hread
  unfold print
  cases hsign : d.negative with
  | true =>
    rw [hsign] at hread
    exact hread
  | false =>
    rw [hsign] at hread
    show read (printAbs (Nat.toDigits 10 d.digits) d.exponent) = some d
    unfold read
    split
    · next l hl =>
      rw [hl, readAbs_minus] at hread
      cases hread
    · exact hread

/-! ## The characters of a number -/

/-- A character of a printed number. -/
def IsNumberChar (c : Char) : Prop := c.isDigit = true ∨ c = '-' ∨ c = '+' ∨ c = '.' ∨ c = 'e'

theorem isNumberChar_printExponent {ds : List Char} (hds : ∀ c ∈ ds, c.isDigit = true) (e : ℤ) :
    ∀ c ∈ printExponent ds e, IsNumberChar c := by
  intro c hc
  rcases List.mem_append.mp hc with hc | hc
  · split at hc
    · next d d' rest =>
      rcases List.mem_cons.mp hc with rfl | hc
      · exact .inl (hds c List.mem_cons_self)
      rcases List.mem_cons.mp hc with rfl | hc
      · exact .inr (.inr (.inr (.inl rfl)))
      · exact .inl (hds c (List.mem_cons_of_mem _ hc))
    · exact .inl (hds c hc)
  rcases List.mem_cons.mp hc with rfl | hc
  · exact .inr (.inr (.inr (.inr rfl)))
  rcases List.mem_cons.mp hc with rfl | hc
  · split
    · exact .inr (.inl rfl)
    · exact .inr (.inr (.inl rfl))
  · exact .inl (all_digits _ c hc)

theorem isNumberChar_printAbs {ds : List Char} (hds : ∀ c ∈ ds, c.isDigit = true) (e : ℤ) :
    ∀ c ∈ printAbs ds e, IsNumberChar c := by
  intro c hc
  unfold printAbs at hc
  dsimp only at hc
  have hzero : ∀ k, c ∈ List.replicate k '0' → IsNumberChar c := by
    intro k hk
    rw [List.eq_of_mem_replicate hk]
    exact .inl rfl
  split at hc
  · rcases List.mem_append.mp hc with hc | hc
    · exact .inl (hds c hc)
    · exact hzero _ hc
  split at hc
  · rcases List.mem_append.mp hc with hc | hc
    · exact .inl (hds c (List.mem_of_mem_take hc))
    rcases List.mem_cons.mp hc with rfl | hc
    · exact .inr (.inr (.inr (.inl rfl)))
    · exact .inl (hds c (List.mem_of_mem_drop hc))
  split at hc
  · rcases List.mem_cons.mp hc with rfl | hc
    · exact .inl rfl
    rcases List.mem_cons.mp hc with rfl | hc
    · exact .inr (.inr (.inr (.inl rfl)))
    rcases List.mem_append.mp hc with hc | hc
    · exact hzero _ hc
    · exact .inl (hds c hc)
  · exact isNumberChar_printExponent hds _ c hc

theorem isNumberChar_print (d : Decimal) : ∀ c ∈ d.print, IsNumberChar c := by
  intro c hc
  rcases List.mem_append.mp hc with hc | hc
  · split at hc
    · rw [List.mem_singleton.mp hc]
      exact .inr (.inl rfl)
    · cases hc
  · exact isNumberChar_printAbs (all_digits d.digits) _ c hc

/-- A text that ends with a digit. -/
def EndsInDigit (l : List Char) : Prop := ∃ v c, l = v ++ [c] ∧ c.isDigit = true

theorem endsInDigit_of_all {l : List Char} (hne : l ≠ []) (hl : ∀ c ∈ l, c.isDigit = true) :
    EndsInDigit l := by
  refine ⟨l.dropLast, l.getLast hne, (List.dropLast_concat_getLast hne).symm, ?_⟩
  exact hl _ (List.getLast_mem hne)

theorem EndsInDigit.append {l : List Char} (hl : EndsInDigit l) (before : List Char) :
    EndsInDigit (before ++ l) := by
  obtain ⟨v, c, rfl, hc⟩ := hl
  exact ⟨before ++ v, c, (List.append_assoc before v [c]).symm, hc⟩

theorem endsInDigit_toDigits (n : ℕ) : EndsInDigit (Nat.toDigits 10 n) :=
  endsInDigit_of_all Nat.toDigits_ne_nil (all_digits n)

theorem endsInDigit_printAbs {ds : List Char} (hne : ds ≠ []) (hds : ∀ c ∈ ds, c.isDigit = true)
    (e : ℤ) : EndsInDigit (printAbs ds e) := by
  unfold printAbs
  dsimp only
  split
  · refine endsInDigit_of_all (List.append_ne_nil_of_left_ne_nil hne _) fun c hc => ?_
    rcases List.mem_append.mp hc with hc | hc
    · exact hds c hc
    · rw [List.eq_of_mem_replicate hc]
      rfl
  split
  · -- there are digits behind the point
    have hrest : ds.drop (ds.length + e).toNat ≠ [] := by
      rw [Ne, List.drop_eq_nil_iff]
      omega
    have hdigits := endsInDigit_of_all hrest fun c hc => hds c (List.mem_of_mem_drop hc)
    exact (hdigits.append ['.']).append _
  split
  · exact (endsInDigit_of_all hne hds).append ('0' :: '.' :: _)
  · exact ((endsInDigit_toDigits _).append ['e', _]).append _

/-- The text of a number ends with a digit. -/
theorem endsInDigit_print (d : Decimal) : EndsInDigit d.print :=
  (endsInDigit_printAbs Nat.toDigits_ne_nil (all_digits d.digits) d.exponent).append _

/-- A literal that reads begins with a digit, or a minus sign. -/
theorem head_of_read {l : List Char} {d : Decimal} (hl : read l = some d) :
    ∃ c rest, l = c :: rest ∧ (c.isDigit = true ∨ c = '-') := by
  unfold read at hl
  split at hl
  · exact ⟨_, _, rfl, .inr rfl⟩
  · cases l with
    | nil => cases hl
    | cons c rest =>
      refine ⟨c, rest, rfl, .inl ?_⟩
      by_contra hc
      have hnone : readAbs false (c :: rest) = none := by
        unfold readAbs
        exact if_pos (.inl (by simp [hc]))
      rw [hnone] at hl
      cases hl

end Decimal

/-!
## Differences of decimals

The difference of two decimals is a decimal: both are written with the smaller of the two
exponents.
-/

namespace Decimal

/-- The signed digits at an exponent that is not larger than the decimal's own. -/
def scaled (d : Decimal) (e : ℤ) : ℤ :=
  (if d.negative then -1 else 1) * d.digits * 10 ^ (d.exponent - e).toNat

/-- `a - b`. -/
def sub (a b : Decimal) : Decimal :=
  let e := min a.exponent b.exponent
  let n := a.scaled e - b.scaled e
  ofScaled (decide (n < 0)) n.natAbs e

/-- Moving zeros to the exponent does not change the number. -/
theorem strip_value (fuel n : ℕ) (e : ℤ) :
    ((strip fuel n e).1 : ℚ) * 10 ^ (strip fuel n e).2 = n * 10 ^ e := by
  induction fuel generalizing n e with
  | zero => rfl
  | succ fuel ih =>
    unfold strip
    split
    · next hzero =>
      have hn : n = n / 10 * 10 := (Nat.div_mul_cancel (Nat.dvd_of_mod_eq_zero hzero)).symm
      rw [ih, zpow_add₀ (by norm_num), zpow_one]
      nth_rewrite 2 [hn]
      push_cast
      ring
    · rfl

theorem toRat_ofScaled (negative : Bool) (n : ℕ) (e : ℤ) :
    (ofScaled negative n e).toRat = (if negative then -1 else 1) * n * 10 ^ e := by
  unfold ofScaled
  split
  · next hn =>
    rw [hn, Nat.cast_zero, mul_zero, zero_mul]
    show (1 : ℚ) * (0 : ℕ) * 10 ^ (0 : ℤ) = 0
    norm_num
  · unfold toRat
    dsimp only
    rw [mul_assoc, strip_value, mul_assoc]

theorem scaled_eq {d : Decimal} {e : ℤ} (he : e ≤ d.exponent) :
    (d.scaled e : ℚ) * 10 ^ e = d.toRat := by
  have hexp : d.exponent = ((d.exponent - e).toNat : ℤ) + e := by omega
  unfold scaled toRat
  nth_rewrite 2 [hexp]
  rw [zpow_add₀ (by norm_num), zpow_natCast]
  split <;>
  · push_cast
    ring

theorem toRat_sub (a b : Decimal) : (a.sub b).toRat = a.toRat - b.toRat := by
  unfold sub
  dsimp only
  rw [toRat_ofScaled, ← scaled_eq (min_le_left a.exponent b.exponent),
    ← scaled_eq (min_le_right a.exponent b.exponent), ← sub_mul]
  generalize min a.exponent b.exponent = e
  congr 1
  rw [← Int.cast_sub]
  generalize a.scaled e - b.scaled e = n
  by_cases hn : n < 0
  · have habs : (n.natAbs : ℤ) = -n := by omega
    rw [decide_eq_true hn, if_pos rfl, ← Int.cast_natCast, habs]
    push_cast
    ring
  · have habs : (n.natAbs : ℤ) = n := by omega
    rw [decide_eq_false hn, if_neg Bool.false_ne_true, ← Int.cast_natCast, habs, one_mul]

end Decimal

end FlashEdge
