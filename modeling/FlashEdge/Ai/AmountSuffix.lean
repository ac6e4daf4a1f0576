import FlashEdge.Ai.Interpreter
import Mathlib.Data.List.TakeWhile
import Mathlib.Tactic.IntervalCases

/-!
# Amounts at the end of a command

A command that ends with a dollar amount still does after everything that is
rewritten before it is parsed, whatever templates, aliases and markets there are: no
expression that is replaced reads a dollar sign, ends with a space, or is made of the
characters of a number.
-/

namespace FlashEdge

namespace Interpreter

open Pattern

/-- The text of a number, behind a dollar sign and a space. -/
def EndsWithAmount (num t : List Char) : Prop := ∃ pre, t = pre ++ ' ' :: '$' :: num

/-- The text of a number. -/
structure IsAmount (num : List Char) : Prop where
  chars : ∀ c ∈ num, Decimal.IsNumberChar c
  last : Decimal.EndsInDigit num

theorem isAmount_print (n : Decimal) : IsAmount n.print :=
  ⟨Decimal.isNumberChar_print n, Decimal.endsInDigit_print n⟩

theorem EndsWithAmount.append {num t : List Char} (h : EndsWithAmount num t) (before : List Char) :
    EndsWithAmount num (before ++ t) := by
  obtain ⟨pre, rfl⟩ := h
  exact ⟨before ++ pre, (List.append_assoc _ _ _).symm⟩

/-! ## Characters -/

/-- The characters of a dollar amount with the space in front of it. -/
def amountChars : List Char := " $0123456789-+.e".toList

/-- A fact about every digit. -/
theorem forall_digit {P : Char → Prop} [DecidablePred P]
    (h : "0123456789".toList.all (fun c => decide (P c)) = true) {c : Char}
    (hc : c.isDigit = true) : P c := by
  suffices hmem : c ∈ "0123456789".toList from of_decide_eq_true (List.all_eq_true.mp h c hmem)
  simp only [Char.isDigit, Bool.and_eq_true, decide_eq_true_eq, ge_iff_le, UInt32.le_iff_toNat_le]
    at hc
  have hchar : c = Char.ofNat c.toNat := (Char.ofNat_toNat c).symm
  have hlow : 48 ≤ c.toNat := hc.1
  have hhigh : c.toNat ≤ 57 := hc.2
  rw [hchar]
  interval_cases c.toNat <;> decide

theorem mem_amountChars {c : Char} (hc : Decimal.IsNumberChar c) : c ∈ amountChars := by
  rcases hc with hc | rfl | rfl | rfl | rfl
  · exact forall_digit (P := fun c => c ∈ amountChars) (by decide) hc
  all_goals decide

theorem mem_amountChars_tail {num : List Char} (hnum : IsAmount num) :
    ∀ c ∈ ' ' :: '$' :: num, c ∈ amountChars := by
  intro c hc
  rcases List.mem_cons.mp hc with rfl | hc
  · decide
  rcases List.mem_cons.mp hc with rfl | hc
  · decide
  · exact mem_amountChars (hnum.chars c hc)

theorem isSpace_of_amount {num : List Char} (hnum : IsAmount num) :
    ∀ c ∈ num, isSpace c = false := by
  intro c hc
  rcases hnum.chars c hc with hd | rfl | rfl | rfl | rfl
  · exact forall_digit (P := fun c => isSpace c = false) (by decide) hd
  all_goals decide

theorem lowerCase_amount {num : List Char} (hnum : IsAmount num) : lowerCase num = num := by
  refine (List.map_congr_left fun c hc => ?_).trans (List.map_id num)
  rcases hnum.chars c hc with hd | rfl | rfl | rfl | rfl
  · exact forall_digit (P := fun c => c.toLower = c) (by decide) hd
  all_goals rfl

/-! ## Replacements -/

/-- The pattern does not touch an amount at the end of a text. -/
structure SparesAmounts (p : Pattern) : Prop where
  within : p.within amountChars = false
  space : p.lastAllows ' ' = false
  dollar : p.allows '$' = false

instance (p : Pattern) : Decidable (SparesAmounts p) :=
  decidable_of_iff (p.within amountChars = false ∧ p.lastAllows ' ' = false ∧
    p.allows '$' = false)
    ⟨fun h => ⟨h.1, h.2.1, h.2.2⟩, fun h => ⟨h.within, h.space, h.dollar⟩⟩

theorem EndsWithAmount.replaceAll {num t : List Char} (hnum : IsAmount num)
    (h : EndsWithAmount num t) {p : Pattern} (hp : SparesAmounts p) (f : Match → List Char) :
    EndsWithAmount num (p.replaceAll f t) := by
  obtain ⟨pre, rfl⟩ := h
  exact replaceAll_append f amountChars (mem_amountChars_tail hnum) hp.within hp.space hp.dollar pre

/-- A series of replacements. -/
theorem EndsWithAmount.foldl {num : List Char} (hnum : IsAmount num) {α : Type} (es : List α)
    (p : α → Pattern) (f : α → Match → List Char) (hp : ∀ e ∈ es, SparesAmounts (p e))
    {t : List Char} (h : EndsWithAmount num t) :
    EndsWithAmount num (es.foldl (fun result e => (p e).replaceAll (f e) result) t) := by
  induction es generalizing t with
  | nil => exact h
  | cons e es ih =>
    exact ih (fun d hd => hp d (List.mem_cons_of_mem e hd))
      (h.replaceAll hnum (hp e List.mem_cons_self) (f e))

/-- No rule of the normalization touches an amount at the end. -/
theorem sparesAmounts_rules :
    (∀ e ∈ knownAliases, SparesAmounts (multiWordAlias e.1) ∧ SparesAmounts (wordPattern e.1)) ∧
    (∀ e ∈ NUMBER_WORDS, SparesAmounts (wordPattern e.1.toList)) ∧
    SparesAmounts compoundNumber ∧
    SparesAmounts (multipliedNumber "hundred") ∧ SparesAmounts (multipliedNumber "thousand") := by
  decide +kernel

theorem EndsWithAmount.normalizeNumberWords {num t : List Char} (hnum : IsAmount num)
    (h : EndsWithAmount num t) : EndsWithAmount num (normalizeNumberWords t) := by
  obtain ⟨-, hwords, hcompound, hhundred, hthousand⟩ := sparesAmounts_rules
  have hmultiplied := ((h.replaceAll hnum hcompound compounded).replaceAll hnum hhundred
    (multiplied 100)).replaceAll hnum hthousand (multiplied 1000)
  unfold Interpreter.normalizeNumberWords
  dsimp only
  refine EndsWithAmount.foldl hnum _ (fun e : String × ℕ => wordPattern e.1.toList)
    (fun e _ => numberText e.2) (fun e he => ?_) hmultiplied
  exact hwords e (List.mem_filter.mp he).1

theorem mem_knownAliases {data : ParserData} {e : List Char × List Char}
    (he : e ∈ getMarketAliasMap data) : e ∈ knownAliases := by
  obtain ⟨symbol, -, he⟩ := List.mem_flatMap.mp he
  exact (List.mem_filter.mp he).1

theorem EndsWithAmount.normalizeAssetText {num t : List Char} (hnum : IsAmount num)
    (data : ParserData) (h : EndsWithAmount num t) :
    EndsWithAmount num (normalizeAssetText data t) := by
  unfold Interpreter.normalizeAssetText
  dsimp only
  refine EndsWithAmount.foldl hnum _ (fun e : List Char × List Char => wordPattern e.1)
    (fun e _ => lowerCase e.2) (fun e he => ?_) ?_
  · exact (sparesAmounts_rules.1 e (mem_knownAliases (List.mem_filter.mp he).1)).2
  · refine EndsWithAmount.foldl hnum _ (fun e : List Char × List Char => multiWordAlias e.1)
      (fun e _ => lowerCase e.2) (fun e he => ?_) h
    have hmem := (List.mem_insertionSort _).mp he
    exact (sparesAmounts_rules.1 e (mem_knownAliases (List.mem_filter.mp hmem).1)).1

/-! ## Shortcuts -/

theorem endsWithAmount_drop {num pre : List Char} {k : ℕ} (hk : k ≤ pre.length) :
    EndsWithAmount num ((pre ++ ' ' :: '$' :: num).drop k) :=
  ⟨pre.drop k, List.drop_append_of_le_length hk⟩

theorem EndsWithAmount.dropWhile {num t : List Char} (h : EndsWithAmount num t) {p : Char → Bool}
    (hp : p ' ' = false) : EndsWithAmount num (t.dropWhile p) := by
  obtain ⟨pre, rfl⟩ := h
  induction pre with
  | nil =>
    rw [List.nil_append, List.dropWhile_cons_of_neg (by rw [hp]; exact Bool.false_ne_true)]
    exact ⟨[], rfl⟩
  | cons c pre ih =>
    rw [List.cons_append]
    by_cases hc : p c = true
    · rw [List.dropWhile_cons_of_pos hc]
      exact ih
    · rw [List.dropWhile_cons_of_neg hc]
      exact ⟨c :: pre, rfl⟩

theorem EndsWithAmount.expandAliases {num t : List Char} (h : EndsWithAmount num t) :
    EndsWithAmount num (expandAliases t) := by
  unfold Interpreter.expandAliases
  dsimp only
  split
  · exact (h.dropWhile (by decide)).append _
  · exact h

/-- A prefix without a space ends before the amount. -/
theorem length_le_of_prefix {u pre rest : List Char} (hu : ' ' ∉ u)
    (hstart : u <+: pre ++ ' ' :: rest) : u.length ≤ pre.length := by
  by_contra hlong
  obtain ⟨v, hv⟩ : pre <+: u :=
    List.prefix_of_prefix_length_le ⟨_, rfl⟩ hstart (by omega)
  obtain ⟨w, hw⟩ := hstart
  rw [← hv, List.append_assoc, List.append_cancel_left_eq] at hw
  cases v with
  | nil =>
    rw [List.append_nil] at hv
    exact hlong (by rw [hv])
  | cons c v =>
    obtain ⟨rfl, -⟩ := List.cons.inj hw
    exact hu (by rw [← hv]; simp)

theorem space_notMem_shortcut {u : List Char} (hu : IsShortcut u) : ' ' ∉ u := by
  intro hmem
  rcases hu.2 _ hmem with h | h | h | h
  all_goals revert h; decide

theorem lowerCase_append (u v : List Char) : lowerCase (u ++ v) = lowerCase u ++ lowerCase v :=
  List.map_append

theorem lowerCase_tail {num : List Char} (hnum : IsAmount num) (pre : List Char) :
    lowerCase (pre ++ ' ' :: '$' :: num) = lowerCase pre ++ ' ' :: '$' :: num := by
  rw [lowerCase_append]
  show _ ++ ' ' :: '$' :: lowerCase num = _
  rw [lowerCase_amount hnum]

theorem EndsWithAmount.lowerCase {num t : List Char} (hnum : IsAmount num)
    (h : EndsWithAmount num t) : EndsWithAmount num (lowerCase t) := by
  obtain ⟨pre, rfl⟩ := h
  exact ⟨_, lowerCase_tail hnum pre⟩

theorem EndsWithAmount.expandLearnedAlias {num t : List Char} (hnum : IsAmount num)
    (data : ParserData) (h : EndsWithAmount num t) :
    EndsWithAmount num (expandLearnedAlias data t) := by
  obtain ⟨pre, rfl⟩ := h
  unfold Interpreter.expandLearnedAlias
  dsimp only
  split
  · next shortcut expansion hfound =>
    have hmem : (shortcut, expansion) ∈ data.learnedAliases :=
      (List.mem_insertionSort _).mp (List.mem_of_find?_eq_some hfound)
    have hspace := space_notMem_shortcut (data.shortcut _ hmem)
    have hstart : shortcut <+: Interpreter.lowerCase (pre ++ ' ' :: '$' :: num) := by
      have hfits := List.find?_some hfound
      rw [Bool.or_eq_true, decide_eq_true_eq, List.isPrefixOf_iff_prefix] at hfits
      rcases hfits with heq | hfits
      · rw [heq]
      · exact (List.prefix_append _ _).trans hfits
    rw [lowerCase_tail hnum] at hstart
    have hlen := length_le_of_prefix hspace hstart
    rw [Interpreter.lowerCase, List.length_map] at hlen
    exact (endsWithAmount_drop hlen).append _
  · exact ⟨pre, rfl⟩

/-- What ends with a character that is no space stays when spaces are cut off behind. -/
theorem reverse_dropWhile_reverse {v : List Char} {c : Char} (hc : isSpace c = false) :
    ((v ++ [c]).reverse.dropWhile isSpace).reverse = v ++ [c] := by
  rw [List.reverse_append, List.reverse_singleton, List.singleton_append,
    List.dropWhile_cons_of_neg (by rw [hc]; exact Bool.false_ne_true), List.reverse_cons,
    List.reverse_reverse]

/-- Trimming leaves the amount. -/
theorem trim_amount {num t : List Char} (hnum : IsAmount num) (h : EndsWithAmount num t) :
    trim t = '$' :: num ∨ EndsWithAmount num (trim t) := by
  have hcut : ∀ u, ((u ++ '$' :: num).reverse.dropWhile isSpace).reverse = u ++ '$' :: num := by
    intro u
    obtain ⟨v, c, hv, hc⟩ := (hnum.last.append ['$']).append u
    have hspace : isSpace c = false :=
      isSpace_of_amount ⟨fun d hd => .inl (List.mem_singleton.mp hd ▸ hc),
        Decimal.endsInDigit_of_all (List.cons_ne_nil c [])
          fun d hd => List.mem_singleton.mp hd ▸ hc⟩ c (List.mem_singleton_self c)
    show ((u ++ (['$'] ++ num)).reverse.dropWhile isSpace).reverse = u ++ (['$'] ++ num)
    rw [hv]
    exact reverse_dropWhile_reverse hspace
  obtain ⟨pre, rfl⟩ := h
  unfold trim
  induction pre with
  | nil =>
    left
    exact hcut []
  | cons c pre ih =>
    rw [List.cons_append]
    by_cases hc : isSpace c = true
    · rw [List.dropWhile_cons_of_pos hc]
      exact ih
    · rw [List.dropWhile_cons_of_neg hc]
      right
      have hcut := hcut (c :: pre ++ [' '])
      rw [List.append_assoc, List.singleton_append, List.cons_append] at hcut
      rw [hcut]
      exact ⟨c :: pre, rfl⟩

/-- What is cut off behind leaves a prefix. -/
theorem trim_starts {c : Char} (hc : isSpace c = false) (rest : List Char) :
    trim (c :: rest) <+: c :: rest := by
  unfold trim
  rw [List.dropWhile_cons_of_neg (by rw [hc]; exact Bool.false_ne_true)]
  have hsuffix := List.dropWhile_suffix (l := (c :: rest).reverse) isSpace
  rw [← List.reverse_prefix, List.reverse_reverse] at hsuffix
  exact hsuffix

/-- A template replaces the first word. -/
theorem EndsWithAmount.expandTemplate {num t : List Char} (hnum : IsAmount num)
    (data : ParserData) (h : EndsWithAmount num t) {c : Char} {rest : List Char}
    (ht : t = c :: rest) (hc : isSpace c.toLower = false) :
    EndsWithAmount num (expandTemplate data t) := by
  have hends := h
  obtain ⟨pre, hpre⟩ := h
  unfold Interpreter.expandTemplate
  dsimp only
  set firstToken := (trim (Interpreter.lowerCase t)).takeWhile fun c => !isSpace c
  have hspace : ' ' ∉ firstToken := by
    intro hmem
    have hsolid := List.mem_takeWhile_imp hmem
    revert hsolid
    decide
  have hstart : firstToken <+: Interpreter.lowerCase pre ++ ' ' :: '$' :: num := by
    rw [← lowerCase_tail hnum, ← hpre, ht]
    refine List.IsPrefix.trans ( List.takeWhile_prefix _) ?_
    rw [ht]
    exact trim_starts hc _
  have hlen := length_le_of_prefix hspace hstart
  rw [Interpreter.lowerCase, List.length_map] at hlen
  have hdrop : EndsWithAmount num (t.drop firstToken.length) := by
    rw [hpre]
    exact endsWithAmount_drop hlen
  split
  · next template _ =>
    split
    · exact hends
    rcases trim_amount hnum hdrop with hrest | hrest
    · rw [hrest, if_neg (List.cons_ne_nil _ _)]
      exact ⟨template, rfl⟩
    · split
      · next hnil =>
        obtain ⟨v, hv⟩ := hrest
        rw [hnil] at hv
        exact absurd hv.symm (List.append_ne_nil_of_right_ne_nil v (List.cons_ne_nil _ _))
      · exact (hrest.append [' ']).append template
  · exact hends

end Interpreter

end FlashEdge
