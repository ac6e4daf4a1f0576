import FlashEdge.Ai.AmountSuffix

/-!
# The words of a command

A command that joins words by one space each passes the clean-up of the input as it
is, and a dollar amount that is its last word is still the last word of the text that
the expressions see. An amount is not the name of a pool, so the commands for pools
see the whole text.
-/

namespace FlashEdge

namespace Interpreter

open Pattern

/-! ## Words -/

/-- A word of characters that can be seen. -/
def IsVisible (w : List Char) : Prop := w ≠ [] ∧ ∀ c ∈ w, 33 ≤ c.toNat ∧ c.toNat ≤ 126

theorem isSpace_visible {c : Char} (hc : 33 ≤ c.toNat ∧ c.toNat ≤ 126) : isSpace c = false := by
  have hne : c ≠ ' ' := by
    rintro rfl
    exact absurd hc.1 (by decide)
  simp only [isSpace, Bool.or_eq_false_iff, Bool.and_eq_false_iff, decide_eq_false_iff_not]
  refine ⟨⟨⟨⟨⟨⟨⟨⟨⟨⟨.inr ?_, hne⟩, ?_⟩, ?_⟩, .inl ?_⟩, ?_⟩, ?_⟩, ?_⟩, ?_⟩, ?_⟩, ?_⟩
  all_goals omega

instance (w : List Char) : Decidable (IsVisible w) :=
  decidable_of_iff (w ≠ [] ∧ w.all (fun c => 33 ≤ c.toNat && c.toNat ≤ 126) = true) (by
    simp [IsVisible])

theorem isVisible_amount {num : List Char} (hnum : IsAmount num) : IsVisible ('$' :: num) := by
  refine ⟨List.cons_ne_nil _ _, fun c hc => ?_⟩
  rcases List.mem_cons.mp hc with rfl | hc
  · decide
  rcases hnum.chars c hc with hd | rfl | rfl | rfl | rfl
  · exact forall_digit (P := fun c => 33 ≤ c.toNat ∧ c.toNat ≤ 126) (by decide) hd
  all_goals decide

theorem toNat_alphanum {c : Char} (hc : c.isAlphanum = true) : 48 ≤ c.toNat ∧ c.toNat ≤ 122 := by
  have hcases : (decide (c.val ≥ 'A'.val ∧ c.val ≤ 'Z'.val) ||
      (decide (c.val ≥ 'a'.val) && decide (c.val ≤ 'z'.val)) ||
      (decide (c.val ≥ '0'.val) && decide (c.val ≤ '9'.val))) = true := hc
  simp only [Bool.or_eq_true, Bool.and_eq_true, decide_eq_true_eq, ge_iff_le,
    UInt32.le_iff_toNat_le] at hcases
  have hdigits : '0'.val.toNat = 48 ∧ '9'.val.toNat = 57 := by decide
  have hupper : 'A'.val.toNat = 65 ∧ 'Z'.val.toNat = 90 := by decide
  have hlower : 'a'.val.toNat = 97 ∧ 'z'.val.toNat = 122 := by decide
  show 48 ≤ c.val.toNat ∧ c.val.toNat ≤ 122
  omega

theorem isVisible_name {t : List Char} (ht : IsName t) : IsVisible t := by
  refine ⟨ht.1, fun c hc => ?_⟩
  rcases ht.2 c hc with halnum | rfl
  · have hrange := toNat_alphanum halnum
    omega
  · decide

theorem joinWords_cons (w v : List Char) (ws : List (List Char)) :
    joinWords (w :: v :: ws) = w ++ ' ' :: joinWords (v :: ws) := rfl

theorem joinWords_singleton (w : List Char) : joinWords [w] = w := List.append_nil w

theorem joinWords_append (w v : List Char) (ws : List (List Char)) :
    ∃ pre, joinWords (w :: ws ++ [v]) = pre ++ ' ' :: v := by
  induction ws generalizing w with
  | nil => exact ⟨w, by rw [List.cons_append, List.nil_append, joinWords_cons, joinWords_singleton]⟩
  | cons u ws ih =>
    obtain ⟨pre, hpre⟩ := ih u
    refine ⟨w ++ ' ' :: pre, ?_⟩
    rw [List.cons_append, List.cons_append, joinWords_cons, ← List.cons_append, hpre,
      List.append_assoc, List.cons_append]

/-- A text of words begins as its first word does. -/
theorem head_joinWords {w : List Char} (hw : IsVisible w) (ws : List (List Char)) :
    ∃ c rest, joinWords (w :: ws) = c :: rest ∧ w.head? = some c ∧ isSpace c = false := by
  obtain ⟨hne, hchars⟩ := hw
  cases w with
  | nil => exact absurd rfl hne
  | cons c w =>
    have hc := isSpace_visible (hchars c List.mem_cons_self)
    cases ws with
    | nil => exact ⟨c, w, joinWords_singleton _, rfl, hc⟩
    | cons v ws => exact ⟨c, w ++ ' ' :: joinWords (v :: ws), joinWords_cons _ _ _, rfl, hc⟩

/-- A visible word is no space. -/
theorem replaceFrom_spaces_word {w : List Char} (hw : ∀ c ∈ w, isSpace c = false)
    (f : Match → List Char) (before rest : List Char) :
    spaces.replaceFrom f before 0 (w ++ rest) =
      w ++ spaces.replaceFrom f (w.reverse ++ before) 0 rest := by
  induction w generalizing before with
  | nil => rfl
  | cons c w ih =>
    have hnone : spaces.results { before, after := c :: (w ++ rest) } = [] := by
      simp [spaces, many1, results, hw c List.mem_cons_self]
    rw [List.cons_append, replaceFrom, hnone]
    dsimp only
    rw [ih fun d hd => hw d (List.mem_cons_of_mem c hd), List.reverse_cons, List.append_assoc]
    rfl

/-- One space is found as it is. -/
theorem replaceFrom_spaces_space {c : Char} (hc : isSpace c = false) (before rest : List Char) :
    spaces.replaceFrom (fun _ => [' ']) before 0 (' ' :: c :: rest) =
      ' ' :: spaces.replaceFrom (fun _ => [' ']) (' ' :: before) 0 (c :: rest) := by
  have hone : spaces.results { before, after := ' ' :: c :: rest } =
      [{ before := ' ' :: before, after := c :: rest }] := by
    simp [spaces, many1, results, spans, hc, show isSpace ' ' = true from by decide]
  have hlen : (toMatch { before, after := ' ' :: c :: rest }
      { before := ' ' :: before, after := c :: rest }).matched.length - 1 = 0 := by
    simp [toMatch]
  rw [replaceFrom, hone]
  dsimp only
  rw [hlen]
  rfl

theorem collapse_joinWords {ws : List (List Char)} (hws : ∀ w ∈ ws, IsVisible w)
    (before : List Char) :
    spaces.replaceFrom (fun _ => [' ']) before 0 (joinWords ws) = joinWords ws := by
  have hword : ∀ w ∈ ws, ∀ c ∈ w, isSpace c = false :=
    fun w hw c hc => isSpace_visible ((hws w hw).2 c hc)
  induction ws generalizing before with
  | nil => rfl
  | cons w ws ih =>
    have ih := ih (fun v hv => hws v (List.mem_cons_of_mem w hv))
    cases ws with
    | nil =>
      have hkeep := replaceFrom_spaces_word (hword w List.mem_cons_self) (fun _ => [' ']) before []
      rw [List.append_nil] at hkeep
      rw [joinWords_singleton, hkeep]
      exact List.append_nil w
    | cons v ws =>
      obtain ⟨c, rest, hhead, -, hc⟩ :=
        head_joinWords (hws v (List.mem_cons_of_mem w List.mem_cons_self)) ws
      rw [joinWords_cons, replaceFrom_spaces_word (hword w List.mem_cons_self), hhead,
        replaceFrom_spaces_space hc, ← hhead,
        ih _ (fun u hu => hword u (List.mem_cons_of_mem w hu))]

/-- What stands in the words and between them. -/
theorem mem_joinWords {ws : List (List Char)} {c : Char} (hc : c ∈ joinWords ws) :
    c = ' ' ∨ ∃ w ∈ ws, c ∈ w := by
  induction ws with
  | nil => cases hc
  | cons w ws ih =>
    cases ws with
    | nil =>
      rw [joinWords_singleton] at hc
      exact .inr ⟨w, List.mem_cons_self, hc⟩
    | cons v ws =>
      rw [joinWords_cons] at hc
      rcases List.mem_append.mp hc with hc | hc
      · exact .inr ⟨w, List.mem_cons_self, hc⟩
      rcases List.mem_cons.mp hc with rfl | hc
      · exact .inl rfl
      rcases ih hc with hspace | ⟨u, hu, hcu⟩
      · exact .inl hspace
      · exact .inr ⟨u, List.mem_cons_of_mem w hu, hcu⟩

/-- A text that begins and ends with a character that is no space. -/
theorem trim_eq_self {t v : List Char} {c d : Char} {rest : List Char} (hhead : t = c :: rest)
    (hc : isSpace c = false) (hlast : t = v ++ [d]) (hd : isSpace d = false) : trim t = t := by
  unfold trim
  rw [show t.dropWhile isSpace = t by
    rw [hhead]
    exact List.dropWhile_cons_of_neg (by rw [hc]; exact Bool.false_ne_true), hlast]
  exact reverse_dropWhile_reverse hd

/-- Nothing of a word is trimmed away. -/
theorem trim_visible {t : List Char} (ht : IsVisible t) : trim t = t := by
  obtain ⟨c, rest, hhead⟩ := List.exists_cons_of_ne_nil ht.1
  have hlast := (List.dropLast_append_getLast ht.1).symm
  exact trim_eq_self hhead (isSpace_visible (ht.2 c (hhead ▸ List.mem_cons_self))) hlast
    (isSpace_visible (ht.2 _ (List.getLast_mem ht.1)))

/-- **A command of words is not changed by the clean-up.** -/
theorem sanitize_joinWords {w v : List Char} {ws : List (List Char)}
    (hw : IsVisible w) (hws : ∀ u ∈ ws, IsVisible u) (hv : IsVisible v) :
    sanitize (joinWords (w :: ws ++ [v])) = joinWords (w :: ws ++ [v]) := by
  have hall : ∀ u ∈ w :: ws ++ [v], IsVisible u := by
    intro u hu
    rcases List.mem_append.mp hu with hu | hu
    · rcases List.mem_cons.mp hu with rfl | hu
      · exact hw
      · exact hws u hu
    · rw [List.mem_singleton.mp hu]
      exact hv
  have hmap : (joinWords (w :: ws ++ [v])).map
      (fun c => if c.toNat ≤ 0x1F ∨ c.toNat = 0x7F then ' ' else c) =
      joinWords (w :: ws ++ [v]) := by
    refine (List.map_congr_left fun c hc => ?_).trans (List.map_id _)
    rcases mem_joinWords hc with rfl | ⟨u, hu, hcu⟩
    · rfl
    · have := (hall u hu).2 c hcu
      exact if_neg (by omega)
  unfold sanitize collapse replaceAll
  rw [hmap, collapse_joinWords hall]
  obtain ⟨c, rest, hhead, -, hc⟩ := head_joinWords hw (ws ++ [v])
  obtain ⟨pre, hpre⟩ := joinWords_append w v ws
  obtain ⟨v', d, hv'⟩ : ∃ v' d, v = v' ++ [d] :=
    ⟨_, _, (List.dropLast_append_getLast hv.1).symm⟩
  refine trim_eq_self hhead hc (v := pre ++ ' ' :: v') (d := d) ?_ ?_
  · rw [hpre, hv', List.append_assoc, List.cons_append]
  · exact isSpace_visible (hv.2 d (by rw [hv']; simp))

/-! ## The last word -/

theorem splitWords_cons {c : Char} (hc : isSpace c = false) {rest word : List Char}
    {words : List (List Char)} (h : splitWords rest = word :: words) :
    splitWords (c :: rest) = (c :: word) :: words := by
  rw [splitWords.eq_def]
  dsimp only
  rw [if_neg (by rw [hc]; exact Bool.false_ne_true), h]

theorem splitWords_space {c : Char} (hc : isSpace c = true) (d : Char) (rest : List Char) :
    splitWords (c :: d :: rest) =
      if isSpace d then splitWords (d :: rest) else [] :: splitWords (d :: rest) := by
  rw [splitWords.eq_def]
  dsimp only
  rw [if_pos hc]

theorem splitWords_word {w : List Char} (hw : ∀ c ∈ w, isSpace c = false) :
    splitWords w = [w] := by
  induction w with
  | nil => rfl
  | cons c w ih =>
    exact splitWords_cons (hw c List.mem_cons_self)
      (ih fun d hd => hw d (List.mem_cons_of_mem c hd))

/-- What stands behind the last space is the last word. -/
theorem splitWords_last {d : Char} {w : List Char} (hw : ∀ c ∈ d :: w, isSpace c = false)
    (pre : List Char) :
    ∃ word init, splitWords (pre ++ ' ' :: d :: w) = word :: init ++ [d :: w] := by
  have hd := hw d List.mem_cons_self
  induction pre with
  | nil =>
    refine ⟨[], [], ?_⟩
    rw [List.nil_append, splitWords_space (by decide),
      if_neg (by rw [hd]; exact Bool.false_ne_true), splitWords_word hw]
    rfl
  | cons c pre ih =>
    obtain ⟨word, init, hsplit⟩ := ih
    rw [List.cons_append]
    by_cases hc : isSpace c = true
    · obtain ⟨e, rest, hrest⟩ : ∃ e rest, pre ++ ' ' :: d :: w = e :: rest :=
        List.exists_cons_of_ne_nil (List.append_ne_nil_of_right_ne_nil pre (List.cons_ne_nil _ _))
      rw [hrest, splitWords_space hc, ← hrest, hsplit]
      split
      · exact ⟨word, init, rfl⟩
      · exact ⟨[], word :: init, rfl⟩
    · exact ⟨c :: word, init, splitWords_cons (Bool.eq_false_iff.mpr hc) hsplit⟩

/-- **An amount is no pool.** -/
theorem extractEarnPool_amount {num t : List Char} (hnum : IsAmount num)
    (h : EndsWithAmount num t) (originalText : List Char) :
    extractEarnPool t originalText = (t, none) := by
  have hword : ∀ c ∈ '$' :: num, isSpace c = false := by
    intro c hc
    rcases List.mem_cons.mp hc with rfl | hc
    · decide
    · exact isSpace_of_amount hnum c hc
  have halias : poolAlias ('$' :: num) = none := by
    have hhead : ∀ e ∈ EARN_POOL_ALIASES, e.1.toList.head? ≠ some '$' := by decide
    unfold poolAlias
    rw [List.find?_eq_none.mpr]
    · rfl
    · intro e he heq
      exact hhead e he (by rw [of_decide_eq_true heq]; rfl)
  unfold extractEarnPool
  dsimp only
  rcases trim_amount hnum h with htrim | ⟨pre, htrim⟩
  · rw [htrim, splitWords_word hword]
    exact if_pos (by simp)
  · obtain ⟨word, init, hsplit⟩ := splitWords_last hword pre
    rw [htrim, hsplit]
    split
    · rfl
    · have hlast : (word :: init ++ ['$' :: num]).getLastD [] = '$' :: num := List.getLastD_concat
      rw [hlast, halias,
        show poolMark.isPrefixOf ('$' :: num) = false from rfl]
      rfl

/-! ## Normalized commands -/

/-- **A command of words that ends with an amount still does when it is parsed.** -/
theorem endsWithAmount_normalize (data : ParserData) {num w : List Char} (hnum : IsAmount num)
    {ws : List (List Char)} (hw : IsVisible w) (hws : ∀ u ∈ ws, IsVisible u) {c : Char}
    (hc : w.head? = some c) (hlower : isSpace c.toLower = false) :
    EndsWithAmount num (lowerCase (normalize data (joinWords (w :: ws ++ ['$' :: num])))) := by
  have hv := isVisible_amount hnum
  obtain ⟨c', rest, hhead, hc', -⟩ := head_joinWords hw (ws ++ ['$' :: num])
  obtain rfl : c' = c := Option.some.inj (hc'.symm.trans hc)
  have hends : EndsWithAmount num (joinWords (w :: ws ++ ['$' :: num])) := joinWords_append _ _ _
  unfold normalize
  rw [sanitize_joinWords hw hws hv]
  refine EndsWithAmount.lowerCase hnum (EndsWithAmount.normalizeAssetText hnum data
    (EndsWithAmount.normalizeNumberWords hnum (EndsWithAmount.expandAliases
      (EndsWithAmount.expandLearnedAlias hnum data ?_))))
  exact EndsWithAmount.expandTemplate hnum data hends hhead hlower

end Interpreter

/-!
## Capitals and small letters

Only the letters of ASCII have a case here, so that what is said of the case of a character is
checked on those of ASCII.

- `upperCase_lowerCase`, `lowerCase_upperCase`: the last change of case decides.
- `trim_lowerCase`: what is trimmed does not depend on the case.
-/

open Pattern

namespace Interpreter

theorem case_of_large {c : Char} (hc : 128 ≤ c.toNat) : c.toLower = c ∧ c.toUpper = c := by
  have hlarge : 128 ≤ c.val.toNat := hc
  constructor
  · unfold Char.toLower
    refine dif_neg fun h => ?_
    have hhigh : c.val.toNat ≤ 90 := UInt32.le_iff_toNat_le.mp h.2
    omega
  · unfold Char.toUpper
    refine dif_neg fun h => ?_
    have hhigh : c.val.toNat ≤ 122 := UInt32.le_iff_toNat_le.mp h.2
    omega

/-- What holds of the characters of ASCII, and of all that have no case. -/
theorem of_ascii {P : Char → Prop} (hascii : ∀ n < 128, P (Char.ofNat n))
    (hsame : ∀ c : Char, c.toLower = c → c.toUpper = c → P c) (c : Char) : P c := by
  rcases Nat.lt_or_ge c.toNat 128 with hsmall | hlarge
  · have hn := hascii c.toNat hsmall
    rwa [Char.ofNat_toNat] at hn
  · exact hsame c (case_of_large hlarge).1 (case_of_large hlarge).2

/-- The cases of the characters of ASCII. -/
theorem case_of_small : ∀ n < 128,
    (Char.ofNat n).toLower.toUpper = (Char.ofNat n).toUpper ∧
      (Char.ofNat n).toUpper.toLower = (Char.ofNat n).toLower ∧
      (Char.ofNat n).toLower.toLower = (Char.ofNat n).toLower ∧
      (Char.ofNat n).toUpper.toUpper = (Char.ofNat n).toUpper ∧
      isSpace (Char.ofNat n).toLower = isSpace (Char.ofNat n) ∧
      isSpace (Char.ofNat n).toUpper = isSpace (Char.ofNat n) ∧
      (Char.ofNat n).toLower.isAlphanum = (Char.ofNat n).isAlphanum := by
  decide +kernel

theorem toUpper_toLower : ∀ c : Char, c.toLower.toUpper = c.toUpper :=
  of_ascii (fun n hn => (case_of_small n hn).1) fun c hlower _ => by rw [hlower]

theorem toLower_toUpper : ∀ c : Char, c.toUpper.toLower = c.toLower :=
  of_ascii (fun n hn => (case_of_small n hn).2.1) fun c _ hupper => by rw [hupper]

theorem toLower_toLower : ∀ c : Char, c.toLower.toLower = c.toLower :=
  of_ascii (fun n hn => (case_of_small n hn).2.2.1) fun c hlower _ => by rw [hlower, hlower]

theorem toUpper_toUpper : ∀ c : Char, c.toUpper.toUpper = c.toUpper :=
  of_ascii (fun n hn => (case_of_small n hn).2.2.2.1) fun c _ hupper => by rw [hupper, hupper]

theorem isSpace_toLower : ∀ c : Char, isSpace c.toLower = isSpace c :=
  of_ascii (fun n hn => (case_of_small n hn).2.2.2.2.1) fun c hlower _ => by rw [hlower]

theorem isSpace_toUpper : ∀ c : Char, isSpace c.toUpper = isSpace c :=
  of_ascii (fun n hn => (case_of_small n hn).2.2.2.2.2.1) fun c _ hupper => by rw [hupper]

theorem isAlphanum_toLower : ∀ c : Char, c.toLower.isAlphanum = c.isAlphanum :=
  of_ascii (fun n hn => (case_of_small n hn).2.2.2.2.2.2) fun c hlower _ => by rw [hlower]

/-! ### Texts -/

theorem upperCase_lowerCase (t : List Char) : upperCase (lowerCase t) = upperCase t := by
  unfold upperCase lowerCase
  rw [List.map_map]
  exact List.map_congr_left fun c _ => toUpper_toLower c

theorem lowerCase_upperCase (t : List Char) : lowerCase (upperCase t) = lowerCase t := by
  unfold upperCase lowerCase
  rw [List.map_map]
  exact List.map_congr_left fun c _ => toLower_toUpper c

theorem upperCase_upperCase (t : List Char) : upperCase (upperCase t) = upperCase t := by
  unfold upperCase
  rw [List.map_map]
  exact List.map_congr_left fun c _ => toUpper_toUpper c

theorem trim_map {f : Char → Char} (hf : ∀ c, isSpace (f c) = isSpace c) (t : List Char) :
    trim (t.map f) = (trim t).map f := by
  have hsame : isSpace ∘ f = isSpace := funext hf
  unfold trim
  rw [List.dropWhile_map, hsame, ← List.map_reverse, List.dropWhile_map, hsame, List.map_reverse]

theorem trim_lowerCase (t : List Char) : trim (lowerCase t) = lowerCase (trim t) :=
  trim_map isSpace_toLower t

theorem trim_upperCase (t : List Char) : trim (upperCase t) = upperCase (trim t) :=
  trim_map isSpace_toUpper t

/-- A name in small letters is a name. -/
theorem isName_lower {m : List Char} (h : IsName m) : IsName (lowerCase m) := by
  refine ⟨fun hnil => h.1 (List.map_eq_nil_iff.mp hnil), fun c hc => ?_⟩
  obtain ⟨d, hd, rfl⟩ := List.mem_map.mp hc
  rcases h.2 d hd with halnum | rfl
  · exact .inl (by rwa [isAlphanum_toLower])
  · exact .inr rfl

end Interpreter

end FlashEdge
