import FlashEdge.Ai.CommandWords
import FlashEdge.Ai.TokenTexts

/-!
# The words of a name (`utils/market-resolver.ts`)

Two spellings of a name that differ in spaces have the same words. What `resolveMarket` does with
a text, it does with its words as far as spaces are concerned: it takes them out, and it strips
an ending from the last word.

- `words`: the words of a text, and what trimming and a change of case does to them.
- `flatten_words`: together they are the text without its spaces.
- `replaceAll_spaces`: what is left of a text without its spaces.
- `replace_ending`: what is left of a text without its ending.
-/

namespace FlashEdge

namespace Interpreter

open Pattern

/-! ## Words -/

/-- The words of a text, behind the beginning `w` of a word. -/
def wordsFrom : List Char → List Char → List (List Char)
  | w, [] => if w = [] then [] else [w]
  | w, c :: t =>
    if isSpace c then (if w = [] then wordsFrom [] t else w :: wordsFrom [] t)
    else wordsFrom (w ++ [c]) t

def words (t : List Char) : List (List Char) := wordsFrom [] t

/-- A text without its spaces. -/
def solid (t : List Char) : List Char := t.filter fun c => !isSpace c

theorem wordsFrom_append (w u : List Char) {c : Char} (hc : isSpace c = true) (v : List Char) :
    wordsFrom w (u ++ c :: v) = wordsFrom w u ++ words v := by
  induction u generalizing w with
  | nil =>
    rw [List.nil_append, wordsFrom, wordsFrom, if_pos hc]
    split
    · rfl
    · rfl
  | cons d u ih =>
    rw [List.cons_append, wordsFrom, wordsFrom]
    split
    · split
      · exact ih []
      · rw [ih [], List.cons_append]
    · exact ih (w ++ [d])

theorem words_append (u : List Char) {c : Char} (hc : isSpace c = true) (v : List Char) :
    words (u ++ c :: v) = words u ++ words v := wordsFrom_append [] u hc v

theorem words_space {c : Char} (hc : isSpace c = true) (t : List Char) :
    words (c :: t) = words t := words_append [] hc t

theorem wordsFrom_solid {w u : List Char} (hu : ∀ c ∈ u, isSpace c = false) :
    wordsFrom w u = if w ++ u = [] then [] else [w ++ u] := by
  induction u generalizing w with
  | nil => rw [List.append_nil, wordsFrom]
  | cons c u ih =>
    rw [wordsFrom, if_neg (by rw [hu c List.mem_cons_self]; exact Bool.false_ne_true),
      ih fun d hd => hu d (List.mem_cons_of_mem c hd), List.append_assoc, List.singleton_append]

theorem words_token {w : List Char} (hw : IsToken w) : words w = [w] := by
  unfold words
  rw [wordsFrom_solid hw.2, List.nil_append, if_neg hw.1]

/-- One word, behind a text that ends with a space. -/
theorem words_snoc {u w : List Char} {c : Char} (hc : isSpace c = true) (hw : IsToken w) :
    words (u ++ [c] ++ w) = words u ++ [w] := by
  rw [List.append_assoc, List.singleton_append, words_append u hc, words_token hw]

theorem words_trail (t : List Char) {trail : List Char} (h : ∀ c ∈ trail, isSpace c = true) :
    words (t ++ trail) = words t := by
  cases trail with
  | nil => rw [List.append_nil]
  | cons c trail =>
    rw [words_append t (h c List.mem_cons_self)]
    have hnone : ∀ u : List Char, (∀ d ∈ u, isSpace d = true) → words u = [] := by
      intro u hu
      induction u with
      | nil => rfl
      | cons d u ih =>
        rw [words_space (hu d List.mem_cons_self)]
        exact ih fun e he => hu e (List.mem_cons_of_mem d he)
    rw [hnone trail fun d hd => h d (List.mem_cons_of_mem c hd), List.append_nil]

theorem words_lead (t : List Char) {lead : List Char} (h : ∀ c ∈ lead, isSpace c = true) :
    words (lead ++ t) = words t := by
  induction lead with
  | nil => rfl
  | cons c lead ih =>
    rw [List.cons_append, words_space (h c List.mem_cons_self)]
    exact ih fun d hd => h d (List.mem_cons_of_mem c hd)

/-- What stands around a trimmed text are spaces. -/
theorem trim_split (t : List Char) : ∃ lead trail, t = lead ++ trim t ++ trail ∧
    (∀ c ∈ lead, isSpace c = true) ∧ ∀ c ∈ trail, isSpace c = true := by
  refine ⟨t.takeWhile isSpace,
    ((t.dropWhile isSpace).reverse.takeWhile isSpace).reverse, ?_, ?_, ?_⟩
  · unfold trim
    rw [List.append_assoc, ← List.reverse_append, List.takeWhile_append_dropWhile,
      List.reverse_reverse, List.takeWhile_append_dropWhile]
  · exact fun c hc => List.mem_takeWhile_imp hc
  · exact fun c hc => List.mem_takeWhile_imp (List.mem_reverse.mp hc)

theorem words_trim (t : List Char) : words (trim t) = words t := by
  obtain ⟨lead, trail, hsplit, hlead, htrail⟩ := trim_split t
  conv_rhs => rw [hsplit]
  rw [words_trail _ htrail, words_lead _ hlead]

theorem flatten_wordsFrom (w t : List Char) : (wordsFrom w t).flatten = w ++ solid t := by
  induction t generalizing w with
  | nil =>
    rw [wordsFrom]
    split
    · next hw => rw [hw]; rfl
    · rw [List.flatten_singleton]
      exact (List.append_nil w).symm
  | cons c t ih =>
    rw [wordsFrom]
    by_cases hc : isSpace c = true
    · rw [if_pos hc, show solid (c :: t) = solid t from List.filter_cons_of_neg (by simp [hc])]
      split
      · next hw => rw [hw, ih]
      · rw [List.flatten_cons, ih, List.nil_append]
    · have hsolid : solid (c :: t) = c :: solid t := List.filter_cons_of_pos (by simpa using hc)
      rw [if_neg hc, ih, hsolid, List.append_assoc, List.singleton_append]

theorem flatten_words (t : List Char) : (words t).flatten = solid t := flatten_wordsFrom [] t

theorem tokens_wordsFrom {w : List Char} (hw : ∀ c ∈ w, isSpace c = false) (t : List Char) :
    ∀ v ∈ wordsFrom w t, IsToken v := by
  induction t generalizing w with
  | nil =>
    rw [wordsFrom]
    split
    · exact fun v hv => by cases hv
    · next hne =>
      intro v hv
      rw [List.mem_singleton.mp hv]
      exact ⟨hne, hw⟩
  | cons c t ih =>
    rw [wordsFrom]
    have hfresh := ih (w := []) fun d hd => by cases hd
    split
    · split
      · exact hfresh
      · next hne =>
        intro v hv
        rcases List.mem_cons.mp hv with rfl | hv
        · exact ⟨hne, hw⟩
        · exact hfresh v hv
    · next hc =>
      refine ih fun d hd => ?_
      rcases List.mem_append.mp hd with hd | hd
      · exact hw d hd
      · rw [List.mem_singleton.mp hd]
        exact Bool.eq_false_iff.mpr hc

theorem tokens_words (t : List Char) : ∀ v ∈ words t, IsToken v :=
  tokens_wordsFrom (fun _ hc => by cases hc) t

/-! ## Spaces taken out -/

theorem replaceFrom_spaces_nil (t before : List Char) :
    spaces.replaceFrom (fun _ => []) before 0 t = solid t ∧
      spaces.replaceFrom (fun _ => []) before (t.takeWhile isSpace).length t = solid t := by
  induction t generalizing before with
  | nil => exact ⟨rfl, rfl⟩
  | cons c t ih =>
    obtain ⟨hfresh, hgap⟩ := ih (c :: before)
    by_cases hc : isSpace c = true
    · have hlen : ((c :: t).takeWhile isSpace).length = (t.takeWhile isSpace).length + 1 := by
        rw [List.takeWhile_cons_of_pos hc, List.length_cons]
      have hsolid : solid (c :: t) = solid t := List.filter_cons_of_neg (by simp [hc])
      rw [hsolid, hlen, replaceFrom, replaceFrom]
      refine ⟨?_, hgap⟩
      -- the match is the whole run
      obtain ⟨others, hresults, -⟩ := leads_many1 isSpace { before, after := c :: t }
      have hfirst : spaces.results { before, after := c :: t } =
          munch isSpace { before, after := c :: t } :: others := by
        unfold spaces
        rw [hresults]
        unfold munch1
        dsimp only
        rw [if_pos hc]
        rfl
      have hmatched : (toMatch { before, after := c :: t }
          (munch isSpace { before, after := c :: t })).matched = (c :: t).takeWhile isSpace :=
        toMatch_matched ⟨(List.takeWhile_append_dropWhile).symm, rfl⟩
      rw [hfirst]
      dsimp only
      rw [hmatched, hlen, Nat.add_sub_cancel, hgap, List.nil_append]
    · have hnone : spaces.results { before, after := c :: t } = [] := by
        simp [spaces, many1, results, hc]
      have hsolid : solid (c :: t) = c :: solid t := List.filter_cons_of_pos (by simpa using hc)
      rw [List.takeWhile_cons_of_neg hc, List.length_nil, replaceFrom, hnone]
      dsimp only
      rw [hfresh, hsolid]
      exact ⟨rfl, rfl⟩

/-- `t.replace(/\s+/g, '')`. -/
theorem replaceAll_spaces (t : List Char) : spaces.replaceAll (fun _ => []) t = solid t :=
  (replaceFrom_spaces_nil t []).1

/-! ## Endings -/

/-- What follows the sign before an ending. -/
def endingWords : List (List Char) := ["perp".toList, "perpetual".toList]

/-- What may stand before an ending. -/
def isSeparator (c : Char) : Bool := c = '-' || isSpace c

/-- What the expression for the endings matches, in small letters. -/
def IsEnding (e : List Char) : Prop :=
  ∃ b ∈ endingWords, e = b ∨ ∃ c, isSeparator c = true ∧ e = c :: b

/-- A text in small letters. -/
def IsLower (t : List Char) : Prop := ∀ c ∈ t, c.toLower = c

theorem isLower_lowerCase (t : List Char) : IsLower (lowerCase t) := by
  intro c hc
  obtain ⟨d, -, rfl⟩ := List.mem_map.mp hc
  exact toLower_toLower d

theorem lowerCase_of_isLower {t : List Char} (h : IsLower t) : lowerCase t = t :=
  (List.map_congr_left h).trans (List.map_id t)

/-- In small letters the flag `i` makes no difference. -/
theorem results_litIgnoreCase {w : List Char} (hw : IsLower w) {s : Cursor}
    (hs : IsLower s.after) :
    (litIgnoreCase w).results s = if w <+: s.after then [advance w s] else [] := by
  unfold litIgnoreCase literal
  induction w generalizing s with
  | nil =>
    rw [if_pos List.nil_prefix]
    rfl
  | cons d w ih =>
    obtain ⟨before, after, captures⟩ := s
    rw [List.map_cons, results_seqs_cons, results]
    cases after with
    | nil => exact (if_neg (by simp)).symm
    | cons c after =>
      have hd : d.toLower = d := hw d List.mem_cons_self
      have hc' : c.toLower = c := hs c List.mem_cons_self
      dsimp only
      by_cases hc : c = d
      · subst hc
        rw [if_pos (decide_eq_true rfl), List.flatMap_singleton,
          ih (fun e he => hw e (List.mem_cons_of_mem c he))
            (s := { before := c :: before, after, captures })
            (fun e he => hs e (List.mem_cons_of_mem c he))]
        by_cases hprefix : w <+: after
        · rw [if_pos hprefix, if_pos (List.cons_prefix_cons.mpr ⟨rfl, hprefix⟩)]
          simp [advance]
        · rw [if_neg hprefix, if_neg fun h => hprefix (List.cons_prefix_cons.mp h).2]
      · rw [if_neg (by rw [hd, hc']; simpa using hc),
          if_neg fun h => hc (List.cons_prefix_cons.mp h).1.symm]
        rfl

/-- The position at the end of the text. -/
def atEnd (s : Cursor) : Cursor := { s with before := s.after.reverse ++ s.before, after := [] }

/-- `perp(?:etual)?$`. -/
def endingWord : Pattern :=
  seqs [litIgnoreCase "perp".toList, optional (litIgnoreCase "etual".toList), stop]

theorem results_endingWord {s : Cursor} (hs : IsLower s.after) :
    endingWord.results s = if s.after ∈ endingWords then [atEnd s] else [] := by
  have hperp : IsLower "perp".toList := by unfold IsLower; decide
  have hetual : IsLower "etual".toList := by unfold IsLower; decide
  obtain ⟨before, after, captures⟩ := s
  unfold endingWord
  rw [results_seqs_cons, results_litIgnoreCase hperp hs]
  by_cases hstart : "perp".toList <+: after
  · obtain ⟨rest, rfl⟩ := hstart
    have hrest : IsLower rest := fun c hc => hs c (List.mem_append_right _ hc)
    rw [if_pos (List.prefix_append _ _), List.flatMap_singleton, results_seqs_cons]
    have hread : advance "perp".toList { before, after := "perp".toList ++ rest, captures } =
        { before := "perp".toList.reverse ++ before, after := rest, captures } := by
      simp [advance]
    rw [hread, results]
    rw [results_litIgnoreCase hetual hrest, List.flatMap_append]
    by_cases hmore : "etual".toList <+: rest
    · obtain ⟨behind, rfl⟩ := hmore
      rw [if_pos (List.prefix_append _ _)]
      cases behind with
      | nil => rfl
      | cons c behind =>
        refine Eq.trans ?_ (if_neg ?_).symm
        · rfl
        · simp [endingWords]
    · rw [if_neg hmore]
      cases rest with
      | nil => rfl
      | cons c rest =>
        refine Eq.trans ?_ (if_neg fun hmem => ?_).symm
        · rfl
        · rcases List.mem_cons.mp hmem with heq | hmem
          · simp at heq
          · have heq : "perp".toList ++ c :: rest = "perp".toList ++ "etual".toList :=
              List.mem_singleton.mp hmem
            rw [List.append_cancel_left heq] at hmore
            exact hmore List.prefix_rfl
  · rw [if_neg hstart, if_neg]
    · rfl
    · intro hmem
      rcases List.mem_cons.mp hmem with heq | hmem
      · exact hstart (heq ▸ List.prefix_rfl)
      · rw [show after = "perpetual".toList from List.mem_singleton.mp hmem] at hstart
        exact hstart (by decide)

instance (e : List Char) : Decidable (e ∈ endingWords) := decidableMemTexts e endingWords

/-- No ending word begins with a separator. -/
theorem not_separator {c : Char} {e : List Char} (h : c :: e ∈ endingWords) :
    isSeparator c = false := by
  rcases List.mem_cons.mp h with heq | h
  · obtain ⟨rfl, -⟩ := List.cons.inj heq
    rfl
  · obtain ⟨rfl, -⟩ := List.cons.inj (List.mem_singleton.mp h)
    rfl

theorem results_perpSuffix {s : Cursor} (hs : IsLower s.after) :
    (IsEnding s.after → ∃ rs, perpSuffix.results s = atEnd s :: rs) ∧
      (¬ IsEnding s.after → perpSuffix.results s = []) := by
  have hsplit : perpSuffix.results s =
      ((char isSeparator).results s).flatMap endingWord.results ++ endingWord.results s := by
    show ((optional (char isSeparator)).results s).flatMap endingWord.results = _
    show ((char isSeparator).results s ++ [s]).flatMap endingWord.results = _
    rw [List.flatMap_append, List.flatMap_singleton]
  obtain ⟨before, after, captures⟩ := s
  rw [hsplit]
  cases after with
  | nil =>
    have hnone : ¬ IsEnding [] := by
      rintro ⟨b, hb, rfl | ⟨c, -, hc⟩⟩
      · exact absurd hb (by decide)
      · cases hc
    exact ⟨fun h => absurd h hnone, fun _ => by rw [results_endingWord hs]; rfl⟩
  | cons c rest =>
    have hrest : IsLower rest := fun d hd => hs d (List.mem_cons_of_mem c hd)
    have hchar : (char isSeparator).results { before, after := c :: rest, captures } =
        if isSeparator c then [{ before := c :: before, after := rest, captures }] else [] := rfl
    rw [hchar, results_endingWord hs]
    constructor
    · rintro ⟨b, hb, hword | ⟨d, hd, hword⟩⟩
      · obtain rfl : c :: rest = b := hword
        rw [if_neg (by rw [not_separator hb]; exact Bool.false_ne_true), if_pos hb]
        exact ⟨[], rfl⟩
      · obtain ⟨rfl, rfl⟩ := List.cons.inj hword
        rw [if_pos hd, List.flatMap_singleton,
          results_endingWord (s := { before := c :: before, after := rest, captures }) hrest,
          if_pos hb]
        refine ⟨_, congrArg₂ List.cons ?_ rfl⟩
        simp [atEnd]
    · intro hnone
      rw [if_neg fun hmem => hnone ⟨c :: rest, hmem, .inl rfl⟩]
      split
      · next hc =>
        rw [List.flatMap_singleton,
          results_endingWord (s := { before := c :: before, after := rest, captures }) hrest,
          if_neg fun hmem => hnone ⟨rest, hmem, .inr ⟨c, hc, rfl⟩⟩]
        rfl
      · rfl

theorem nil_of_ending {u b : List Char} (hb : b ∈ endingWords) (h : u ++ b ∈ endingWords) :
    u = [] := by
  have hsuffix : ∀ x ∈ endingWords, ∀ y ∈ endingWords, x <:+ y → x = y := by decide
  have hsame := hsuffix b hb (u ++ b) h (List.suffix_append u b)
  exact List.self_eq_append_left.mp hsame

/-- A text without the separator at its end. -/
def unseparated (u : List Char) : List Char :=
  if u.getLast?.any isSeparator then u.dropLast else u

theorem unseparated_append (p : List Char) {v : List Char} (hv : v ≠ []) :
    unseparated (p ++ v) = p ++ unseparated v := by
  unfold unseparated
  rw [List.getLast?_append_of_ne_nil p hv]
  split
  · exact List.dropLast_append_of_ne_nil hv
  · rfl

theorem unseparated_sublist (u : List Char) : ∀ c ∈ unseparated u, c ∈ u := by
  unfold unseparated
  split
  · exact fun c hc => List.mem_of_mem_dropLast hc
  · exact fun c hc => hc

/-- The first position from which the rest of the text is an ending. -/
theorem execFrom_ending {u b : List Char} (hb : b ∈ endingWords) (before : List Char)
    (hlower : IsLower (u ++ b)) :
    ∃ m, perpSuffix.execFrom before (u ++ b) = some m ∧
      m.before = before.reverse ++ unseparated u ∧ m.after = [] := by
  have hfound : ∀ before after, IsLower after → IsEnding after →
      ∃ m, perpSuffix.execFrom before after = some m ∧ m.before = before.reverse ∧
        m.after = [] := by
    intro before after hafter hending
    obtain ⟨rs, hrs⟩ := (results_perpSuffix (s := { before, after }) hafter).1 hending
    refine ⟨_, by rw [execFrom.eq_def, hrs], rfl, rfl⟩
  induction u generalizing before with
  | nil =>
    obtain ⟨m, hm, hbefore, hafter⟩ := hfound before b hlower ⟨b, hb, .inl rfl⟩
    exact ⟨m, hm, by rw [hbefore]; exact (List.append_nil _).symm, hafter⟩
  | cons c u ih =>
    by_cases hending : IsEnding (c :: u ++ b)
    · -- only the separator may stand before the word
      obtain ⟨m, hm, hbefore, hafter⟩ := hfound before (c :: u ++ b) hlower hending
      have hone : u = [] ∧ isSeparator c = true := by
        obtain ⟨d, hd, heq | ⟨e, he, heq⟩⟩ := hending
        · have hnil := nil_of_ending hb (heq ▸ hd)
          cases hnil
        · obtain ⟨rfl, rfl⟩ := List.cons.inj heq
          exact ⟨nil_of_ending hb hd, he⟩
      obtain ⟨rfl, hc⟩ := hone
      refine ⟨m, hm, ?_, hafter⟩
      have hbare : unseparated [c] = [] := if_pos hc
      rw [hbefore, hbare, List.append_nil]
    · have hnone := (results_perpSuffix (s := { before, after := c :: u ++ b }) hlower).2 hending
      have hrest : IsLower (u ++ b) := fun d hd => hlower d (List.mem_cons_of_mem c hd)
      obtain ⟨m, hm, hbefore, hafter⟩ := ih (c :: before) hrest
      refine ⟨m, ?_, ?_, hafter⟩
      · rw [List.cons_append] at hnone
        rw [List.cons_append, execFrom_cons, matchAt_eq_none_iff.mpr hnone]
        exact hm
      · rw [hbefore, List.reverse_cons, List.append_assoc, List.singleton_append]
        congr 1
        cases u with
        | nil =>
          have hc : ¬ isSeparator c = true := fun hc => hending ⟨b, hb, .inr ⟨c, hc, rfl⟩⟩
          exact (if_neg hc).symm
        | cons d u => exact (unseparated_append [c] (List.cons_ne_nil d u)).symm

/-- The text before the word of an ending. -/
def unended (t : List Char) : Option (List Char) :=
  (endingWords.find? fun b => b <:+ t).map fun b => t.take (t.length - b.length)

theorem unended_append {u b : List Char} (hb : b ∈ endingWords) :
    unended (u ++ b) = some u := by
  have hfind : (endingWords.find? fun d => d <:+ u ++ b) = some b := by
    have hother : ∀ x ∈ endingWords, ∀ y ∈ endingWords, x <:+ u ++ x → y <:+ u ++ x → x = y := by
      intro x hx y hy hsx hsy
      have hsuffix : ∀ x ∈ endingWords, ∀ y ∈ endingWords, x <:+ y → x = y := by decide
      rcases List.suffix_or_suffix_of_suffix hsx hsy with h | h
      · exact hsuffix x hx y hy h
      · exact (hsuffix y hy x hx h).symm
    have hsome : (endingWords.find? fun d => d <:+ u ++ b).isSome :=
      List.find?_isSome.mpr ⟨b, hb, by simp⟩
    obtain ⟨d, hd⟩ := Option.isSome_iff_exists.mp hsome
    have hsuffix : d <:+ u ++ b := by simpa using List.find?_some hd
    rw [hd, hother b hb d (List.mem_of_find?_eq_some hd) (List.suffix_append u b) hsuffix]
  unfold unended
  rw [hfind, Option.map_some, List.length_append, Nat.add_sub_cancel, List.take_left]

theorem unended_eq_some_iff {t u : List Char} :
    unended t = some u ↔ ∃ b ∈ endingWords, t = u ++ b := by
  constructor
  · intro h
    obtain ⟨b, hb, hu⟩ := Option.map_eq_some_iff.mp h
    have hsuffix : b <:+ t := by simpa using List.find?_some hb
    obtain ⟨v, rfl⟩ := hsuffix
    rw [List.length_append, Nat.add_sub_cancel, List.take_left] at hu
    exact ⟨b, List.mem_of_find?_eq_some hb, by rw [hu]⟩
  · rintro ⟨b, hb, rfl⟩
    exact unended_append hb

theorem exec_ending_none {t : List Char} (hlower : IsLower t) (h : unended t = none) :
    perpSuffix.exec t = none := by
  refine exec_eq_none_iff.mpr fun v rest hsplit => ?_
  have hrest : IsLower rest := fun c hc => hlower c (by rw [hsplit]; simp [hc])
  refine (results_perpSuffix (s := { before := v.reverse, after := rest }) hrest).2 ?_
  rintro ⟨b, hb, hword | ⟨c, -, hword⟩⟩
  · obtain rfl : rest = b := hword
    rw [hsplit, unended_append hb] at h
    cases h
  · obtain rfl : rest = c :: b := hword
    rw [hsplit, ← List.singleton_append, ← List.append_assoc, unended_append hb] at h
    cases h

/-- What the expression for the endings leaves of a text. -/
theorem replace_ending {t : List Char} (hlower : IsLower t) :
    perpSuffix.replace (fun _ => []) t = ((unended t).map unseparated).getD t := by
  cases h : unended t with
  | none => exact replace_of_none (exec_ending_none hlower h) _
  | some u =>
    obtain ⟨b, hb, rfl⟩ := unended_eq_some_iff.mp h
    obtain ⟨m, hm, hbefore, hafter⟩ := execFrom_ending hb [] hlower
    unfold Pattern.replace exec
    rw [hm]
    show m.before ++ [] ++ m.after = unseparated u
    rw [hbefore, hafter, List.append_nil, List.append_nil]
    rfl

end Interpreter

end FlashEdge
