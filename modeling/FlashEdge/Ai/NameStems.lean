import FlashEdge.Ai.NameWords
import FlashEdge.Ai.ParserOutcomes
import FlashEdge.Theory.Descent

/-!
# The stems of a name (`utils/market-resolver.ts`)

A name that ends with "perp" or "perpetual" has a stem, and the stem may have one again. How long
the gaps between the words are makes no difference to the words of the stem, so that stems are
also those of words.

- `stem?`, `stemWords?`: the stem of a text and that of its words.
- `textStems`, `wordStems`: both are descents.
- `words_stem`: the stem of a text has the stem of its words.
- `exists_stem`: a stem of the words, however it is spelled, is the stem of a spelling.
- `spelling`: a spelling whose gaps are longer than any name of a table.
-/

namespace FlashEdge

open Pattern

namespace Interpreter

/-! ## Trimmed texts -/

/-- A text in small letters with no spaces around it. -/
structure IsSpelled (t : List Char) : Prop where
  lower : IsLower t
  trimmed : trim t = t

theorem trim_eq_self_iff {t : List Char} :
    trim t = t ↔ (∀ c ∈ t.head?, isSpace c = false) ∧ ∀ c ∈ t.getLast?, isSpace c = false := by
  constructor
  · intro h
    obtain ⟨lead, trail, hsplit, -, -⟩ := trim_split t
    have hlen := congrArg List.length hsplit
    rw [h, List.length_append, List.length_append] at hlen
    constructor
    · intro c hc
      have hkeep : t.dropWhile isSpace = t := by
        refine (List.dropWhile_suffix isSpace).eq_of_length_le ?_
        conv_lhs => rw [← h]
        unfold trim
        rw [List.length_reverse]
        exact (List.dropWhile_suffix isSpace).length_le.trans (List.length_reverse).le
      have hhead := List.head?_dropWhile_not isSpace t
      rw [hkeep, Option.mem_def.mp hc] at hhead
      simpa using hhead
    · intro c hc
      have hlast := List.head?_dropWhile_not isSpace (t.dropWhile isSpace).reverse
      have hsame : ((t.dropWhile isSpace).reverse.dropWhile isSpace) = t.reverse := by
        rw [← List.reverse_reverse ((t.dropWhile isSpace).reverse.dropWhile isSpace)]
        exact congrArg List.reverse h
      rw [hsame, List.head?_reverse, Option.mem_def.mp hc] at hlast
      simpa using hlast
  · rintro ⟨hhead, hlast⟩
    rcases List.eq_nil_or_concat t with rfl | ⟨v, d, hd⟩
    · rfl
    · rw [List.concat_eq_append] at hd
      obtain ⟨c, rest, hc⟩ := List.exists_cons_of_ne_nil
        (show t ≠ [] by rw [hd]; simp)
      exact trim_eq_self hc (hhead c (by rw [hc]; rfl)) hd (hlast d (by rw [hd]; simp))

theorem trim_trim (t : List Char) : trim (trim t) = trim t := by
  refine trim_eq_self_iff.mpr ⟨fun c hc => ?_, fun c hc => ?_⟩
  · by_cases h : trim t = []
    · rw [h] at hc
      cases hc
    · obtain ⟨d, rest, hd, hspace⟩ := trim_cons h
      rw [hd] at hc
      obtain rfl : d = c := Option.some.inj hc
      exact hspace
  · have hlast := List.head?_dropWhile_not isSpace (t.dropWhile isSpace).reverse
    unfold trim at hc
    rw [List.getLast?_reverse] at hc
    rw [Option.mem_def.mp hc] at hlast
    simpa using hlast

theorem words_eq_nil_iff {t : List Char} : words t = [] ↔ trim t = [] := by
  constructor
  · intro h
    by_contra hne
    obtain ⟨c, rest, hc, hspace⟩ := trim_cons hne
    have hsolid := flatten_words (trim t)
    rw [words_trim, h, hc] at hsolid
    have hkept : solid (c :: rest) = c :: solid rest := List.filter_cons_of_pos (by simp [hspace])
    rw [hkept] at hsolid
    cases hsolid
  · intro h
    rw [← words_trim, h]
    rfl

/-- What ends with a space, or is empty, before a word. -/
def IsLead (p : List Char) : Prop := ∀ c ∈ p.getLast?, isSpace c = true

theorem words_lead_append {p w : List Char} (hp : IsLead p) (hw : IsToken w) :
    words (p ++ w) = words p ++ [w] := by
  rcases List.eq_nil_or_concat p with rfl | ⟨v, c, rfl⟩
  · exact words_token hw
  · have hc : isSpace c = true := hp c (by simp)
    rw [List.concat_eq_append, words_snoc hc hw]
    congr 1
    exact (words_trail v fun d hd => by rwa [List.mem_singleton.mp hd]).symm

/-- A trimmed text ends with a word. -/
theorem exists_last_word {t : List Char} (htrim : trim t = t) (hne : t ≠ []) :
    ∃ p w, t = p ++ w ∧ IsToken w ∧ IsLead p := by
  have hlast := (trim_eq_self_iff.mp htrim).2
  let w := (t.reverse.takeWhile fun c => !isSpace c).reverse
  let p := (t.reverse.dropWhile fun c => !isSpace c).reverse
  have hsplit : t = p ++ w := by
    show t = _ ++ _
    rw [← List.reverse_append, List.takeWhile_append_dropWhile, List.reverse_reverse]
  refine ⟨p, w, hsplit, ⟨fun hnil => ?_, fun c hc => ?_⟩, fun c hc => ?_⟩
  · rw [hnil, List.append_nil] at hsplit
    have hlead := List.head?_dropWhile_not (fun c => !isSpace c) t.reverse
    obtain ⟨d, hd⟩ : ∃ d, t.getLast? = some d :=
      ⟨t.getLast hne, List.getLast?_eq_some_getLast hne⟩
    have hsame : t.reverse.dropWhile (fun c => !isSpace c) = t.reverse := by
      rw [← List.reverse_reverse (t.reverse.dropWhile fun c => !isSpace c)]
      exact congrArg List.reverse hsplit.symm
    rw [hsame, List.head?_reverse, hd] at hlead
    have hspace := hlast d hd
    simp [hspace] at hlead
  · have hmem : c ∈ t.reverse.takeWhile fun c => !isSpace c := List.mem_reverse.mp hc
    simpa using List.mem_takeWhile_imp hmem
  · have hlead := List.head?_dropWhile_not (fun c => !isSpace c) t.reverse
    have hhead : (t.reverse.dropWhile fun c => !isSpace c).head? = some c := by
      rw [← List.getLast?_reverse]
      exact hc
    rw [hhead] at hlead
    simpa using hlead

/-! ## Stems -/

/-- A text without its ending, if something is left of it. -/
def stem? (t : List Char) : Option (List Char) :=
  (unended t).bind fun u =>
    let stripped := trim (unseparated u)
    if stripped = [] then none else some stripped

/-- The words without the ending of the last one, if something is left of them. -/
def stemWords? (ws : List (List Char)) : Option (List (List Char)) :=
  (ws.getLast?.bind unended).bind fun v =>
    let stripped := ws.dropLast ++ words (unseparated v)
    if stripped = [] then none else some stripped

theorem stem?_eq_some {t s : List Char} (h : stem? t = some s) :
    ∃ u, unended t = some u ∧ s = trim (unseparated u) ∧ s ≠ [] := by
  obtain ⟨u, hu, hs⟩ := Option.bind_eq_some_iff.mp h
  dsimp only at hs
  split at hs
  · cases hs
  · next hne =>
    obtain rfl := Option.some.inj hs
    exact ⟨u, hu, rfl, hne⟩

theorem stemWords?_eq_some {ws ws' : List (List Char)} (h : stemWords? ws = some ws') :
    ∃ init w v, ws = init ++ [w] ∧ unended w = some v ∧ ws' = init ++ words (unseparated v) ∧
      ws' ≠ [] := by
  obtain ⟨v, hlast, hs⟩ := Option.bind_eq_some_iff.mp h
  obtain ⟨w, hw, hv⟩ := Option.bind_eq_some_iff.mp hlast
  dsimp only at hs
  split at hs
  · cases hs
  · next hne =>
    obtain rfl := Option.some.inj hs
    obtain ⟨init, rfl⟩ := List.getLast?_eq_some_iff.mp hw
    rw [List.dropLast_concat]
    rw [List.dropLast_concat] at hne
    exact ⟨init, w, v, rfl, hv, rfl, hne⟩

theorem unseparated_starts (u : List Char) : unseparated u <+: u := by
  unfold unseparated
  split
  · exact List.dropLast_prefix u
  · exact List.prefix_rfl

theorem trim_length_le (t : List Char) : (trim t).length ≤ t.length := by
  obtain ⟨lead, trail, hsplit, -, -⟩ := trim_split t
  have hlen := congrArg List.length hsplit
  rw [List.length_append, List.length_append] at hlen
  omega

theorem length_lt_of_unended {t u : List Char} (h : unended t = some u) : u.length < t.length := by
  obtain ⟨b, hb, rfl⟩ := unended_eq_some_iff.mp h
  have hpos : ∀ b ∈ endingWords, 0 < b.length := by decide
  have hlen := hpos b hb
  rw [List.length_append]
  omega

/-- The stems of texts. -/
def textStems : Descent (List Char) where
  next := stem?
  size := List.length
  smaller := by
    intro t s h
    obtain ⟨u, hu, rfl, -⟩ := stem?_eq_some h
    exact ((trim_length_le _).trans (unseparated_starts u).length_le).trans_lt
      (length_lt_of_unended hu)

/-- The stems of the words of texts. -/
def wordStems : Descent (List (List Char)) where
  next := stemWords?
  size ws := ws.flatten.length
  smaller := by
    intro ws ws' h
    obtain ⟨init, w, v, rfl, hv, rfl, -⟩ := stemWords?_eq_some h
    have hlt := length_lt_of_unended hv
    have hle := (unseparated_starts v).length_le
    have hsolid : (solid (unseparated v)).length ≤ (unseparated v).length :=
      List.length_filter_le _ _
    rw [List.flatten_append, List.flatten_append, List.length_append, List.length_append,
      flatten_words, List.flatten_singleton]
    omega

theorem unended_lead {p w : List Char} (hp : IsLead p) :
    unended (p ++ w) = (unended w).map (p ++ ·) := by
  cases h : unended w with
  | some v =>
    obtain ⟨b, hb, rfl⟩ := unended_eq_some_iff.mp h
    rw [← List.append_assoc, unended_append hb]
    rfl
  | none =>
    refine Option.eq_none_iff_forall_ne_some.mpr fun u hu => ?_
    obtain ⟨b, hb, hsplit⟩ := unended_eq_some_iff.mp hu
    have hsolid : ∀ b ∈ endingWords, ∀ c ∈ b, isSpace c = false := by decide
    rcases List.append_eq_append_iff.mp hsplit with ⟨v, rfl, rfl⟩ | ⟨v, rfl, rfl⟩
    · rw [unended_append hb] at h
      cases h
    · -- the word of the ending would reach into the gap
      rcases List.eq_nil_or_concat v with rfl | ⟨v, c, rfl⟩
      · have hword := @unended_append [] w hb
        rw [List.nil_append, h] at hword
        cases hword
      · have hspace : isSpace c = true := hp c (by simp)
        have hplain := hsolid _ hb c (by simp)
        rw [hspace] at hplain
        cases hplain

theorem words_unseparated {p v : List Char} (hp : IsLead p) (hv : ∀ c ∈ v, isSpace c = false) :
    words (unseparated (p ++ v)) = words p ++ words (unseparated v) := by
  by_cases hne : v = []
  · subst hne
    rw [List.append_nil, show words (unseparated []) = [] from rfl, List.append_nil]
    unfold unseparated
    split
    · rcases List.eq_nil_or_concat p with rfl | ⟨q, c, rfl⟩
      · rfl
      · have hc : isSpace c = true := hp c (by simp)
        rw [List.concat_eq_append, List.dropLast_concat]
        exact (words_trail q fun d hd => by rwa [List.mem_singleton.mp hd]).symm
    · rfl
  · rw [unseparated_append p hne]
    have hkept : ∀ c ∈ unseparated v, isSpace c = false :=
      fun c hc => hv c (unseparated_sublist v c hc)
    by_cases hnil : unseparated v = []
    · rw [hnil, List.append_nil, show words [] = [] from rfl, List.append_nil]
    · rw [words_lead_append hp ⟨hnil, hkept⟩, words_token ⟨hnil, hkept⟩]

/-- **The stem of a text has the stem of its words.** -/
theorem words_stem {t : List Char} (ht : trim t = t) :
    stemWords? (words t) = (stem? t).map words := by
  by_cases hne : t = []
  · subst hne
    rfl
  obtain ⟨p, w, rfl, hw, hp⟩ := exists_last_word ht hne
  unfold stemWords? stem?
  rw [words_lead_append hp hw, List.getLast?_concat, List.dropLast_concat, Option.bind_some,
    unended_lead hp]
  cases hv : unended w with
  | none => rfl
  | some v =>
    obtain ⟨b, hb, rfl⟩ := unended_eq_some_iff.mp hv
    have hsame := words_unseparated hp fun c hc => hw.2 c (List.mem_append_left b hc)
    rw [Option.map_some, Option.bind_some, Option.bind_some]
    dsimp only
    rw [← hsame]
    by_cases hnil : trim (unseparated (p ++ v)) = []
    · rw [if_pos hnil, if_pos (words_eq_nil_iff.mpr hnil)]
      rfl
    · rw [if_neg hnil, if_neg (mt words_eq_nil_iff.mp hnil), Option.map_some, words_trim]

theorem spelled_stem {t s : List Char} (ht : IsSpelled t) (h : stem? t = some s) :
    IsSpelled s ∧ s <+: t := by
  obtain ⟨u, hu, rfl, hne⟩ := stem?_eq_some h
  obtain ⟨b, -, rfl⟩ := unended_eq_some_iff.mp hu
  have hstarts : trim (unseparated u) <+: u ++ b := by
    refine List.IsPrefix.trans ?_ ((unseparated_starts u).trans (List.prefix_append u b))
    have hfirst : ∀ c ∈ (unseparated u).head?, isSpace c = false := by
      intro c hc
      refine (trim_eq_self_iff.mp ht.trimmed).1 c ?_
      obtain ⟨rest, hrest⟩ := (unseparated_starts u).trans (List.prefix_append u b)
      rw [← hrest]
      exact List.mem_head?_append_of_mem_head? hc
    cases hu' : unseparated u with
    | nil => exact List.prefix_rfl
    | cons c rest => exact trim_starts (hfirst c (by rw [hu']; rfl)) rest
  refine ⟨⟨fun c hc => ht.lower c (hstarts.subset hc), trim_trim _⟩, hstarts⟩

/-! ## Spellings -/

/-- Words in small letters. -/
def AreWords (ws : List (List Char)) : Prop := ∀ w ∈ ws, IsToken w ∧ IsLower w

theorem areWords_words {t : List Char} (ht : IsLower t) : AreWords (words t) := by
  intro w hw
  refine ⟨tokens_words t w hw, fun c hc => ht c ?_⟩
  have hmem : c ∈ solid t := by
    rw [← flatten_words]
    exact List.mem_flatten.mpr ⟨w, hw, hc⟩
  exact List.mem_of_mem_filter hmem

theorem areWords_stem {ws ws' : List (List Char)} (hws : AreWords ws)
    (h : stemWords? ws = some ws') : AreWords ws' := by
  obtain ⟨init, w, v, rfl, hv, rfl, -⟩ := stemWords?_eq_some h
  obtain ⟨b, -, rfl⟩ := unended_eq_some_iff.mp hv
  intro x hx
  rcases List.mem_append.mp hx with hx | hx
  · exact hws x (List.mem_append_left _ hx)
  · refine areWords_words (fun c hc => ?_) x hx
    exact (hws (v ++ b) (by simp)).2 c (List.mem_append_left b (unseparated_sublist v c hc))

theorem spelled_append {p w : List Char} (hp : ∀ c ∈ p.head?, isSpace c = false)
    (hlower : IsLower p) (hw : IsToken w) (hw' : IsLower w) : IsSpelled (p ++ w) := by
  refine ⟨fun c hc => ?_, trim_eq_self_iff.mpr ⟨fun c hc => ?_, fun c hc => ?_⟩⟩
  · rcases List.mem_append.mp hc with hc | hc
    · exact hlower c hc
    · exact hw' c hc
  · cases p with
    | nil => exact hw.2 c (List.mem_of_mem_head? hc)
    | cons d p => exact hp c hc
  · rw [List.getLast?_append_of_ne_nil p hw.1] at hc
    exact hw.2 c (List.mem_of_mem_getLast? hc)

/-- A stem of the words, however it is spelled, is the stem of a spelling. -/
theorem exists_stem {ws : List (List Char)} {y : List Char} (hws : AreWords ws)
    (hy : IsSpelled y) (h : stemWords? ws = some (words y)) :
    ∃ x, IsSpelled x ∧ words x = ws ∧ stem? x = some y := by
  obtain ⟨init, w, v, rfl, hv, hstem, hne⟩ := stemWords?_eq_some h
  obtain ⟨hw, hlower⟩ := hws w (by simp)
  have hy' : y ≠ [] := by
    rintro rfl
    exact hne rfl
  have hfirst := (trim_eq_self_iff.mp hy.trimmed).1
  have hsolid : ∀ c ∈ v, isSpace c = false := by
    obtain ⟨b, -, rfl⟩ := unended_eq_some_iff.mp hv
    exact fun c hc => hw.2 c (List.mem_append_left b hc)
  by_cases hnil : unseparated v = []
  · -- the last word is an ending
    have hinit : words y = init := by
      rw [hstem, hnil]
      exact List.append_nil init
    have hlead : IsLead (y ++ [' ']) := fun c hc => by
      rw [List.getLast?_concat] at hc
      obtain rfl : ' ' = c := Option.some.inj hc
      rfl
    have hgap : words (y ++ [' ']) = init := by
      rw [words_trail y fun d hd => by rw [List.mem_singleton.mp hd]; rfl, hinit]
    refine ⟨y ++ [' '] ++ w, spelled_append ?_ ?_ hw hlower, ?_, ?_⟩
    · rw [List.head?_append_of_ne_nil y hy']
      exact hfirst
    · intro c hc
      rcases List.mem_append.mp hc with hc | hc
      · exact hy.lower c hc
      · rw [List.mem_singleton.mp hc]
        rfl
    · rw [words_lead_append hlead hw, hgap]
    · have hleft : trim (unseparated (y ++ [' '] ++ v)) = y := by
        have htrail : trim (y ++ [' ']) = y := by
          obtain ⟨c, rest, hc⟩ := List.exists_cons_of_ne_nil hy'
          obtain ⟨q, d, hd⟩ := (List.eq_nil_or_concat y).resolve_left hy'
          rw [List.concat_eq_append] at hd
          have hd' := (trim_eq_self_iff.mp hy.trimmed).2 d (by rw [hd]; simp)
          rw [hc]
          exact trim_trail (hfirst c (by rw [hc]; rfl)) rest (.inr rfl)
            ⟨q, d, by rw [← hc, hd], hd'⟩
        by_cases hv' : v = []
        · rw [hv', List.append_nil]
          have hcut : unseparated (y ++ [' ']) = y := by
            unfold unseparated
            rw [List.getLast?_concat, List.dropLast_concat]
            rfl
          rw [hcut, hy.trimmed]
        · rw [unseparated_append _ hv', hnil, List.append_nil, htrail]
      unfold stem?
      rw [unended_lead hlead, hv, Option.map_some, Option.bind_some]
      dsimp only
      rw [hleft, if_neg hy']
  · -- the last word has an ending
    have hkept : IsToken (unseparated v) :=
      ⟨hnil, fun c hc => hsolid c (unseparated_sublist v c hc)⟩
    rw [words_token hkept] at hstem
    obtain ⟨p, u, rfl, hu, hp⟩ := exists_last_word hy.trimmed hy'
    rw [words_lead_append hp hu] at hstem
    obtain ⟨hinit, hlast⟩ := List.append_inj' hstem rfl
    obtain rfl : u = unseparated v := List.head_eq_of_cons_eq hlast
    have hv' : v ≠ [] := by
      rintro rfl
      exact hnil rfl
    refine ⟨p ++ w, spelled_append ?_ ?_ hw hlower, ?_, ?_⟩
    · intro c hc
      exact hfirst c (List.mem_head?_append_of_mem_head? hc)
    · exact fun c hc => hy.lower c (List.mem_append_left _ hc)
    · rw [words_lead_append hp hw, hinit]
    · unfold stem?
      rw [unended_lead hp, hv, Option.map_some, Option.bind_some]
      dsimp only
      rw [unseparated_append p hv', hy.trimmed, if_neg hy']

theorem exists_below {ws : List (List Char)} {y : List Char} (hws : AreWords ws)
    (hy : IsSpelled y) (h : wordStems.Below ws (words y)) :
    ∃ x, IsSpelled x ∧ words x = ws ∧ textStems.Below x y := by
  induction h using Relation.ReflTransGen.head_induction_on with
  | refl => exact ⟨y, hy, rfl, Relation.ReflTransGen.refl⟩
  | head hnext _ ih =>
    obtain ⟨z, hz, rfl, hbelow⟩ := ih (areWords_stem hws hnext)
    obtain ⟨x, hx, hwords, hstem⟩ := exists_stem hws hz hnext
    exact ⟨x, hx, hwords, textStems.below_of_next hstem hbelow⟩

theorem spelled_below {t s : List Char} (ht : IsSpelled t) (h : textStems.Below t s) :
    IsSpelled s ∧ s <+: t := by
  induction h with
  | refl => exact ⟨ht, List.prefix_rfl⟩
  | tail _ hnext ih =>
    obtain ⟨hspelled, hstarts⟩ := spelled_stem ih.1 hnext
    exact ⟨hspelled, hstarts.trans ih.2⟩

/-- A spelling of words with a wide gap behind the first one. -/
def spelling (width : ℕ) : List (List Char) → List Char
  | [] => []
  | [w] => w
  | w :: ws => w ++ (List.replicate (width + 1) ' ' ++ joinWords ws)

theorem words_joinWords {ws : List (List Char)} (hws : ∀ w ∈ ws, IsToken w) :
    words (joinWords ws) = ws := by
  induction ws with
  | nil => rfl
  | cons w ws ih =>
    have hw := hws w List.mem_cons_self
    have hrest := ih fun v hv => hws v (List.mem_cons_of_mem w hv)
    cases ws with
    | nil => rw [joinWords_singleton, words_token hw]
    | cons v ws =>
      rw [joinWords_cons, words_append w rfl, words_token hw, hrest]
      rfl

theorem words_gap (w t : List Char) (hw : IsToken w) (width : ℕ) :
    words (w ++ (List.replicate (width + 1) ' ' ++ t)) = w :: words t := by
  have hgap : ∀ c ∈ List.replicate width ' ', isSpace c = true := fun c hc => by
    rw [(List.mem_replicate.mp hc).2]
    rfl
  rw [List.replicate_succ, List.cons_append, words_append w rfl, words_token hw,
    words_lead t hgap]
  rfl

theorem words_spelling {ws : List (List Char)} (hws : ∀ w ∈ ws, IsToken w) (width : ℕ) :
    words (spelling width ws) = ws := by
  cases ws with
  | nil => rfl
  | cons w ws =>
    have hw := hws w List.mem_cons_self
    have hrest := words_joinWords fun v hv => hws v (List.mem_cons_of_mem w hv)
    cases ws with
    | nil => exact words_token hw
    | cons v ws =>
      rw [spelling, words_gap w _ hw, hrest]
      exact fun h => by cases h

theorem mem_spelling {ws : List (List Char)} {width : ℕ} {c : Char}
    (hc : c ∈ spelling width ws) : c = ' ' ∨ ∃ w ∈ ws, c ∈ w := by
  cases ws with
  | nil => cases hc
  | cons w ws =>
    cases ws with
    | nil => exact .inr ⟨w, List.mem_cons_self, hc⟩
    | cons v ws =>
      rw [spelling] at hc
      · rcases List.mem_append.mp hc with hc | hc
        · exact .inr ⟨w, List.mem_cons_self, hc⟩
        · rcases List.mem_append.mp hc with hc | hc
          · exact .inl (List.mem_replicate.mp hc).2
          · rcases mem_joinWords hc with hc | ⟨u, hu, hc⟩
            · exact .inl hc
            · exact .inr ⟨u, List.mem_cons_of_mem w hu, hc⟩
      · exact fun h => by cases h

theorem getLast?_joinWords {ws : List (List Char)} (hws : ∀ w ∈ ws, IsToken w) {c : Char}
    (hc : c ∈ (joinWords ws).getLast?) : isSpace c = false := by
  induction ws with
  | nil => cases hc
  | cons w ws ih =>
    have hw := hws w List.mem_cons_self
    cases ws with
    | nil =>
      rw [joinWords_singleton] at hc
      exact hw.2 c (List.mem_of_mem_getLast? hc)
    | cons v ws =>
      have hv := hws v (List.mem_cons_of_mem w List.mem_cons_self)
      have hne : joinWords (v :: ws) ≠ [] := by
        intro hnil
        have hwords := words_joinWords fun u hu => hws u (List.mem_cons_of_mem w hu)
        rw [hnil] at hwords
        cases hwords
      rw [joinWords_cons, ← List.singleton_append, ← List.append_assoc,
        List.getLast?_append_of_ne_nil _ hne] at hc
      exact ih (fun u hu => hws u (List.mem_cons_of_mem w hu)) hc

theorem spelled_spelling {ws : List (List Char)} (hws : AreWords ws) (width : ℕ) :
    IsSpelled (spelling width ws) := by
  have htokens : ∀ w ∈ ws, IsToken w := fun w hw => (hws w hw).1
  refine ⟨fun c hc => ?_, ?_⟩
  · rcases mem_spelling hc with rfl | ⟨w, hw, hc⟩
    · rfl
    · exact (hws w hw).2 c hc
  · cases ws with
    | nil => rfl
    | cons w ws =>
      have hw := htokens w List.mem_cons_self
      cases ws with
      | nil =>
        exact trim_eq_self_iff.mpr ⟨fun c hc => hw.2 c (List.mem_of_mem_head? hc),
          fun c hc => hw.2 c (List.mem_of_mem_getLast? hc)⟩
      | cons v ws =>
        have hrest : ∀ u ∈ v :: ws, IsToken u := fun u hu => htokens u (List.mem_cons_of_mem w hu)
        have hne : joinWords (v :: ws) ≠ [] := by
          intro hnil
          have hwords := words_joinWords hrest
          rw [hnil] at hwords
          cases hwords
        rw [spelling]
        · refine trim_eq_self_iff.mpr ⟨fun c hc => ?_, fun c hc => ?_⟩
          · rw [List.head?_append_of_ne_nil w hw.1] at hc
            exact hw.2 c (List.mem_of_mem_head? hc)
          · rw [← List.append_assoc, List.getLast?_append_of_ne_nil _ hne] at hc
            exact getLast?_joinWords hrest hc
        · exact fun h => by cases h

theorem starts_append {s a b : List Char} (h : s <+: a ++ b) :
    s <+: a ∨ ∃ r, s = a ++ r ∧ r <+: b := by
  rcases List.prefix_or_prefix_of_prefix h (List.prefix_append a b) with hs | ⟨r, rfl⟩
  · exact .inl hs
  · exact .inr ⟨r, rfl, (List.prefix_append_right_inj a).mp h⟩

/-- What a spelling begins with has no gap, or it is longer than the gap. -/
theorem long_of_spelling {ws : List (List Char)} (hws : ∀ w ∈ ws, IsToken w) {width : ℕ}
    {s : List Char} (hs : s <+: spelling width ws) (htrim : trim s = s)
    (hspace : ∃ c ∈ s, isSpace c = true) : width < s.length := by
  obtain ⟨c, hc, hspace⟩ := hspace
  have hone : ∀ w, IsToken w → ¬ s <+: w := fun w hw h => by
    rw [hw.2 c (h.subset hc)] at hspace
    cases hspace
  cases ws with
  | nil =>
    rw [List.prefix_nil.mp hs] at hc
    cases hc
  | cons w ws =>
    have hw := hws w List.mem_cons_self
    cases ws with
    | nil => exact absurd hs (hone w hw)
    | cons v ws =>
      rw [spelling] at hs
      · rcases starts_append hs with h | ⟨r, rfl, hr⟩
        · exact absurd h (hone w hw)
        rcases starts_append hr with h | ⟨r', rfl, -⟩
        · -- it would end in the gap
          exfalso
          rcases List.eq_nil_or_concat r with rfl | ⟨q, d, rfl⟩
          · rw [List.append_nil] at hc
            rw [hw.2 c hc] at hspace
            cases hspace
          · have hd : d = ' ' := (List.mem_replicate.mp (h.subset (by simp))).2
            have hlast := (trim_eq_self_iff.mp htrim).2 d (by simp)
            rw [hd] at hlast
            cases hlast
        · rw [List.length_append, List.length_append, List.length_replicate]
          omega
      · exact fun h => by cases h

end Interpreter

end FlashEdge
