import FlashEdge.Theory.Regex

/-!
# Matches inside the words of a text

An expression that reads no separator and does not look at the ends of the text finds in a text
of words what it finds in the words, one after another: a word boundary at the end of a word is
one in front of a separator too.

- `Pattern.stays`: the pattern reads no separator, nor has it an anchor.
- `results_widen`: the search does not see what stands around a word.
- `exec_sep`: the match in a text of two parts.
- `exec_joined`, `exec_joined_none`: the match in a text of words.
- `replaceAll_joined`: a replacement in a text of words.
- `exec_congr`, `exec_eq_none_iff`: matches, position by position.
-/

namespace FlashEdge

/-- The cursor in a longer text, with captures of before. `left` has the nearest character
first. -/
def Cursor.widen (left right : List Char) (captures : List (ℕ × List Char)) (s : Cursor) : Cursor
    where
  before := s.before ++ left
  after := s.after ++ right
  captures := s.captures ++ captures

/-- The match in a longer text. -/
def Match.widen (left right : List Char) (m : Match) : Match :=
  { m with before := left ++ m.before, after := m.after ++ right }

namespace Pattern

/-- The pattern reads no `sep`, and has no anchor. -/
def stays (sep : Char) : Pattern → Bool
  | char test => !test sep
  | seq p q => stays sep p && stays sep q
  | alt p q => stays sep p && stays sep q
  | many test => !test sep
  | manyLazy test => !test sep
  | optional p => stays sep p
  | group _ p => stays sep p
  | start => false
  | stop => false
  | empty => true
  | boundary => true

/-- A text that ends here, or goes on with a separator. -/
def Parted (sep : Char) (right : List Char) : Prop := right = [] ∨ ∃ rest, right = sep :: rest

variable {sep : Char}

theorem spans_widen {test : Char → Bool} (hsep : test sep = false) {left right : List Char}
    (hright : Parted sep right) (before after : List Char) :
    spans test (before ++ left) (after ++ right) =
      (spans test before after).map fun r => (r.1 ++ left, r.2 ++ right) := by
  induction after generalizing before with
  | nil =>
    rcases hright with rfl | ⟨rest, rfl⟩
    · rfl
    · simp [spans, hsep]
  | cons c after ih =>
    rw [List.cons_append, spans, spans]
    split
    · rw [List.map_append, ← ih (c :: before)]
      rfl
    · rfl

theorem atBoundary_widen (hsep : isWord sep = false) {left right : List Char}
    (hleft : left.head?.any isWord = false) (hright : Parted sep right)
    (captures : List (ℕ × List Char)) (s : Cursor) :
    atBoundary (s.widen left right captures) = atBoundary s := by
  obtain ⟨before, after, cs⟩ := s
  unfold atBoundary Cursor.widen
  dsimp only
  congr 1
  · cases before with
    | nil => exact hleft
    | cons c before => rfl
  · cases after with
    | nil =>
      rcases hright with rfl | ⟨rest, rfl⟩
      · rfl
      · exact hsep
    | cons c after => rfl

/-- **The search does not see what stands around a word.** -/
theorem results_widen {p : Pattern} (hp : p.stays sep = true) (hsep : isWord sep = false)
    {left right : List Char} (hleft : left.head?.any isWord = false) (hright : Parted sep right)
    (captures : List (ℕ × List Char)) (s : Cursor) :
    p.results (s.widen left right captures) =
      (p.results s).map (Cursor.widen left right captures) := by
  induction p generalizing s with
  | empty => rfl
  | char test =>
    have htest : test sep = false := by simpa [stays] using hp
    obtain ⟨before, after, cs⟩ := s
    cases after with
    | nil =>
      rcases hright with rfl | ⟨rest, rfl⟩
      · rfl
      · show (if test sep = true then _ else _) = _
        rw [htest]
        rfl
    | cons c after =>
      show (if test c = true then _ else _) = List.map _ (if test c = true then _ else _)
      split
      · rfl
      · rfl
  | seq p q ihp ihq =>
    obtain ⟨hp, hq⟩ := Bool.and_eq_true_iff.mp hp
    show (p.results (s.widen left right captures)).flatMap q.results = _
    rw [ihp hp, List.flatMap_map, results, List.map_flatMap]
    exact List.flatMap_congr fun r _ => ihq hq r
  | alt p q ihp ihq =>
    obtain ⟨hp, hq⟩ := Bool.and_eq_true_iff.mp hp
    rw [results, results, List.map_append, ihp hp, ihq hq]
  | many test =>
    have htest : test sep = false := by simpa [stays] using hp
    show (spans test (s.before ++ left) (s.after ++ right)).map _ = List.map _ (List.map _ _)
    rw [spans_widen htest hright, List.map_map, List.map_map]
    rfl
  | manyLazy test =>
    have htest : test sep = false := by simpa [stays] using hp
    show (spans test (s.before ++ left) (s.after ++ right)).reverse.map _ =
      List.map _ (List.map _ _)
    rw [spans_widen htest hright, ← List.map_reverse, List.map_map, List.map_map]
    rfl
  | optional p ih =>
    rw [results, results, List.map_append, ih hp]
    rfl
  | group n p ih =>
    show List.map _ (p.results (s.widen left right captures)) = List.map _ (List.map _ _)
    rw [ih hp, List.map_map, List.map_map]
    refine List.map_congr_left fun r _ => ?_
    have hread : (r.before ++ left).take ((r.before ++ left).length - (s.before ++ left).length) =
        r.before.take (r.before.length - s.before.length) := by
      rw [List.length_append, List.length_append, Nat.add_sub_add_right,
        List.take_append_of_le_length (Nat.sub_le _ _)]
    simp only [Function.comp, Cursor.widen, hread, List.cons_append]
  | start => cases hp
  | stop => cases hp
  | boundary =>
    rw [results, results, atBoundary_widen hsep hleft hright]
    split
    · rfl
    · rfl

theorem toMatch_widen {s r : Cursor} (left right : List Char) :
    toMatch (s.widen left right []) (r.widen left right []) =
      (toMatch s r).widen left.reverse right := by
  unfold toMatch Cursor.widen Match.widen
  dsimp only
  rw [List.length_append, List.length_append, Nat.add_sub_add_right,
    List.take_append_of_le_length (Nat.sub_le _ _), List.reverse_append, List.append_nil]

/-! ## Positions -/

/-- The match at a position. -/
def matchAt (p : Pattern) (before after : List Char) : Option Match :=
  (p.results { before, after }).head?.map (toMatch { before, after })

theorem execFrom_nil (p : Pattern) (before : List Char) :
    p.execFrom before [] = p.matchAt before [] := by
  unfold matchAt
  rw [execFrom]
  cases p.results { before, after := [] } with
  | nil => rfl
  | cons r rs => rfl

theorem execFrom_cons (p : Pattern) (before : List Char) (c : Char) (rest : List Char) :
    p.execFrom before (c :: rest) =
      (p.matchAt before (c :: rest)).or (p.execFrom (c :: before) rest) := by
  unfold matchAt
  rw [execFrom]
  cases p.results { before, after := c :: rest } with
  | nil => rfl
  | cons r rs => rfl

theorem matchAt_eq_none_iff {p : Pattern} {before after : List Char} :
    p.matchAt before after = none ↔ p.results { before, after } = [] := by
  unfold matchAt
  rw [Option.map_eq_none_iff, List.head?_eq_none_iff]

/-- What is found at the beginning is the match. -/
theorem exec_of_results {p : Pattern} {text : List Char} {r : Cursor} {rs : List Cursor}
    (h : p.results { before := [], after := text } = r :: rs) :
    p.exec text = some (toMatch { before := [], after := text } r) := by
  unfold exec
  rw [execFrom.eq_def, h]

/-- Two expressions that find the same everywhere have the same match. -/
theorem exec_congr {p q : Pattern} {text : List Char}
    (h : ∀ v rest, text = v ++ rest →
      p.results { before := v.reverse, after := rest } =
        q.results { before := v.reverse, after := rest }) :
    p.exec text = q.exec text := by
  have hfrom : ∀ after before, text = before.reverse ++ after →
      p.execFrom before after = q.execFrom before after := by
    intro after
    induction after with
    | nil =>
      intro before hsplit
      have hsame := h before.reverse [] hsplit
      rw [List.reverse_reverse] at hsame
      rw [execFrom_nil, execFrom_nil, matchAt, matchAt, hsame]
    | cons c after ih =>
      intro before hsplit
      have hsame := h before.reverse (c :: after) hsplit
      have hrest := ih (c :: before) (by rw [hsplit, List.reverse_cons, List.append_assoc]; rfl)
      rw [List.reverse_reverse] at hsame
      rw [execFrom_cons, execFrom_cons, matchAt, matchAt, hsame, hrest]
  exact hfrom text [] rfl

/-- There is no match where the search finds nothing anywhere. -/
theorem exec_eq_none_iff {p : Pattern} {text : List Char} :
    p.exec text = none ↔ ∀ v rest, text = v ++ rest →
      p.results { before := v.reverse, after := rest } = [] := by
  have hfrom : ∀ after before, p.execFrom before after = none ↔
      ∀ v rest, after = v ++ rest →
        p.results { before := v.reverse ++ before, after := rest } = [] := by
    intro after
    induction after with
    | nil =>
      intro before
      rw [execFrom_nil, matchAt_eq_none_iff]
      constructor
      · rintro h v rest hsplit
        obtain ⟨rfl, rfl⟩ := List.append_eq_nil_iff.mp hsplit.symm
        exact h
      · exact fun h => h [] [] rfl
    | cons c after ih =>
      intro before
      rw [execFrom_cons, Option.or_eq_none_iff, matchAt_eq_none_iff, ih]
      constructor
      · rintro ⟨hhere, hlater⟩ v rest hsplit
        cases v with
        | nil =>
          obtain rfl : c :: after = rest := hsplit
          exact hhere
        | cons d v =>
          obtain ⟨rfl, htail⟩ := List.cons.inj hsplit
          rw [List.reverse_cons, List.append_assoc]
          exact hlater v rest htail
      · refine fun h => ⟨h [] (c :: after) rfl, fun v rest hsplit => ?_⟩
        have hthere := h (c :: v) rest (by rw [hsplit]; rfl)
        rwa [List.reverse_cons, List.append_assoc] at hthere
  have hall := hfrom text []
  simp only [List.append_nil] at hall
  exact hall

/-- Without a match nothing is replaced. -/
theorem replaceAll_of_none {p : Pattern} {text : List Char} (h : p.exec text = none)
    (f : Match → List Char) : p.replaceAll f text = text := by
  refine replaceFrom_of_none fun v rest hsplit _ => ?_
  rw [List.append_nil]
  exact exec_eq_none_iff.mp h v rest hsplit

theorem replace_of_none {p : Pattern} {text : List Char} (h : p.exec text = none)
    (f : Match → List Char) : p.replace f text = text := by
  unfold replace
  rw [h]

/-- A pattern that begins with no character of a text, and is not empty, has no match in it. -/
theorem exec_none_of_chars {p : Pattern} (hp : p.nullable = false) {text : List Char}
    (h : ∀ c ∈ text, p.firstAllows c = false) : p.exec text = none := by
  refine exec_eq_none_iff.mpr fun v rest hsplit => ?_
  refine List.eq_nil_iff_forall_not_mem.mpr fun r hr => ?_
  obtain ⟨w, hw⟩ := results_success hr
  cases w with
  | nil =>
    have hnull := hw.nullable rfl
    rw [hp] at hnull
    cases hnull
  | cons c w =>
    have hafter : rest = c :: (w ++ r.after) := hw.reads.after
    have hfirst := hw.first c w rfl
    rw [h c (by rw [hsplit, hafter]; simp)] at hfirst
    cases hfirst

/-- Nor has one that reads something else in any case. -/
theorem exec_none_of_within {p : Pattern} {cs text : List Char} (hp : p.within cs = false)
    (h : ∀ c ∈ text, c ∈ cs) : p.exec text = none := by
  refine exec_eq_none_iff.mpr fun v rest hsplit => ?_
  refine List.eq_nil_iff_forall_not_mem.mpr fun r hr => ?_
  obtain ⟨w, hw⟩ := results_success hr
  have hafter : rest = w ++ r.after := hw.reads.after
  have hfit := hw.within cs fun c hc => h c (by rw [hsplit, hafter]; simp [hc])
  rw [hp] at hfit
  cases hfit

/-- Where an expression has no match, the search for it finds nothing, whatever has been
captured on the way. -/
theorem results_nil_of_exec {p : Pattern} (hp : p.stays sep = true) (hsep : isWord sep = false)
    {text : List Char} (h : p.exec text = none) {s : Cursor}
    (hs : text = s.before.reverse ++ s.after) : p.results s = [] := by
  have hnone := exec_eq_none_iff.mp h s.before.reverse s.after hs
  have hnoword : ([] : List Char).head?.any isWord = false := rfl
  have hwide := results_widen hp hsep hnoword (.inl rfl) s.captures
    { before := s.before, after := s.after }
  rw [List.reverse_reverse] at hnone
  rw [hnone] at hwide
  simpa [Cursor.widen] using hwide

/-! ## Texts of words -/

theorem intercalate_singleton (t : List Char) : [sep].intercalate [t] = t := List.append_nil t

theorem intercalate_cons (t u : List Char) (ts : List (List Char)) :
    [sep].intercalate (t :: u :: ts) = t ++ sep :: [sep].intercalate (u :: ts) := rfl

/-- The words behind the first one, each behind a separator. -/
theorem intercalate_eq (t : List Char) (ts : List (List Char)) :
    [sep].intercalate (t :: ts) = t ++ ts.flatMap fun u => sep :: u := by
  induction ts generalizing t with
  | nil => rfl
  | cons u ts ih =>
    rw [intercalate_cons, ih, List.flatMap_cons]
    rfl

section Joined

variable {p : Pattern} (hp : p.stays sep = true) (hsep : isWord sep = false)

include hp hsep

theorem matchAt_widen {left right : List Char} (hleft : left.head?.any isWord = false)
    (hright : Parted sep right) (before after : List Char) :
    p.matchAt (before ++ left) (after ++ right) =
      (p.matchAt before after).map (Match.widen left.reverse right) := by
  have hres := results_widen hp hsep hleft hright [] { before, after }
  unfold matchAt
  show ((p.results (Cursor.widen left right [] { before, after })).head?.map
    (toMatch (Cursor.widen left right [] { before, after }))) = _
  rw [hres]
  cases p.results { before, after } with
  | nil => rfl
  | cons r rs => exact congrArg some (toMatch_widen left right)

theorem execFrom_left {left : List Char} (hleft : left.head?.any isWord = false)
    (before after : List Char) :
    p.execFrom (before ++ left) after =
      (p.execFrom before after).map (Match.widen left.reverse []) := by
  have hhere := fun before after =>
    matchAt_widen hp hsep hleft (.inl rfl : Parted sep []) before after
  simp only [List.append_nil] at hhere
  induction after generalizing before with
  | nil => rw [execFrom_nil, execFrom_nil, hhere]
  | cons c after ih =>
    rw [execFrom_cons, execFrom_cons, hhere, ← List.cons_append, ih, Option.map_or]

theorem execFrom_sep (a b before : List Char) :
    p.execFrom before (a ++ sep :: b) =
      ((p.execFrom before a).map (Match.widen [] (sep :: b))).or
        (p.execFrom (sep :: (a.reverse ++ before)) b) := by
  have hnoword : ([] : List Char).head?.any isWord = false := rfl
  have hhere := fun before after =>
    matchAt_widen hp hsep hnoword (.inr ⟨b, rfl⟩ : Parted sep (sep :: b)) before after
  simp only [List.append_nil, List.reverse_nil] at hhere
  induction a generalizing before with
  | nil =>
    have hsplit := hhere before []
    rw [List.nil_append] at hsplit
    rw [List.nil_append, execFrom_cons, execFrom_nil, hsplit]
    rfl
  | cons c a ih =>
    rw [List.cons_append, execFrom_cons, execFrom_cons, ← List.cons_append, hhere, ih,
      Option.map_or, Option.or_assoc, List.reverse_cons, List.append_assoc]
    rfl

/-- The match in a text of two parts is that of the first, or else that of the second. -/
theorem exec_sep (a b : List Char) :
    p.exec (a ++ sep :: b) =
      ((p.exec a).map (Match.widen [] (sep :: b))).or
        ((p.exec b).map (Match.widen (a ++ [sep]) [])) := by
  have hnoword : (sep :: a.reverse).head?.any isWord = false := hsep
  have hleft := execFrom_left hp hsep hnoword [] b
  have hreverse : (sep :: a.reverse).reverse = a ++ [sep] := by
    rw [List.reverse_cons, List.reverse_reverse]
  unfold exec
  rw [execFrom_sep hp hsep, List.append_nil]
  rw [List.nil_append, hreverse] at hleft
  rw [hleft]

/-- Words without a match make a text without one. -/
theorem exec_joined_none {ts : List (List Char)} (hnil : p.exec [] = none)
    (hts : ∀ t ∈ ts, p.exec t = none) : p.exec ([sep].intercalate ts) = none := by
  induction ts with
  | nil => exact hnil
  | cons t ts ih =>
    have ht := hts t List.mem_cons_self
    have ih := ih fun u hu => hts u (List.mem_cons_of_mem t hu)
    cases ts with
    | nil =>
      rw [intercalate_singleton]
      exact ht
    | cons u ts =>
      rw [intercalate_cons, exec_sep hp hsep, ht, ih]
      rfl

/-- The match in a text of words is that of the first word that has one. -/
theorem exec_joined {pre post : List (List Char)} {w : List Char} {m : Match}
    (hpre : ∀ t ∈ pre, p.exec t = none) (hw : p.exec w = some m) :
    p.exec ([sep].intercalate (pre ++ w :: post)) =
      some (m.widen (pre.flatMap fun t => t ++ [sep]) (post.flatMap fun t => sep :: t)) := by
  induction pre with
  | nil =>
    cases post with
    | nil =>
      rw [List.nil_append, intercalate_singleton, hw]
      simp [Match.widen]
    | cons u post =>
      rw [List.nil_append, intercalate_cons, exec_sep hp hsep, hw, intercalate_eq]
      rfl
  | cons t pre ih =>
    have ih := ih fun u hu => hpre u (List.mem_cons_of_mem t hu)
    obtain ⟨u, us, hus⟩ := List.exists_cons_of_ne_nil
      (List.append_ne_nil_of_right_ne_nil pre (List.cons_ne_nil w post))
    rw [List.cons_append, hus, intercalate_cons, ← hus, exec_sep hp hsep,
      hpre t List.mem_cons_self, ih]
    simp [Match.widen]

/-! A replacement works word by word, if it does not look at what stands around the match. -/

variable (hnull : p.nullable = false) {f : Match → List Char}
  (hf : ∀ m left right, f (m.widen left right) = f m)

include hf

theorem replaceFrom_left {left : List Char} (hleft : left.head?.any isWord = false)
    (before : List Char) (skip : ℕ) (after : List Char) :
    p.replaceFrom f (before ++ left) skip after = p.replaceFrom f before skip after := by
  induction after generalizing before skip with
  | nil => rw [replaceFrom, replaceFrom]
  | cons c after ih =>
    cases skip with
    | succ skip =>
      rw [replaceFrom, replaceFrom]
      exact ih (c :: before) skip
    | zero =>
      have hres := results_widen hp hsep hleft (.inl rfl : Parted sep []) []
        { before, after := c :: after }
      have hwide : Cursor.widen left [] [] { before, after := c :: after } =
          { before := before ++ left, after := c :: after } := by
        unfold Cursor.widen
        rw [List.append_nil, List.append_nil]
      rw [replaceFrom, replaceFrom, ← hwide, hres]
      cases p.results { before, after := c :: after } with
      | nil => exact congrArg (c :: ·) (ih (c :: before) 0)
      | cons r rs =>
        rw [List.map_cons]
        dsimp only
        rw [toMatch_widen, hf]
        exact congrArg _ (ih (c :: before) _)

include hnull

theorem replaceFrom_sep (a b before : List Char) {skip : ℕ} (hskip : skip ≤ a.length) :
    p.replaceFrom f before skip (a ++ sep :: b) =
      p.replaceFrom f before skip a ++ sep :: p.replaceAll f b := by
  have hnoword : ([] : List Char).head?.any isWord = false := rfl
  have hhere : ∀ before after, p.results { before, after := after ++ sep :: b } =
      (p.results { before, after }).map (Cursor.widen [] (sep :: b) []) := by
    intro before after
    have hwide : Cursor.widen [] (sep :: b) [] { before, after } =
        { before, after := after ++ sep :: b } := by
      unfold Cursor.widen
      rw [List.append_nil, List.append_nil]
    rw [← hwide]
    exact results_widen hp hsep hnoword (.inr ⟨b, rfl⟩ : Parted sep (sep :: b)) [] _
  induction a generalizing before skip with
  | nil =>
    obtain rfl : skip = 0 := Nat.le_zero.mp hskip
    -- a success in front of the separator would read nothing
    have hnone : p.results { before, after := [] } = [] := by
      refine List.eq_nil_iff_forall_not_mem.mpr fun r hr => ?_
      obtain ⟨w, hw⟩ := results_success hr
      have hread : [] = w ++ r.after := hw.reads.after
      have hempty := hw.nullable (List.append_eq_nil_iff.mp hread.symm).1
      rw [hnull] at hempty
      cases hempty
    have hsepnone : p.results { before, after := sep :: b } = [] := by
      have hwide := hhere before []
      rwa [hnone] at hwide
    have hleft : (sep :: before).head?.any isWord = false := hsep
    have hrest := replaceFrom_left hp hsep hf hleft [] 0 b
    rw [List.nil_append, replaceFrom, replaceFrom, hsepnone]
    exact congrArg (sep :: ·) hrest
  | cons c a ih =>
    cases skip with
    | succ skip =>
      rw [List.cons_append, replaceFrom, replaceFrom]
      exact ih (c :: before) (Nat.le_of_succ_le_succ hskip)
    | zero =>
      have hres := hhere before (c :: a)
      rw [List.cons_append] at hres ⊢
      rw [replaceFrom, replaceFrom, hres]
      cases hfound : p.results { before, after := c :: a } with
      | nil => exact congrArg (c :: ·) (ih (c :: before) (Nat.zero_le _))
      | cons r rs =>
        have hr : r ∈ p.results { before, after := c :: a } := hfound ▸ List.mem_cons_self
        obtain ⟨w, hw⟩ := results_success hr
        have hlen : w.length - 1 ≤ a.length := by
          have hafter : c :: a = w ++ r.after := hw.reads.after
          have hcount := congrArg List.length hafter
          rw [List.length_append, List.length_cons] at hcount
          omega
        have hmatch : toMatch { before, after := c :: (a ++ sep :: b) }
            (r.widen [] (sep :: b) []) =
              (toMatch { before, after := c :: a } r).widen [] (sep :: b) := by
          have hwide := toMatch_widen (s := { before, after := c :: a }) (r := r) [] (sep :: b)
          simpa [Cursor.widen] using hwide
        have hmatched : ((toMatch { before, after := c :: a } r).widen [] (sep :: b)).matched = w :=
          toMatch_matched hw.reads
        rw [List.map_cons]
        dsimp only
        rw [hmatch, hf, hmatched, toMatch_matched hw.reads, List.append_assoc]
        exact congrArg _ (ih (c :: before) hlen)

/-- **A replacement works word by word.** -/
theorem replaceAll_joined (ts : List (List Char)) :
    p.replaceAll f ([sep].intercalate ts) = [sep].intercalate (ts.map (p.replaceAll f)) := by
  induction ts with
  | nil => rfl
  | cons t ts ih =>
    cases ts with
    | nil => rw [List.map_singleton, intercalate_singleton, intercalate_singleton]
    | cons u ts =>
      rw [List.map_cons, List.map_cons, intercalate_cons, intercalate_cons, ← List.map_cons, ← ih]
      exact replaceFrom_sep hp hsep hnull hf t _ [] (Nat.zero_le _)

end Joined

end Pattern

end FlashEdge
