import FlashEdge.Theory.WordMatches

/-!
# Matches in a text whose characters are changed

A map of characters that no class of an expression can tell from the identity, such as the change
to small letters for an expression with the flag `i`, changes what is found in a text and nothing
else: the search takes the same way.

- `Pattern.blind`: no class of the pattern sees the map.
- `results_map`: the search in a changed text.
- `Found`: the matches of a pattern.
- `replaceAll_congr`: two texts that the map makes equal are still made equal after a
  replacement.
-/

namespace FlashEdge

section Mapped

variable (f : Char → Char)

/-- The cursor in a changed text. -/
def Cursor.map (s : Cursor) : Cursor where
  before := s.before.map f
  after := s.after.map f
  captures := s.captures.map fun capture => (capture.1, capture.2.map f)

/-- The match in a changed text. -/
def Match.map (m : Match) : Match where
  before := m.before.map f
  matched := m.matched.map f
  after := m.after.map f
  captures := m.captures.map fun capture => (capture.1, capture.2.map f)

theorem Match.group?_map (m : Match) (n : ℕ) : (m.map f).group? n = (m.group? n).map (·.map f) := by
  unfold Match.group? Match.map
  dsimp only
  rw [List.find?_map, Option.map_map, Option.map_map]
  rfl

theorem Match.group_map (m : Match) (n : ℕ) : (m.map f).group n = (m.group n).map f := by
  unfold Match.group
  rw [Match.group?_map]
  cases m.group? n with
  | none => rfl
  | some t => rfl

end Mapped

namespace Pattern

variable {f : Char → Char}

/-- No class of the pattern sees the map. -/
def blind (f : Char → Char) : Pattern → Prop
  | char test => ∀ c, test (f c) = test c
  | seq p q => blind f p ∧ blind f q
  | alt p q => blind f p ∧ blind f q
  | many test => ∀ c, test (f c) = test c
  | manyLazy test => ∀ c, test (f c) = test c
  | optional p => blind f p
  | group _ p => blind f p
  | _ => True

theorem blind_seqs {ps : List Pattern} (h : ∀ p ∈ ps, p.blind f) : (seqs ps).blind f := by
  induction ps with
  | nil => trivial
  | cons p ps ih =>
    have hrest := ih fun q hq => h q (List.mem_cons_of_mem p hq)
    cases ps with
    | nil => exact h p List.mem_cons_self
    | cons q ps => exact ⟨h p List.mem_cons_self, hrest⟩

theorem blind_alts {ps : List Pattern} (h : ∀ p ∈ ps, p.blind f) : (alts ps).blind f := by
  induction ps with
  | nil => exact fun _ => rfl
  | cons p ps ih =>
    have hrest := ih fun q hq => h q (List.mem_cons_of_mem p hq)
    cases ps with
    | nil => exact h p List.mem_cons_self
    | cons q ps => exact ⟨h p List.mem_cons_self, hrest⟩

theorem spans_map {test : Char → Bool} (htest : ∀ c, test (f c) = test c)
    (before after : List Char) :
    spans test (before.map f) (after.map f) =
      (spans test before after).map fun r => (r.1.map f, r.2.map f) := by
  induction after generalizing before with
  | nil => rfl
  | cons c after ih =>
    have hrest := ih (c :: before)
    rw [List.map_cons] at hrest
    rw [List.map_cons, spans, spans, htest]
    split
    · rw [List.map_append, hrest]
      rfl
    · rfl

theorem any_head_map {test : Char → Bool} (htest : ∀ c, test (f c) = test c) (t : List Char) :
    (t.map f).head?.any test = t.head?.any test := by
  cases t with
  | nil => rfl
  | cons c t => exact htest c

/-- **The search in a changed text takes the same way.** -/
theorem results_map (hword : ∀ c, isWord (f c) = isWord c) {p : Pattern} (hp : p.blind f)
    (s : Cursor) : p.results (s.map f) = (p.results s).map (Cursor.map f) := by
  induction p generalizing s with
  | empty => rfl
  | char test =>
    obtain ⟨before, after, captures⟩ := s
    cases after with
    | nil => rfl
    | cons c after =>
      show (if test (f c) = true then _ else _) = List.map _ (if test c = true then _ else _)
      rw [hp c]
      split
      · rfl
      · rfl
  | seq p q ihp ihq =>
    rw [results, results, ihp hp.1, List.flatMap_map, List.map_flatMap]
    exact List.flatMap_congr fun r _ => ihq hp.2 r
  | alt p q ihp ihq => rw [results, results, ihp hp.1, ihq hp.2, List.map_append]
  | many test =>
    show (spans test (s.before.map f) (s.after.map f)).map _ = List.map _ (List.map _ _)
    rw [spans_map hp, List.map_map, List.map_map]
    rfl
  | manyLazy test =>
    show (spans test (s.before.map f) (s.after.map f)).reverse.map _ = List.map _ (List.map _ _)
    rw [spans_map hp, ← List.map_reverse, List.map_map, List.map_map]
    rfl
  | optional p ih =>
    rw [results, results, ih hp, List.map_append]
    rfl
  | group n p ih =>
    rw [results, results, ih hp, List.map_map, List.map_map]
    refine List.map_congr_left fun r _ => ?_
    have hread :
        ((r.before.map f).take ((r.before.map f).length - (s.before.map f).length)).reverse =
          ((r.before.take (r.before.length - s.before.length)).reverse).map f := by
      rw [List.length_map, List.length_map, List.map_reverse, List.map_take]
    simp only [Function.comp, Cursor.map, hread, List.map_cons]
  | start =>
    show (if s.before.map f = [] then _ else _) = List.map _ (if s.before = [] then _ else _)
    rw [apply_ite (List.map (Cursor.map f))]
    exact if_congr List.map_eq_nil_iff rfl rfl
  | stop =>
    show (if s.after.map f = [] then _ else _) = List.map _ (if s.after = [] then _ else _)
    rw [apply_ite (List.map (Cursor.map f))]
    exact if_congr List.map_eq_nil_iff rfl rfl
  | boundary =>
    have hsame : atBoundary (s.map f) = atBoundary s := by
      unfold atBoundary Cursor.map
      rw [any_head_map hword, any_head_map hword]
    rw [results, results, hsame]
    split
    · rfl
    · rfl

theorem toMatch_map (s r : Cursor) : toMatch (s.map f) (r.map f) = (toMatch s r).map f := by
  unfold toMatch Cursor.map Match.map
  dsimp only
  rw [List.length_map, List.length_map, List.map_reverse, List.map_reverse, List.map_take]

/-- A match of the pattern, at some position of some text. -/
def Found (p : Pattern) (m : Match) : Prop :=
  ∃ before after r, r ∈ p.results { before, after } ∧ m = toMatch { before, after } r

section Texts

variable (hword : ∀ c, isWord (f c) = isWord c) {p : Pattern} (hp : p.blind f)

include hword hp

/-- The searches in two texts that the map makes equal find the same up to the map. -/
theorem results_congr {s s' : Cursor} (h : s.map f = s'.map f) :
    (p.results s).map (Cursor.map f) = (p.results s').map (Cursor.map f) := by
  rw [← results_map hword hp, ← results_map hword hp, h]

variable {g : Match → List Char}
  (hg : ∀ m m' : Match, p.Found m → p.Found m' → m.map f = m'.map f → (g m).map f = (g m').map f)

include hg

theorem replaceFrom_congr {before before' t u : List Char}
    (hbefore : before.map f = before'.map f) (h : t.map f = u.map f) (skip : ℕ) :
    (p.replaceFrom g before skip t).map f = (p.replaceFrom g before' skip u).map f := by
  induction t generalizing u before before' skip with
  | nil =>
    obtain rfl : u = [] := List.map_eq_nil_iff.mp h.symm
    rfl
  | cons c t ih =>
    obtain ⟨d, u, rfl⟩ := List.exists_cons_of_ne_nil (l := u) fun hnil => by
      rw [hnil] at h
      cases h
    obtain ⟨hcd, htu⟩ := List.cons.inj h
    have hleft : (c :: before).map f = (d :: before').map f := by
      rw [List.map_cons, List.map_cons, hcd, hbefore]
    cases skip with
    | succ skip => exact ih hleft htu skip
    | zero =>
      have hsame : Cursor.map f { before, after := c :: t } =
          Cursor.map f { before := before', after := d :: u } := by
        unfold Cursor.map
        dsimp only
        rw [hbefore, h]
      have hres := results_congr hword hp hsame
      rw [replaceFrom, replaceFrom]
      cases hc : p.results { before, after := c :: t } with
      | nil =>
        rw [hc] at hres
        rw [List.map_eq_nil_iff.mp hres.symm, List.map_cons, List.map_cons, hcd]
        exact congrArg _ (ih hleft htu 0)
      | cons r rs =>
        rw [hc] at hres
        obtain ⟨r', rs', hd, hsuccess, -⟩ := List.map_eq_cons_iff.mp hres.symm
        have hmatch : (toMatch { before, after := c :: t } r).map f =
            (toMatch { before := before', after := d :: u } r').map f := by
          rw [← toMatch_map, ← toMatch_map, hsame, hsuccess]
        have hr := hc ▸ List.mem_cons_self (a := r) (l := rs)
        have hr' := hd ▸ List.mem_cons_self (a := r') (l := rs')
        have hlength := congrArg (fun m : Match => m.matched.length) hmatch
        simp only [Match.map, List.length_map] at hlength
        rw [hd]
        dsimp only
        rw [List.map_append, List.map_append,
          hg _ _ ⟨before, c :: t, r, hr, rfl⟩ ⟨before', d :: u, r', hr', rfl⟩ hmatch, ← hlength]
        exact congrArg _ (ih hleft htu _)

/-- **Texts that the map makes equal are still made equal after a replacement.** -/
theorem replaceAll_congr {t u : List Char} (h : t.map f = u.map f) :
    (p.replaceAll g t).map f = (p.replaceAll g u).map f :=
  replaceFrom_congr hword hp hg rfl h 0

end Texts

end Pattern

end FlashEdge
