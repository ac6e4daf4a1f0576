import FlashEdge.Theory.Regex

/-!
# Forced readings

A search that backtracks rarely has a choice. A repetition tries to stop earlier only where one
more of its characters follows, and a pattern that cannot begin with such a character finds
nothing there. So a pattern often leads to one position, as far as what stands behind it is
concerned, and a sequence can be computed step by step.

- `Leads p t s o`: from `s` the pattern leads to `o`, and else only in front of a character of
  the class `t`.
- `Apart t q`: the pattern `q` finds nothing in front of such a character.
- `apart_of_first`: a pattern that reads something, and begins otherwise.
- `Leads.results`, `Leads.seq`: what follows goes on from `o` alone.
- `leads_many`, `leads_many1`, `leads_group`, `leads_lit`, `leads_oneOf`: where the common
  patterns lead.
-/

namespace FlashEdge

namespace Pattern

/-- The position behind the characters of a class that follow. -/
def munch (test : Char → Bool) (s : Cursor) : Cursor :=
  { s with before := (s.after.takeWhile test).reverse ++ s.before,
           after := s.after.dropWhile test }

/-- The position behind as many characters as a text has. -/
def advance (w : List Char) (s : Cursor) : Cursor :=
  { s with before := w.reverse ++ s.before, after := s.after.drop w.length }

/-- The group has captured what was read from `s` to `r`. -/
def capture (n : ℕ) (s r : Cursor) : Cursor :=
  { r with captures :=
      (n, (r.before.take (r.before.length - s.before.length)).reverse) :: r.captures }

/-- What a group has captured is what was read. -/
theorem capture_captures {s r : Cursor} {w : List Char} (h : Reads s w r) (n : ℕ) :
    (capture n s r).captures = (n, w) :: r.captures := by
  show (n, (List.take _ r.before).reverse) :: r.captures = _
  have hmatched : (List.take (r.before.length - s.before.length) r.before).reverse = w :=
    toMatch_matched h
  rw [hmatched]

/-- The next character is of the class. -/
def Before (test : Char → Bool) (s : Cursor) : Prop :=
  ∃ c rest, s.after = c :: rest ∧ test c = true

/-- From `s` the pattern leads to `o`, and else only in front of a character of the class. -/
def Leads (p : Pattern) (test : Char → Bool) (s : Cursor) (o : Option Cursor) : Prop :=
  ∃ others, p.results s = o.toList ++ others ∧ ∀ r ∈ others, Before test r

/-- The pattern finds nothing in front of a character of the class. -/
def Apart (test : Char → Bool) (q : Pattern) : Prop := ∀ s, Before test s → q.results s = []

/-- No character at all. -/
def nowhere (_ : Char) : Bool := false

theorem apart_nowhere (q : Pattern) : Apart nowhere q := by
  rintro s ⟨c, rest, -, hc⟩
  cases hc

theorem apart_stop (test : Char → Bool) : Apart test stop := by
  rintro s ⟨c, rest, hafter, -⟩
  rw [results, if_neg (by rw [hafter]; exact List.cons_ne_nil c rest)]

/-- A pattern that reads something, and begins otherwise. -/
theorem apart_of_first {test : Char → Bool} {q : Pattern} (hnullable : q.nullable = false)
    (hfirst : ∀ c, q.firstAllows c = true → test c = false) : Apart test q := by
  rintro s ⟨c, rest, hafter, hc⟩
  refine List.eq_nil_iff_forall_not_mem.mpr fun r hr => ?_
  obtain ⟨w, hw⟩ := results_success hr
  cases w with
  | nil =>
    have hnull := hw.nullable rfl
    rw [hnullable] at hnull
    cases hnull
  | cons d w =>
    obtain ⟨rfl, -⟩ := List.cons.inj (hafter.symm.trans hw.reads.after)
    rw [hfirst c (hw.first c w rfl)] at hc
    cases hc

/-! ## Sequences -/

namespace Leads

variable {p q : Pattern} {test test' : Char → Bool} {s : Cursor} {o : Option Cursor}

/-- What finds nothing elsewhere goes on from the one position. -/
theorem results (h : Leads p test s o) (hq : Apart test q) :
    (seq p q).results s = o.elim [] q.results := by
  obtain ⟨others, hresults, hothers⟩ := h
  have hdead : others.flatMap q.results = [] :=
    List.flatMap_eq_nil_iff.mpr fun r hr => hq r (hothers r hr)
  show (p.results s).flatMap q.results = _
  rw [hresults, List.flatMap_append, hdead, List.append_nil]
  cases o with
  | none => rfl
  | some m => exact List.flatMap_singleton _ _

theorem seq (h : Leads p test s o) (hq : Apart test q) {f : Cursor → Option Cursor}
    (hf : ∀ m, o = some m → Leads q test' m (f m)) :
    Leads (Pattern.seq p q) test' s (o.bind f) := by
  unfold Leads
  rw [h.results hq]
  cases o with
  | none => exact ⟨[], rfl, fun _ hr => by cases hr⟩
  | some m => exact hf m rfl

theorem group (h : Leads p test s o) (n : ℕ) :
    Leads (Pattern.group n p) test s (o.map (capture n s)) := by
  obtain ⟨others, hresults, hothers⟩ := h
  refine ⟨others.map (capture n s), ?_, ?_⟩
  · show (p.results s).map (capture n s) = _
    rw [hresults, List.map_append]
    cases o with
    | none => rfl
    | some m => rfl
  · intro r hr
    obtain ⟨m, hm, rfl⟩ := List.mem_map.mp hr
    exact hothers m hm

end Leads

/-! ## Repetitions -/

theorem spans_munch (test : Char → Bool) (before after : List Char) :
    ∃ others, spans test before after =
        ((after.takeWhile test).reverse ++ before, after.dropWhile test) :: others ∧
      ∀ r ∈ others, ∃ c rest, r.2 = c :: rest ∧ test c = true := by
  induction after generalizing before with
  | nil => exact ⟨[], rfl, fun _ hr => by cases hr⟩
  | cons c after ih =>
    rw [spans]
    split
    · next hc =>
      obtain ⟨others, hspans, hothers⟩ := ih (c :: before)
      refine ⟨others ++ [(before, c :: after)], ?_, ?_⟩
      · rw [hspans, List.takeWhile_cons_of_pos hc, List.dropWhile_cons_of_pos hc,
          List.reverse_cons, List.append_assoc]
        rfl
      · intro r hr
        rcases List.mem_append.mp hr with hr | hr
        · exact hothers r hr
        · obtain rfl := List.mem_singleton.mp hr
          exact ⟨c, after, rfl, hc⟩
    · next hc =>
      refine ⟨[], ?_, fun _ hr => by cases hr⟩
      rw [List.takeWhile_cons_of_neg hc, List.dropWhile_cons_of_neg hc]
      rfl

theorem leads_many (test : Char → Bool) (s : Cursor) :
    Leads (many test) test s (some (munch test s)) := by
  obtain ⟨others, hspans, hothers⟩ := spans_munch test s.before s.after
  refine ⟨others.map fun r => { s with before := r.1, after := r.2 }, ?_, ?_⟩
  · rw [results, hspans]
    rfl
  · intro r hr
    obtain ⟨m, hm, rfl⟩ := List.mem_map.mp hr
    exact hothers m hm

/-- Behind a repetition, when there is one character at least. -/
def munch1 (test : Char → Bool) (s : Cursor) : Option Cursor :=
  match s.after with
  | [] => none
  | c :: _ => if test c then some (munch test s) else none

theorem leads_many1 (test : Char → Bool) (s : Cursor) :
    Leads (many1 test) test s (munch1 test s) := by
  obtain ⟨before, after, captures⟩ := s
  cases after with
  | nil => exact ⟨[], rfl, fun _ hr => by cases hr⟩
  | cons c after =>
    by_cases hc : test c = true
    · obtain ⟨others, hresults, hothers⟩ :=
        leads_many test { before := c :: before, after, captures }
      refine ⟨others, ?_, hothers⟩
      unfold many1 munch1
      rw [results, results]
      dsimp only
      rw [if_pos hc, if_pos hc, List.flatMap_singleton, hresults]
      simp [munch, hc]
    · refine ⟨[], ?_, fun _ hr => by cases hr⟩
      unfold many1 munch1
      rw [results, results]
      dsimp only
      rw [if_neg hc, if_neg hc]
      rfl

/-- Some characters of a class, or none. -/
theorem results_many (test : Char → Bool) (s : Cursor) :
    (many test).results s = (many1 test).results s ++ [s] := by
  obtain ⟨before, after, captures⟩ := s
  cases after with
  | nil => rfl
  | cons c after =>
    show (spans test before (c :: after)).map _ =
      (if test c = true then [_] else []).flatMap (many test).results ++ [_]
    rw [spans]
    split
    · rw [List.map_append, List.flatMap_singleton]
      rfl
    · rfl

/-- A run of a class, and what stands behind it. -/
theorem takeWhile_run {test : Char → Bool} {v x : List Char} (hv : ∀ c ∈ v, test c = true)
    (hx : ∀ c ∈ x.head?, test c = false) : (v ++ x).takeWhile test = v := by
  rw [List.takeWhile_append_of_pos hv]
  cases x with
  | nil => exact List.append_nil v
  | cons c x =>
    rw [List.takeWhile_cons_of_neg (by rw [hx c rfl]; exact Bool.false_ne_true), List.append_nil]

theorem munch_run {test : Char → Bool} {v x : List Char} (hv : ∀ c ∈ v, test c = true)
    (hx : ∀ c ∈ x.head?, test c = false) (before : List Char) (captures : List (ℕ × List Char)) :
    munch test { before, after := v ++ x, captures } =
      { before := v.reverse ++ before, after := x, captures } := by
  have htake := takeWhile_run hv hx
  have hdrop : (v ++ x).dropWhile test = x := by
    have hsplit := List.takeWhile_append_dropWhile (p := test) (l := v ++ x)
    rw [htake] at hsplit
    exact List.append_cancel_left hsplit
  unfold munch
  dsimp only
  rw [htake, hdrop]

/-- Where a run of a class ends is determined by the text. -/
theorem run_unique {test : Char → Bool} {v w x y : List Char} (hv : ∀ c ∈ v, test c = true)
    (hw : ∀ c ∈ w, test c = true) (hx : ∀ c ∈ x.head?, test c = false)
    (hy : ∀ c ∈ y.head?, test c = false) (h : v ++ x = w ++ y) : v = w ∧ x = y := by
  have hvw : v = w := by rw [← takeWhile_run hv hx, h, takeWhile_run hw hy]
  subst hvw
  exact ⟨rfl, List.append_cancel_left h⟩

/-! ## Texts -/

theorem results_seqs_cons (p : Pattern) (ps : List Pattern) (s : Cursor) :
    (seqs (p :: ps)).results s = (p.results s).flatMap (seqs ps).results := by
  cases ps with
  | cons q ps => rfl
  | nil => exact (List.flatMap_singleton' _).symm

/-- A text is found where it stands. -/
theorem results_lit (w : String) (s : Cursor) :
    (lit w).results s = if w.toList <+: s.after then [advance w.toList s] else [] := by
  unfold lit literal
  generalize w.toList = w
  induction w generalizing s with
  | nil =>
    rw [if_pos List.nil_prefix]
    rfl
  | cons d w ih =>
    obtain ⟨before, after, captures⟩ := s
    rw [List.map_cons, results_seqs_cons, results]
    cases after with
    | nil => exact (if_neg (by simp)).symm
    | cons c after =>
      dsimp only
      by_cases hc : c = d
      · subst hc
        rw [if_pos (decide_eq_true rfl), List.flatMap_singleton, ih]
        by_cases hw : w <+: after
        · rw [if_pos hw, if_pos (List.cons_prefix_cons.mpr ⟨rfl, hw⟩)]
          simp [advance]
        · rw [if_neg hw, if_neg fun h => hw (List.cons_prefix_cons.mp h).2]
      · rw [if_neg (by simpa using hc), if_neg fun h => hc (List.cons_prefix_cons.mp h).1.symm]
        rfl

theorem leads_lit (w : String) (s : Cursor) :
    Leads (lit w) nowhere s (if w.toList <+: s.after then some (advance w.toList s) else none) := by
  refine ⟨[], ?_, fun _ hr => by cases hr⟩
  rw [results_lit, List.append_nil]
  split
  · rfl
  · rfl

theorem results_alts_cons (p : Pattern) (ps : List Pattern) (s : Cursor) :
    (alts (p :: ps)).results s = p.results s ++ (alts ps).results s := by
  cases ps with
  | cons q ps => rfl
  | nil =>
    have hnone : (alts []).results s = [] := by
      unfold alts results
      split
      · rfl
      · rfl
    rw [hnone, List.append_nil]
    rfl

/-- What alternatives find, one of them finds. -/
theorem mem_results_alts {ps : List Pattern} {s r : Cursor} (hr : r ∈ (alts ps).results s) :
    ∃ p ∈ ps, r ∈ p.results s := by
  induction ps with
  | nil =>
    unfold alts results at hr
    split at hr
    · cases hr
    · cases hr
  | cons p ps ih =>
    rw [results_alts_cons] at hr
    rcases List.mem_append.mp hr with hr | hr
    · exact ⟨p, List.mem_cons_self, hr⟩
    · obtain ⟨q, hq, hr⟩ := ih hr
      exact ⟨q, List.mem_cons_of_mem p hq, hr⟩

/-- Of texts none of which begins another one at most is found. -/
theorem leads_oneOf {ws : List String}
    (hws : ws.Pairwise fun v w => ¬ v.toList <+: w.toList ∧ ¬ w.toList <+: v.toList) (s : Cursor) :
    Leads (oneOf ws) nowhere s
      ((ws.find? fun w => w.toList <+: s.after).map fun w => advance w.toList s) := by
  refine ⟨[], ?_, fun _ hr => by cases hr⟩
  rw [List.append_nil]
  unfold oneOf
  induction hws with
  | nil =>
    unfold List.map alts results
    split
    · rfl
    · rfl
  | @cons w ws hw _ ih =>
    rw [List.map_cons, results_alts_cons, results_lit, ih]
    by_cases hprefix : w.toList <+: s.after
    · have hother : (ws.find? fun w => w.toList <+: s.after) = none := by
        refine List.find?_eq_none.mpr fun v hv hv' => ?_
        rcases List.prefix_or_prefix_of_prefix hprefix (of_decide_eq_true hv') with h | h
        · exact (hw v hv).1 h
        · exact (hw v hv).2 h
      have hfound : ((w :: ws).find? fun w => w.toList <+: s.after) = some w :=
        List.find?_cons_of_pos (decide_eq_true hprefix)
      rw [if_pos hprefix, hother, hfound]
      rfl
    · rw [if_neg hprefix, List.find?_cons_of_neg (by simpa using hprefix)]
      rfl

end Pattern

end FlashEdge
