import FlashEdge.Ai.OpenTokens
import FlashEdge.Theory.Regex

/-!
# Expressions over the spaces of an open

Some expressions of the parser for opens read spaces too: the split in front of a take-profit,
"leverage 2", "2 x", and what is taken off in front. On a text of tokens each comes down to
what single tokens are.

- `tpSlSplit_none`, `leverageNumber_none`: they need a word of their own.
- `exec_leverageWord`: a leverage is one token, unless a token begins with a word `x`.
- `stripLeading_open`: what is taken off in front of the tokens is the verb.
-/

namespace FlashEdge

namespace Interpreter

open Pattern

/-! ## Expressions that reach over a space -/

theorem isWord_of_space {c : Char} (hc : isSpace c = true) : isWord c = false := by
  refine Bool.eq_false_iff.mpr fun hword => ?_
  have hvisible : 33 ≤ c.toNat ∧ c.toNat ≤ 126 := by
    rcases Bool.or_eq_true_iff.mp hword with hword | hword
    · have hrange := toNat_alphanum hword
      omega
    · rw [of_decide_eq_true hword]
      decide
  rw [isSpace_visible hvisible] at hc
  cases hc

theorem results_boundary {s r : Cursor} (hr : r ∈ boundary.results s) :
    r = s ∧ atBoundary s = true := by
  rw [results] at hr
  obtain ⟨hs, hr⟩ := List.mem_ite_nil_right.mp hr
  exact ⟨List.mem_singleton.mp hr, hs⟩

/-- What spaces have read. -/
theorem results_spaces {s r : Cursor} (hr : r ∈ spaces.results s) :
    ∃ w, Reads s w r ∧ w ≠ [] ∧ ∀ c ∈ w, isSpace c = true := by
  obtain ⟨w, hw⟩ := results_success hr
  refine ⟨w, hw.reads, ?_, fun c hc => ?_⟩
  · rintro rfl
    cases hw.nullable rfl
  · have hallowed := hw.allowed c hc
    simpa [spaces, many1, allows] using hallowed

/-- Behind spaces a word begins at a boundary, and in front of them it ends at one. -/
theorem before_spaces {s r : Cursor} (hr : r ∈ spaces.results s) :
    s.after.head?.any isWord = false ∧ r.before.head?.any isWord = false := by
  obtain ⟨w, hreads, hne, hw⟩ := results_spaces hr
  constructor
  · obtain ⟨c, w, rfl⟩ := List.exists_cons_of_ne_nil hne
    rw [hreads.after]
    exact isWord_of_space (hw c List.mem_cons_self)
  · obtain ⟨v, c, rfl⟩ := (List.eq_nil_or_concat w).resolve_left hne
    rw [hreads.before, List.concat_eq_append, List.reverse_concat]
    exact isWord_of_space (hw c (by simp))

/-- Without a word `tp` or `sl` there is nothing to split off. -/
theorem tpSlSplit_none {text : List Char} (h : triggerWord.exec text = none) :
    tpSlSplit.exec text = none := by
  refine exec_eq_none_iff.mpr fun v rest hsplit => ?_
  refine List.eq_nil_iff_forall_not_mem.mpr fun r hr => ?_
  unfold tpSlSplit at hr
  rw [results_seqs_cons] at hr
  obtain ⟨s, hs, hr⟩ := List.mem_flatMap.mp hr
  rw [results_seqs_cons] at hr
  obtain ⟨m, hm, hr⟩ := List.mem_flatMap.mp hr
  rw [results_seqs_cons] at hr
  obtain ⟨b, hb, hr⟩ := List.mem_flatMap.mp hr
  rw [results_seqs_cons] at hr
  obtain ⟨e, he, -⟩ := List.mem_flatMap.mp hr
  obtain ⟨i, hi, -⟩ := List.mem_map.mp he
  rw [results_seqs_cons] at hi
  obtain ⟨k, hk, hi⟩ := List.mem_flatMap.mp hi
  rw [results_seqs_cons] at hi
  obtain ⟨j, hj, hi⟩ := List.mem_flatMap.mp hi
  rw [results_seqs_cons] at hi
  obtain ⟨l, hl, -⟩ := List.mem_flatMap.mp hi
  obtain ⟨rfl, hboundary⟩ := results_boundary hb
  obtain ⟨_, hreads⟩ := results_success hs
  obtain ⟨_, hreadm⟩ := results_success hm
  obtain ⟨w, hword⟩ := results_success hj
  have htext : text = b.before.reverse ++ b.after := by
    rw [hreadm.reads.text, hreads.reads.text, hsplit, List.reverse_reverse]
  -- the word stands at a boundary, also behind "set"
  have hk : atBoundary k = true ∧ text = k.before.reverse ++ k.after := by
    rcases List.mem_append.mp hk with hk | hk
    · obtain ⟨a, ha, hspaces⟩ := List.mem_flatMap.mp hk
      obtain ⟨_, hset⟩ := results_success ha
      obtain ⟨_, hspace, -⟩ := results_spaces hspaces
      refine ⟨?_, by rw [hspace.text, hset.reads.text, ← htext]⟩
      cases w with
      | nil =>
        have hnull := hword.nullable rfl
        cases hnull
      | cons d w =>
        have hafter : k.after = d :: (w ++ j.after) := hword.reads.after
        have hd : isWord d = true := by
          have hfirst := hword.first d w rfl
          have hcases : d = 't' ∨ d = 's' := by
            simpa [oneOf, alts, lit, literal, seqs, firstAllows, nullable] using hfirst
          rcases hcases with rfl | rfl
          · decide
          · decide
        unfold atBoundary
        rw [(before_spaces hspaces).2, hafter]
        simp [hd]
    · obtain rfl := List.mem_singleton.mp hk
      exact ⟨hboundary, htext⟩
  have hnone := results_nil_of_exec (by decide : triggerWord.stays ' ' = true) (by decide) h hk.2
  unfold triggerWord at hnone
  rw [results_seqs_cons, results, if_pos hk.1, List.flatMap_singleton, results_seqs_cons] at hnone
  have hthere := List.flatMap_eq_nil_iff.mp hnone j hj
  rw [show (seqs [boundary]).results j = boundary.results j from rfl] at hthere
  rw [hthere] at hl
  cases hl

/-- Without a word "leverage" no number is one. -/
theorem leverageNumber_none {text : List Char} (h : leverageMark.exec text = none) :
    leverageNumber.exec text = none := by
  refine exec_eq_none_iff.mpr fun v rest hsplit => ?_
  refine List.eq_nil_iff_forall_not_mem.mpr fun r hr => ?_
  have hnone := exec_eq_none_iff.mp h v rest hsplit
  unfold leverageNumber at hr
  rw [results_seqs_cons] at hr
  obtain ⟨b, hb, hr⟩ := List.mem_flatMap.mp hr
  rw [results_seqs_cons] at hr
  obtain ⟨k, hk, hr⟩ := List.mem_flatMap.mp hr
  rw [results_seqs_cons] at hr
  obtain ⟨l, hl, -⟩ := List.mem_flatMap.mp hr
  have hend : atBoundary k = true := by
    rw [results_lit] at hk
    obtain ⟨-, hk⟩ := List.mem_ite_nil_right.mp hk
    obtain rfl := List.mem_singleton.mp hk
    have hword : (advance "leverage".toList b).before =
        'e' :: ("leverag".toList.reverse ++ b.before) := rfl
    unfold atBoundary
    rw [hword, (before_spaces hl).1]
    rfl
  unfold leverageMark at hnone
  rw [results_seqs_cons] at hnone
  have hhere := List.flatMap_eq_nil_iff.mp hnone b hb
  rw [results_seqs_cons] at hhere
  have hthere := List.flatMap_eq_nil_iff.mp hhere k hk
  have hbare : (seqs [boundary]).results k = boundary.results k := rfl
  rw [hbare, results, if_pos hend] at hthere
  cases hthere

/-! ## A leverage in one token -/

/-- `\s+x\b`. -/
def spacedX : Pattern := seqs [spaces, lit "x", boundary]

/-- A space of a text of tokens stands in front of one of them. -/
theorem token_behind_space {ts : List (List Char)} (hts : ∀ t ∈ ts, IsToken t) {v tail : List Char}
    {c : Char} (hc : isSpace c = true) (h : joinWords ts = v ++ c :: tail) :
    ∃ t us, t ∈ ts ∧ tail = joinWords (t :: us) := by
  induction ts generalizing v with
  | nil => exact absurd h (by simp [joinWords])
  | cons w ts ih =>
    have hw : ∀ d ∈ w, isSpace d = false := (hts w List.mem_cons_self).2
    cases ts with
    | nil =>
      rw [joinWords_singleton] at h
      rw [hw c (by rw [h]; simp)] at hc
      cases hc
    | cons u ts =>
      rw [joinWords_cons] at h
      rcases List.append_eq_append_iff.mp h with ⟨x, rfl, hx⟩ | ⟨x, rfl, hx⟩
      · cases x with
        | nil =>
          obtain ⟨-, rfl⟩ := List.cons.inj hx
          exact ⟨u, ts, by simp, rfl⟩
        | cons d x =>
          obtain ⟨-, hx⟩ := List.cons.inj hx
          obtain ⟨t, us, ht, htail⟩ := ih (fun t ht => hts t (List.mem_cons_of_mem w ht)) hx
          exact ⟨t, us, List.mem_cons_of_mem w ht, htail⟩
      · cases x with
        | nil =>
          obtain ⟨-, rfl⟩ := List.cons.inj hx
          exact ⟨u, ts, by simp, rfl⟩
        | cons d x =>
          obtain ⟨rfl, -⟩ := List.cons.inj hx
          rw [hw c (by simp)] at hc
          cases hc

theorem parted_behind (t : List Char) (us : List (List Char)) :
    ∃ right, joinWords (t :: us) = t ++ right ∧ Parted ' ' right := by
  cases us with
  | nil => exact ⟨[], (joinWords_singleton t).trans (List.append_nil t).symm, .inl rfl⟩
  | cons u us => exact ⟨' ' :: joinWords (u :: us), joinWords_cons t u us, .inr ⟨_, rfl⟩⟩

/-- No token begins with a word `x`, so none follows a number and a space. -/
theorem spacedX_none {ts : List (List Char)} (hts : ∀ t ∈ ts, IsToken t)
    (hx : ∀ t ∈ ts, leadingX.exec t = none) : spacedX.exec (joinWords ts) = none := by
  refine exec_eq_none_iff.mpr fun v rest hsplit => ?_
  unfold spacedX
  rw [results_seqs_cons]
  refine List.flatMap_eq_nil_iff.mpr fun k hk => ?_
  obtain ⟨w, hreads, hne, hw⟩ := results_spaces hk
  obtain ⟨c, w, rfl⟩ := List.exists_cons_of_ne_nil hne
  obtain rfl : rest = c :: (w ++ k.after) := hreads.after
  obtain ⟨t, us, ht, htail⟩ := token_behind_space hts (hw c List.mem_cons_self) hsplit
  obtain ⟨right, hjoin, hright⟩ := parted_behind t us
  rw [hjoin] at htail
  -- one space is read, since a token follows
  have hone : k.after = t ++ right := by
    cases w with
    | nil => exact htail
    | cons d w =>
      obtain ⟨e, t, rfl⟩ := List.exists_cons_of_ne_nil (hts t ht).1
      obtain ⟨rfl, -⟩ := List.cons.inj htail
      have hd := hw d (by simp)
      rw [(hts _ ht).2 d List.mem_cons_self] at hd
      cases hd
  have hstart : (seqs [lit "x", boundary]).results { before := [], after := t } = [] := by
    have hnone := exec_eq_none_iff.mp (hx t ht) [] t rfl
    exact (List.flatMap_singleton _ _).symm.trans hnone
  have hstays : (seqs [lit "x", boundary]).stays ' ' = true := by decide
  have hwide := results_widen hstays (by decide) (before_spaces hk).2 hright k.captures
    { before := [], after := t }
  rw [hstart] at hwide
  have hk : k = Cursor.widen k.before right k.captures { before := [], after := t } := by
    unfold Cursor.widen
    rw [List.nil_append, List.nil_append, ← hone]
  rw [hk]
  exact hwide

/-- Then a leverage is one token. -/
theorem exec_leverageWord {text : List Char} (h : spacedX.exec text = none) :
    leverageWord.exec text = leverageTight.exec text := by
  refine exec_congr fun v rest hsplit => ?_
  unfold leverageWord leverageTight
  rw [results_seqs_cons, results_seqs_cons boundary [group 1 number, lit "x", boundary]]
  refine List.flatMap_congr fun b hb => ?_
  rw [results_seqs_cons, results_seqs_cons (group 1 number) [lit "x", boundary]]
  refine List.flatMap_congr fun k hk => ?_
  obtain ⟨_, hboundary⟩ := results_success hb
  obtain ⟨_, hnumber⟩ := results_success hk
  have htext : text = k.before.reverse ++ k.after := by
    rw [hnumber.reads.text, hboundary.reads.text, hsplit, List.reverse_reverse]
  have hnone := results_nil_of_exec (by decide : spacedX.stays '$' = true) (by decide) h htext
  unfold spacedX at hnone
  rw [results_seqs_cons] at hnone
  rw [results_seqs_cons, results_many, List.flatMap_append]
  show (spaces.results k).flatMap _ ++ _ = _
  rw [hnone]
  exact List.flatMap_singleton _ _

/-! ## What is taken off in front -/

section FirstWord

variable {t : List Char} {ts : List (List Char)} (ht : IsToken t) (hts : ∀ u ∈ ts, IsToken u)

include ht hts

/-- A word and spaces at the beginning are the first token. -/
theorem first_of_word {w : String} (hw : ∀ c ∈ w.toList, isSpace c = false) {s k r : Cursor}
    (hs : s.after = joinWords (t :: ts)) (hk : k ∈ (lit w).results s)
    (hr : r ∈ spaces.results k) : t = w.toList ∧ r.after = joinWords ts := by
  rw [results_lit] at hk
  obtain ⟨⟨tail, hprefix⟩, hk⟩ := List.mem_ite_nil_right.mp hk
  obtain rfl := List.mem_singleton.mp hk
  obtain ⟨v, hreads, hne, hv⟩ := results_spaces hr
  have htail : tail = v ++ r.after := by
    have hafter : (advance w.toList s).after = tail := by
      show s.after.drop w.toList.length = tail
      rw [← hprefix, List.drop_left]
    rw [← hafter, hreads.after]
  obtain ⟨right, hjoin, hright⟩ := parted_behind t ts
  rw [hs, hjoin, htail] at hprefix
  obtain ⟨c, v, rfl⟩ := List.exists_cons_of_ne_nil hne
  have hword : ∀ {x : List Char}, (∀ c ∈ x, isSpace c = false) →
      ∀ c ∈ x, (!isSpace c) = true := by
    intro x hx c hc
    rw [hx c hc]
    rfl
  have hstop : ∀ d ∈ right.head?, (!isSpace d) = false := by
    rcases hright with rfl | ⟨rest, rfl⟩
    · exact fun d hd => by cases hd
    · intro d hd
      obtain rfl := Option.some.inj hd
      rfl
  obtain ⟨rfl, hrest⟩ := run_unique (hword hw) (hword ht.2)
    (x := c :: v ++ r.after) (by simpa using hv c List.mem_cons_self) hstop hprefix
  refine ⟨rfl, ?_⟩
  cases ts with
  | nil =>
    rw [joinWords_singleton] at hjoin
    rw [List.append_right_eq_self.mp hjoin.symm] at hrest
    cases hrest
  | cons u us =>
    rw [joinWords_cons] at hjoin
    rw [← List.append_cancel_left hjoin] at hrest
    obtain ⟨-, hrest⟩ := List.cons.inj hrest
    cases v with
    | nil => exact hrest
    | cons d v =>
      -- the second token begins with no space
      obtain ⟨e, tail, hhead, he⟩ := head_tokens (hts u List.mem_cons_self) us
      rw [hhead] at hrest
      obtain ⟨rfl, -⟩ := List.cons.inj hrest
      rw [hv d (by simp)] at he
      cases he

/-- No word that is taken off stands in front of the tokens. -/
theorem results_word_none {w : String} (hw : w.toList ≠ t)
    (hchars : ∀ c ∈ w.toList, isSpace c = false) {s k : Cursor} (hs : s.after = joinWords (t :: ts))
    (hk : k ∈ (lit w).results s) : spaces.results k = [] := by
  refine List.eq_nil_iff_forall_not_mem.mpr fun r hr => ?_
  exact hw (first_of_word ht hts hchars hs hk hr).1.symm

/-- Nor do two such words. -/
theorem results_pair_none {v w : String} (hv : ∀ c ∈ v.toList, isSpace c = false)
    (hw : w.toList ≠ []) (h : v.toList ≠ t ∨ ∀ c ∈ (joinWords ts).head?, w.toList.head? ≠ some c)
    {s : Cursor} (hs : s.after = joinWords (t :: ts)) (ps : List Pattern) :
    (seqs (lit v :: spaces :: lit w :: ps)).results s = [] := by
  rw [results_seqs_cons]
  refine List.flatMap_eq_nil_iff.mpr fun k hk => ?_
  rw [results_seqs_cons]
  refine List.flatMap_eq_nil_iff.mpr fun l hl => ?_
  obtain ⟨hfirst, hafter⟩ := first_of_word ht hts hv hs hk hl
  rw [results_seqs_cons, results_lit, if_neg]
  · rfl
  · rintro ⟨tail, htail⟩
    rcases h with h | h
    · exact h hfirst.symm
    · obtain ⟨c, w', hc⟩ := List.exists_cons_of_ne_nil hw
      refine h c ?_ (by rw [hc]; rfl)
      rw [← hafter, ← htail, hc]
      rfl

/-- No greeting stands in front of the tokens. -/
theorem greeting_none (hfirst : ∀ w ∈ greetingWords, w.toList ≠ t)
    (hsecond : t ∈ ["i".toList, "let".toList, "can".toList] →
      ∀ c ∈ (joinWords ts).head?, c ∉ "wmuy".toList) :
    greeting.exec (joinWords (t :: ts)) = none := by
  have hword : ∀ {w : String} {k : Cursor}, w ∈ greetingWords →
      (∀ c ∈ w.toList, isSpace c = false) →
      k ∈ (lit w).results { before := [], after := joinWords (t :: ts) } →
      spaces.results k = [] := by
    intro w k hmem hchars hk
    exact results_word_none ht hts (hfirst w hmem) hchars rfl hk
  have hpair : ∀ {v w : String} {ps : List Pattern}, (∀ c ∈ v.toList, isSpace c = false) →
      w.toList ≠ [] → v.toList ∈ ["i".toList, "let".toList, "can".toList] →
      (∀ c, w.toList.head? = some c → c ∈ "wmuy".toList) →
      (seqs (lit v :: spaces :: lit w :: ps)).results
        { before := [], after := joinWords (t :: ts) } = [] := by
    intro v w ps hv hw hmem hhead
    refine results_pair_none ht hts hv hw ?_ rfl ps
    by_cases heq : v.toList = t
    · exact .inr fun c hc hsame => hsecond (heq ▸ hmem) c hc (hhead c hsame)
    · exact .inl heq
  unfold greeting
  refine exec_none_of_start ?_
  refine List.flatMap_eq_nil_iff.mpr fun k hk => ?_
  obtain ⟨p, hp, hk⟩ := mem_results_alts hk
  simp only [List.mem_cons, List.not_mem_nil, or_false] at hp
  rcases hp with rfl | rfl | rfl | rfl | rfl | rfl | rfl | rfl | rfl | rfl | rfl | rfl | rfl
  · exact hword (by decide) (by decide) hk
  · exact hword (by decide) (by decide) hk
  · exact hword (by decide) (by decide) hk
  · exact hword (by decide) (by decide) hk
  · exact hword (by decide) (by decide) hk
  · exact hword (by decide) (by decide) hk
  · rw [hpair (by decide) (by decide) (by decide) (by decide)] at hk
    cases hk
  · rw [hpair (by decide) (by decide) (by decide) (by decide)] at hk
    cases hk
  · rw [hpair (by decide) (by decide) (by decide) (by decide)] at hk
    cases hk
  · rw [hpair (by decide) (by decide) (by decide) (by decide)] at hk
    cases hk
  · exact hword (by decide) (by decide) hk
  · exact hword (by decide) (by decide) hk
  · rw [hpair (by decide) (by decide) (by decide) (by decide)] at hk
    cases hk

/-- No verb, nor an article. -/
theorem anchored_none {ws : List String} (hws : ∀ w ∈ ws, w.toList ≠ t)
    (hchars : ∀ w ∈ ws, ∀ c ∈ w.toList, isSpace c = false) (ps : List Pattern) :
    (seqs (start :: oneOf ws :: spaces :: ps)).exec (joinWords (t :: ts)) = none := by
  refine exec_none_of_start ?_
  show (seqs (oneOf ws :: spaces :: ps)).results _ = []
  rw [results_seqs_cons]
  refine List.flatMap_eq_nil_iff.mpr fun k hk => ?_
  obtain ⟨p, hp, hk⟩ := mem_results_alts hk
  obtain ⟨w, hw, rfl⟩ := List.mem_map.mp hp
  rw [results_seqs_cons, results_word_none ht hts (hws w hw) (hchars w hw) rfl hk]
  rfl

/-- The verb is taken off. -/
theorem replace_openVerb (ha : "a".toList ≠ t) :
    openVerb.replace (fun _ => []) (joinWords ("open".toList :: t :: ts)) =
      joinWords (t :: ts) := by
  obtain ⟨c, tail, hhead, hc⟩ := head_tokens ht ts
  have hverb : (oneOf openVerbs).results
      { before := [], after := "open".toList ++ ' ' :: joinWords (t :: ts) } =
        [{ before := "nepo".toList, after := ' ' :: joinWords (t :: ts) }] := rfl
  have hspace : spaces.results
      { before := "nepo".toList, after := ' ' :: joinWords (t :: ts) } =
        [{ before := " nepo".toList, after := joinWords (t :: ts) }] := by
    rw [hhead]
    simp [spaces, many1, results, spans, hc, show isSpace ' ' = true from rfl]
  have harticle : (seq (lit "a") spaces).results
      { before := " nepo".toList, after := joinWords (t :: ts) } = [] :=
    List.flatMap_eq_nil_iff.mpr fun k hk => results_word_none ht hts ha (by decide) rfl hk
  have hresults : openVerb.results
      { before := [], after := "open".toList ++ ' ' :: joinWords (t :: ts) } =
        [{ before := " nepo".toList, after := joinWords (t :: ts) }] := by
    show (start.results _).flatMap (seqs [oneOf openVerbs, spaces, optional _]).results = _
    rw [results, if_pos rfl, List.flatMap_singleton, results_seqs_cons, hverb,
      List.flatMap_singleton, results_seqs_cons, hspace, List.flatMap_singleton]
    show (seq (lit "a") spaces).results _ ++ [_] = _
    rw [harticle]
    rfl
  unfold replace
  rw [joinWords_cons, exec_of_results hresults]
  rfl

/-- What is taken off in front of the tokens is the verb. -/
theorem stripLeading_open (hfirst : ∀ w ∈ greetingWords ++ openVerbs, w.toList ≠ t)
    (hsecond : t ∈ ["i".toList, "let".toList, "can".toList] →
      ∀ c ∈ (joinWords ts).head?, c ∉ "wmuy".toList)
    (harticle : ∀ w ∈ ["a", "an", "the"], w.toList ≠ t) :
    stripLeading 3 (joinWords ("open".toList :: t :: ts)) = joinWords (t :: ts) := by
  have hall : ∀ u ∈ t :: ts, IsToken u := by
    intro u hu
    rcases List.mem_cons.mp hu with rfl | hu
    · exact ht
    · exact hts u hu
  have hgreeting := greeting_none ht hts (fun w hw => hfirst w (List.mem_append_left _ hw)) hsecond
  have hopen : greeting.exec (joinWords ("open".toList :: t :: ts)) = none :=
    greeting_none (by decide) hall (by decide) fun h => absurd h (by decide)
  have hverb : openVerb.exec (joinWords (t :: ts)) = none :=
    anchored_none ht hts (fun w hw => hfirst w (List.mem_append_right _ hw)) (by decide) _
  have harticles : leadingArticle.exec (joinWords (t :: ts)) = none :=
    anchored_none ht hts harticle (by decide) []
  have hne : joinWords (t :: ts) ≠ joinWords ("open".toList :: t :: ts) := by
    intro h
    have hlength := congrArg List.length h
    rw [joinWords_cons, List.length_append, List.length_cons] at hlength
    omega
  unfold stripLeading
  rw [replace_of_none hopen, replace_openVerb ht hts (harticle "a" (by decide)),
    replace_of_none harticles]
  dsimp only
  rw [if_neg hne]
  unfold stripLeading
  rw [replace_of_none hgreeting, replace_of_none hverb, replace_of_none harticles]
  exact if_pos rfl

end FirstWord

end Interpreter

end FlashEdge
