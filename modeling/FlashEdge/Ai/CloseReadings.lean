import FlashEdge.Ai.ParserOutcomes
import FlashEdge.Theory.Regex
import FlashEdge.Theory.ForcedReadings

/-!
# How a close is read

The expression for "close SOL long" has two readings of a text at most: "my" is a filler, or it
is the market. Each reads a word for the market and a side, and goes on from one position behind
them; what is left there, behind "position" and spaces, goes to the last group.

- `readings`: the positions behind the side. `results_sidedClose`: the expression goes on from
  them, whatever follows.
- `rest`: what is left behind "position". `tail_results`, `end_results`: whether the last group
  and the end of the text are found.
- `rest_of_both`: where "my" is read as a filler, nothing ends behind the other reading.
-/

namespace FlashEdge

namespace Interpreter

open Pattern

/-- The expression for a side of a market, with what follows it. -/
def sidedClose (tail : Pattern) : Pattern :=
  seq closeVerb (seq my (seq (group 1 letters) (seq spaces (seq (group 2 longOrShort) tail))))

/-- What `closeMatch` reads behind the side. -/
def closeTail : Pattern := seqs [position, many isSpace, group 3 (many isDot), stop]

/-- The same without the last group. -/
def bareTail : Pattern := seqs [position, many isSpace, stop]

theorem closeMatch_eq : closeMatch = sidedClose closeTail := rfl

/-! ## Up to the side -/

/-- Behind the verb. -/
def afterVerb (text : List Char) : Option Cursor :=
  ((["close", "exit", "sell"].find? fun w => w.toList <+: text).map fun w =>
    advance w.toList { before := [], after := text }).bind (munch1 isSpace)

/-- Behind "my". -/
def afterMy (s : Cursor) : Option Cursor :=
  (if "my".toList <+: s.after then some (advance "my".toList s) else none).bind (munch1 isSpace)

/-- Behind the side, after the word for the market. -/
def afterPair (s : Cursor) : Option Cursor :=
  ((munch1 Char.isLower s).map (capture 1 s)).bind fun m =>
    (munch1 isSpace m).bind fun m =>
      ((["long", "short"].find? fun w => w.toList <+: m.after).map fun w =>
        advance w.toList m).map (capture 2 m)

/-- The positions behind the side, the reading with "my" first. -/
def readings (text : List Char) : List Cursor :=
  match afterVerb text with
  | none => []
  | some s => ((afterMy s).bind afterPair).toList ++ (afterPair s).toList

theorem isLower_of_space {c : Char} (hc : isSpace c = true) : c.isLower = false := by
  refine Bool.eq_false_iff.mpr fun hlower => ?_
  rw [isSpace_lower hlower] at hc
  cases hc

theorem isSpace_of_side {c : Char} (hc : longOrShort.firstAllows c = true) :
    isSpace c = false := by
  have hcases : c = 'l' ∨ c = 's' := by
    simpa [longOrShort, oneOf, alts, lit, literal, seqs, firstAllows, nullable] using hc
  rcases hcases with rfl | rfl
  · decide
  · decide

theorem sides_apart : ["long", "short"].Pairwise fun v w =>
    ¬ v.toList <+: w.toList ∧ ¬ w.toList <+: v.toList := by decide

theorem verbs_apart : ["close", "exit", "sell"].Pairwise fun v w =>
    ¬ v.toList <+: w.toList ∧ ¬ w.toList <+: v.toList := by decide

/-- The word, spaces and the side are read in one way. -/
theorem results_pair (tail : Pattern) (s : Cursor) :
    (seq (group 1 letters) (seq spaces (seq (group 2 longOrShort) tail))).results s =
      (afterPair s).elim [] tail.results := by
  have hspaces : Apart Char.isLower (seq spaces (seq (group 2 longOrShort) tail)) := by
    refine apart_of_first rfl fun c hc => isLower_of_space ?_
    simpa [spaces, many1, firstAllows, nullable] using hc
  have hside : Apart isSpace (seq (group 2 longOrShort) tail) := by
    refine apart_of_first (by simp [nullable, show longOrShort.nullable = false by decide])
      fun c hc => isSpace_of_side ?_
    simpa [firstAllows, nullable, show longOrShort.nullable = false by decide] using hc
  have hword := (leads_many1 Char.isLower s).group 1
  rw [show letters = many1 Char.isLower from rfl, hword.results hspaces]
  unfold afterPair
  cases (munch1 Char.isLower s).map (capture 1 s) with
  | none => rfl
  | some m =>
    rw [Option.elim_some, Option.bind_some]
    show (seq (many1 isSpace) (seq (group 2 longOrShort) tail)).results m = _
    rw [(leads_many1 isSpace m).results hside]
    cases munch1 isSpace m with
    | none => rfl
    | some m =>
      rw [Option.elim_some, Option.bind_some]
      exact ((leads_oneOf sides_apart m).group 2).results (apart_nowhere tail)

/-- **The expression goes on from its readings.** -/
theorem results_sidedClose (tail : Pattern) (text : List Char) :
    (sidedClose tail).results { before := [], after := text } =
      (readings text).flatMap tail.results := by
  have hword : ∀ c, (seq (group 1 letters) (seq spaces (seq (group 2 longOrShort)
      tail))).firstAllows c = c.isLower := by
    intro c
    simp [firstAllows, nullable, letters, many1]
  have hpair : Apart isSpace (seq (group 1 letters) (seq spaces (seq (group 2 longOrShort)
      tail))) := by
    refine apart_of_first rfl fun c hc => isSpace_lower ?_
    rwa [hword] at hc
  have hbody : Apart isSpace (seq my (seq (group 1 letters) (seq spaces (seq (group 2 longOrShort)
      tail)))) := by
    refine apart_of_first rfl fun c hc => ?_
    rcases Bool.or_eq_true_iff.mp hc with hmy | hpair
    · obtain rfl : c = 'm' := by
        simpa [my, lit, literal, seqs, firstAllows, nullable] using hmy
      decide
    · rw [hword] at hpair
      exact isSpace_lower (Bool.and_eq_true_iff.mp hpair).2
  have hverb : Leads closeVerb isSpace { before := [], after := text } (afterVerb text) := by
    have hstart : Leads start nowhere { before := [], after := text }
        (some { before := [], after := text }) := ⟨[], rfl, fun _ hr => by cases hr⟩
    refine hstart.seq (apart_nowhere _) (f := fun _ => afterVerb text) fun m hm => ?_
    obtain rfl := Option.some.inj hm
    exact (leads_oneOf verbs_apart _).seq (apart_nowhere _)
      fun m _ => leads_many1 isSpace m
  unfold sidedClose readings
  rw [hverb.results hbody]
  cases afterVerb text with
  | none => rfl
  | some s =>
    have hmy : Leads (seq (lit "my") spaces) isSpace s (afterMy s) :=
      (leads_lit "my" s).seq (apart_nowhere _) fun m _ => leads_many1 isSpace m
    rw [Option.elim_some, List.flatMap_append]
    show ((seq (lit "my") spaces).results s ++ [s]).flatMap _ = _
    rw [List.flatMap_append, List.flatMap_singleton, results_pair]
    congr 1
    · show (seq (seq (lit "my") spaces) _).results s = _
      rw [hmy.results hpair]
      cases afterMy s with
      | none => rfl
      | some m =>
        rw [Option.elim_some, results_pair, Option.bind_some]
        cases afterPair m with
        | none => rfl
        | some r => exact (List.flatMap_singleton _ _).symm
    · cases afterPair s with
      | none => rfl
      | some r => exact (List.flatMap_singleton _ _).symm

/-! ## Behind the side -/

/-- Behind "position", where it stands. -/
def afterPosition (s : Cursor) : Option Cursor :=
  (munch1 isSpace s).bind fun m =>
    if "position".toList <+: m.after then some (advance "position".toList m) else none

/-- What is left behind "position" and spaces. -/
def rest (s : Cursor) : Cursor := munch isSpace ((afterPosition s).getD s)

theorem munch1_eq_some {test : Char → Bool} {s m : Cursor} (h : munch1 test s = some m) :
    m = munch test s ∧ ∃ c tail, s.after = c :: tail ∧ test c = true := by
  unfold munch1 at h
  split at h
  · cases h
  · next c tail hafter =>
    obtain ⟨hc, h⟩ := Option.ite_none_right_eq_some.mp h
    exact ⟨(Option.some.inj h).symm, c, tail, hafter, hc⟩

theorem afterPosition_eq_some {s m : Cursor} (h : afterPosition s = some m) :
    (munch isSpace s).after = "position".toList ++ m.after ∧ m.captures = s.captures := by
  obtain ⟨n, hn, h⟩ := Option.bind_eq_some_iff.mp h
  obtain ⟨rfl, -⟩ := munch1_eq_some hn
  obtain ⟨hstart, h⟩ := Option.ite_none_right_eq_some.mp h
  obtain rfl := Option.some.inj h
  exact ⟨(List.prefix_iff_eq_append.mp hstart).symm, rfl⟩

theorem rest_captures (s : Cursor) : (rest s).captures = s.captures := by
  unfold rest
  cases hposition : afterPosition s with
  | none => rfl
  | some m => exact (afterPosition_eq_some hposition).2

/-- What is left does not begin with a space. -/
theorem rest_head {s : Cursor} {c : Char} {tail : List Char} (h : (rest s).after = c :: tail) :
    isSpace c = false := by
  have hhead := List.head?_dropWhile_not isSpace ((afterPosition s).getD s).after
  rw [show ((afterPosition s).getD s).after.dropWhile isSpace = c :: tail from h] at hhead
  simpa using hhead

theorem results_position (tail : Pattern) (s : Cursor) :
    (seq position tail).results s =
      (afterPosition s).elim [] tail.results ++ tail.results s := by
  have hword : Apart isSpace (lit "position") := by
    refine apart_of_first rfl fun c hc => ?_
    obtain rfl : c = 'p' := by
      simpa [lit, literal, seqs, firstAllows, nullable] using hc
    decide
  have hleads : Leads (seq spaces (lit "position")) nowhere s (afterPosition s) :=
    (leads_many1 isSpace s).seq hword fun m _ => leads_lit "position" m
  show ((seq spaces (lit "position")).results s ++ [s]).flatMap tail.results = _
  rw [List.flatMap_append, List.flatMap_singleton]
  exact congrArg (· ++ tail.results s) (hleads.results (apart_nowhere tail))

/-- The last group takes everything up to the end, if it can. -/
theorem results_lastGroup (s : Cursor) :
    (seq (group 3 (many isDot)) stop).results s =
      if s.after.all isDot then
        [{ before := s.after.reverse ++ s.before, after := [],
           captures := (3, s.after) :: s.captures }]
      else [] := by
  rw [((leads_many isDot s).group 3).results (apart_stop isDot)]
  show (if s.after.dropWhile isDot = [] then [_] else []) = _
  by_cases hall : s.after.all isDot = true
  · have hdrop : s.after.dropWhile isDot = [] :=
      List.dropWhile_eq_nil_iff.mpr (List.all_eq_true.mp hall)
    have htake : s.after.takeWhile isDot = s.after :=
      List.takeWhile_eq_self_iff.mpr (List.all_eq_true.mp hall)
    rw [if_pos hdrop, if_pos hall]
    simp [capture, munch, hdrop, htake]
  · rw [if_neg hall, if_neg fun hdrop =>
      hall (List.all_eq_true.mpr (List.dropWhile_eq_nil_iff.mp hdrop))]

/-- Wherever a repetition stops, what stands behind its longest run is still ahead. -/
theorem munch_suffix {test : Char → Bool} {s r : Cursor} (hr : r ∈ (many test).results s) :
    (munch test s).after <:+ r.after := by
  obtain ⟨span, hspan, rfl⟩ := List.mem_map.mp hr
  obtain ⟨w, hafter, -, hw⟩ := spans_reads hspan
  show s.after.dropWhile test <:+ span.2
  rw [hafter, List.dropWhile_append_of_pos hw]
  exact List.dropWhile_suffix test

/-- Spaces and the last group. -/
def spacedGroup : Pattern := seq (many isSpace) (seq (group 3 (many isDot)) stop)

theorem spacedGroup_results (s : Cursor) :
    if (munch isSpace s).after.all isDot then
      ∃ r rs, spacedGroup.results s = r :: rs ∧
        r.captures = (3, (munch isSpace s).after) :: s.captures
    else spacedGroup.results s = [] := by
  obtain ⟨others, hresults, -⟩ := leads_many isSpace s
  have hseq : spacedGroup.results s =
      (seq (group 3 (many isDot)) stop).results (munch isSpace s) ++
        others.flatMap (seq (group 3 (many isDot)) stop).results := by
    show ((many isSpace).results s).flatMap _ = _
    rw [hresults]
    rfl
  split
  · next hall =>
    rw [hseq, results_lastGroup, if_pos hall]
    exact ⟨_, _, rfl, rfl⟩
  · next hall =>
    refine List.flatMap_eq_nil_iff.mpr fun r hr => ?_
    rw [results_lastGroup, if_neg]
    intro hdots
    obtain ⟨w, hw⟩ := munch_suffix hr
    rw [← hw, List.all_append] at hdots
    exact hall (Bool.and_eq_true_iff.mp hdots).2

/-- **The last group takes what is left, if it can, and nothing is found if it cannot.** -/
theorem tail_results (s : Cursor) :
    if (rest s).after.all isDot then
      ∃ r rs, closeTail.results s = r :: rs ∧ r.captures = (3, (rest s).after) :: s.captures
    else closeTail.results s = [] := by
  have hseq : closeTail.results s =
      (afterPosition s).elim [] spacedGroup.results ++ spacedGroup.results s :=
    results_position spacedGroup s
  unfold rest
  cases hposition : afterPosition s with
  | none =>
    rw [hposition] at hseq
    rw [Option.getD_none, hseq]
    exact spacedGroup_results s
  | some m =>
    obtain ⟨hafter, hcaptures⟩ := afterPosition_eq_some hposition
    have hm := spacedGroup_results m
    rw [hposition, Option.elim_some] at hseq
    rw [Option.getD_some, hseq]
    by_cases hall : (munch isSpace m).after.all isDot = true
    · rw [if_pos hall] at hm ⊢
      obtain ⟨r, rs, hr, hrcaptures⟩ := hm
      exact ⟨r, rs ++ spacedGroup.results s, by rw [hr]; rfl, by rw [hrcaptures, hcaptures]⟩
    · rw [if_neg hall] at hm ⊢
      have hs := spacedGroup_results s
      rw [if_neg] at hs
      · rw [hm, hs]
        rfl
      · intro hdots
        obtain ⟨w, hw⟩ : (munch isSpace m).after <:+ m.after := List.dropWhile_suffix isSpace
        rw [hafter, ← hw, List.all_append, List.all_append] at hdots
        exact hall (Bool.and_eq_true_iff.mp (Bool.and_eq_true_iff.mp hdots).2).2

/-- **The end is found if nothing is left.** -/
theorem end_results (s : Cursor) :
    if (rest s).after = [] then ∃ rs, bareTail.results s = rest s :: rs
    else bareTail.results s = [] := by
  have hend : ∀ m, (seq (many isSpace) stop).results m =
      if (munch isSpace m).after = [] then [munch isSpace m] else [] :=
    fun m => (leads_many isSpace m).results (apart_stop isSpace)
  have hseq : bareTail.results s =
      (afterPosition s).elim [] (seq (many isSpace) stop).results ++
        (seq (many isSpace) stop).results s := results_position (seq (many isSpace) stop) s
  unfold rest
  cases hposition : afterPosition s with
  | none =>
    rw [hposition, hend s] at hseq
    rw [Option.getD_none, hseq]
    split
    · next hnil => exact ⟨[], rfl⟩
    · rfl
  | some m =>
    obtain ⟨hafter, -⟩ := afterPosition_eq_some hposition
    have hs : (munch isSpace s).after ≠ [] := by
      rw [hafter]
      exact List.append_ne_nil_of_left_ne_nil (by decide) m.after
    rw [hposition, Option.elim_some, hend, hend s, if_neg hs, List.append_nil] at hseq
    rw [Option.getD_some, hseq]
    split
    · next hnil => exact ⟨[], rfl⟩
    · rfl

/-! ## Two readings -/

/-- What is read for a market and a side. -/
structure PairRead (s r : Cursor) (word gap side : List Char) : Prop where
  after : s.after = word ++ (gap ++ (side ++ r.after))
  isWord : word ≠ [] ∧ ∀ c ∈ word, c.isLower = true
  isGap : gap ≠ [] ∧ ∀ c ∈ gap, isSpace c = true
  isSide : side = "long".toList ∨ side = "short".toList
  captures : r.captures = (2, side) :: (1, word) :: s.captures

/-- A run of one character at least. -/
theorem run_of_munch1 {test : Char → Bool} {s m : Cursor} (h : munch1 test s = some m) :
    ∃ w, Reads s w m ∧ w ≠ [] ∧ (∀ c ∈ w, test c = true) ∧ m.captures = s.captures := by
  obtain ⟨rfl, c, tail, hafter, hc⟩ := munch1_eq_some h
  refine ⟨s.after.takeWhile test, ⟨(List.takeWhile_append_dropWhile).symm, rfl⟩, ?_, ?_, rfl⟩
  · rw [hafter, List.takeWhile_cons_of_pos hc]
    exact List.cons_ne_nil _ _
  · exact fun d hd => List.mem_takeWhile_imp hd

theorem pairRead_of_afterPair {s r : Cursor} (h : afterPair s = some r) :
    ∃ word gap side, PairRead s r word gap side := by
  obtain ⟨m, hm, h⟩ := Option.bind_eq_some_iff.mp h
  obtain ⟨m', hword, rfl⟩ := Option.map_eq_some_iff.mp hm
  obtain ⟨n, hgap, h⟩ := Option.bind_eq_some_iff.mp h
  obtain ⟨n', hside, rfl⟩ := Option.map_eq_some_iff.mp h
  obtain ⟨side, hfound, rfl⟩ := Option.map_eq_some_iff.mp hside
  obtain ⟨word, hreadWord, hwordNe, hwordAll, hwordCaptures⟩ := run_of_munch1 hword
  obtain ⟨gap, hreadGap, hgapNe, hgapAll, hgapCaptures⟩ := run_of_munch1 hgap
  have hstart := List.find?_some hfound
  have hsplit := List.prefix_iff_eq_append.mp (of_decide_eq_true hstart)
  have hreadSide : Reads n side.toList (advance side.toList n) := ⟨hsplit.symm, rfl⟩
  refine ⟨word, gap, side.toList, ?_, ⟨hwordNe, hwordAll⟩, ⟨hgapNe, hgapAll⟩, ?_, ?_⟩
  · rw [hreadWord.after]
    show word ++ (capture 1 s m').after = _
    rw [hreadGap.after, hreadSide.after]
    rfl
  · have hmem := List.mem_of_find?_eq_some hfound
    rcases List.mem_cons.mp hmem with rfl | hmem
    · exact .inl rfl
    · exact .inr (by rw [List.mem_singleton.mp hmem])
  · rw [capture_captures hreadSide]
    show (2, side.toList) :: n.captures = _
    rw [hgapCaptures, capture_captures hreadWord, hwordCaptures]

theorem PairRead.side_lower {s r : Cursor} {word gap side : List Char}
    (h : PairRead s r word gap side) : ∀ c ∈ side, c.isLower = true := by
  rcases h.isSide with rfl | rfl
  · decide
  · decide

/-- A run of letters is not followed by a letter where a gap follows it. -/
theorem head_gap {gap tail : List Char} (h : gap ≠ [] ∧ ∀ c ∈ gap, isSpace c = true) :
    ∀ c ∈ (gap ++ tail).head?, c.isLower = false := by
  obtain ⟨hne, hall⟩ := h
  obtain ⟨d, gap, rfl⟩ := List.exists_cons_of_ne_nil hne
  rintro c ⟨⟩
  exact isLower_of_space (hall d List.mem_cons_self)

/-- Nor a gap by a space where letters follow it. -/
theorem head_letters {word tail : List Char} (hne : word ≠ [])
    (hall : ∀ c ∈ word, c.isLower = true) : ∀ c ∈ (word ++ tail).head?, isSpace c = false := by
  obtain ⟨d, word, rfl⟩ := List.exists_cons_of_ne_nil hne
  rintro c ⟨⟩
  exact isSpace_lower (hall d List.mem_cons_self)

theorem afterMy_eq_some {s m : Cursor} (h : afterMy s = some m) :
    ∃ gap, s.after = "my".toList ++ (gap ++ m.after) ∧ gap ≠ [] ∧
      (∀ c ∈ gap, isSpace c = true) ∧ m.captures = s.captures := by
  obtain ⟨n, hn, h⟩ := Option.bind_eq_some_iff.mp h
  obtain ⟨hstart, hn⟩ := Option.ite_none_right_eq_some.mp hn
  obtain rfl := Option.some.inj hn
  obtain ⟨gap, hread, hne, hall, hcaptures⟩ := run_of_munch1 h
  refine ⟨gap, ?_, hne, hall, hcaptures⟩
  rw [← hread.after]
  exact (List.prefix_iff_eq_append.mp hstart).symm

/-- Two words, a side behind the second, and a side at the beginning of the second: what follows
that beginning has the first side in it. -/
theorem side_left {v side side' x y gap : List Char} (hgap : gap ≠ [] ∧ ∀ c ∈ gap, isSpace c = true)
    (hside' : ∀ c ∈ side', c.isLower = true) (h : v ++ (gap ++ (side ++ x)) = side' ++ y) :
    ∀ c ∈ side, c ∈ y := by
  rcases List.append_eq_append_iff.mp h with ⟨u, rfl, hu⟩ | ⟨u, rfl, rfl⟩
  · cases u with
    | nil =>
      rw [List.nil_append] at hu
      rw [← hu]
      exact fun c hc => List.mem_append_right gap (List.mem_append_left x hc)
    | cons d u =>
      -- the side would have a space in it
      have hd : isSpace d = false :=
        isSpace_lower (hside' d (List.mem_append_right v List.mem_cons_self))
      have hhead : (gap ++ (side ++ x)).head? = some d := by
        rw [hu]
        rfl
      obtain ⟨e, gap, rfl⟩ := List.exists_cons_of_ne_nil hgap.1
      obtain rfl : e = d := Option.some.inj hhead
      rw [hgap.2 e List.mem_cons_self] at hd
      cases hd
  · exact fun c hc => List.mem_append_right u
      (List.mem_append_right gap (List.mem_append_left x hc))

/-- **Where "my" is read as a filler, more than "position" is left behind the reading of "my" as
the market.** -/
theorem rest_of_both {s m a b : Cursor} (hmy : afterMy s = some m) (ha : afterPair m = some a)
    (hb : afterPair s = some b) : (rest b).after ≠ [] := by
  obtain ⟨gap₀, hs, hgap₀, hall₀, -⟩ := afterMy_eq_some hmy
  obtain ⟨word, gap, side, hread⟩ := pairRead_of_afterPair ha
  obtain ⟨word', gap', side', hread'⟩ := pairRead_of_afterPair hb
  have hmyWord : ∀ c ∈ "my".toList, c.isLower = true := by decide
  -- the word of the second reading is "my", and its side begins the word of the first
  have htexts := hs.symm.trans hread'.after
  obtain ⟨-, htexts⟩ := run_unique hmyWord hread'.isWord.2 (head_gap ⟨hgap₀, hall₀⟩)
    (head_gap hread'.isGap) htexts
  have hside'Ne : side' ≠ [] := by
    rcases hread'.isSide with rfl | rfl
    · decide
    · decide
  rw [hread.after] at htexts
  obtain ⟨-, htexts⟩ := run_unique hall₀ hread'.isGap.2
    (head_letters hread.isWord.1 hread.isWord.2)
    (head_letters hside'Ne hread'.side_lower) htexts
  have hleft := side_left hread.isGap hread'.side_lower htexts
  intro hnil
  have hend := end_results b
  rw [if_pos hnil] at hend
  obtain ⟨rs, hrs⟩ := hend
  obtain ⟨w, hw⟩ := results_success (p := bareTail) (s := b) (r := rest b)
    (by rw [hrs]; exact List.mem_cons_self)
  have hafter := hw.reads.after
  rw [hw.closed rfl, List.append_nil] at hafter
  -- no letter of the side that is left is one of "position"
  have hallowed : ∀ c ∈ side, bareTail.allows c = true := fun c hc =>
    hw.allowed c (hafter ▸ hleft c hc)
  rcases hread.isSide with rfl | rfl
  · exact absurd (hallowed 'l' (by decide)) (by decide)
  · exact absurd (hallowed 'h' (by decide)) (by decide)

end Interpreter

end FlashEdge
