import FlashEdge.Ai.CommandWords
import FlashEdge.Ai.ParserOutcomes
import FlashEdge.Theory.Captures
import FlashEdge.Theory.CaseMatches
import FlashEdge.Theory.ForcedReadings

/-!
# Commands in capitals

The parser keeps the case in which a command was typed until all rewriting is done, for the names
of wallets and pools. The rewriting itself does not see the case, so that two spellings of a
command are the same command in small letters.

- `lowerCase_normalize_congr`: the normalized texts of two spellings.
- `localParse_spelling`: their intents of an action that reads no name as it was typed.
-/

namespace FlashEdge

namespace Interpreter

open Pattern

variable {t u : List Char}

theorem lowerCase_eq (t : List Char) : lowerCase t = t.map Char.toLower := rfl

/-- The classes that the rewriting reads. -/
theorem classes_of_small : ∀ n < 128,
    isWord (Char.ofNat n).toLower = isWord (Char.ofNat n) ∧
      (Char.ofNat n).toLower.isDigit = (Char.ofNat n).isDigit ∧
      ((Char.ofNat n).toLower = ' ' ↔ Char.ofNat n = ' ') ∧
      (if (Char.ofNat n).toLower.toNat ≤ 0x1F ∨ (Char.ofNat n).toLower.toNat = 0x7F then ' '
          else (Char.ofNat n).toLower) =
        (if (Char.ofNat n).toNat ≤ 0x1F ∨ (Char.ofNat n).toNat = 0x7F then ' '
          else Char.ofNat n).toLower ∧
      ((Char.ofNat n).isDigit = true → (Char.ofNat n).toLower = Char.ofNat n) := by
  decide +kernel

theorem isWord_toLower : ∀ c : Char, isWord c.toLower = isWord c :=
  of_ascii (fun n hn => (classes_of_small n hn).1) fun c hlower _ => by rw [hlower]

theorem isDigit_toLower : ∀ c : Char, c.toLower.isDigit = c.isDigit :=
  of_ascii (fun n hn => (classes_of_small n hn).2.1) fun c hlower _ => by rw [hlower]

theorem blank_toLower : ∀ c : Char, c.toLower = ' ' ↔ c = ' ' :=
  of_ascii (fun n hn => (classes_of_small n hn).2.2.1) fun c hlower _ => by rw [hlower]

/-! ## Expressions with the flag `i` -/

theorem blind_litIgnoreCase (w : List Char) : (litIgnoreCase w).blind Char.toLower := by
  refine blind_seqs fun p hp => ?_
  obtain ⟨c, -, rfl⟩ := List.mem_map.mp hp
  intro d
  show decide (d.toLower.toLower = c.toLower) = decide (d.toLower = c.toLower)
  rw [toLower_toLower]

theorem blind_anyWord (ws : List String) : (anyWord ws).blind Char.toLower := by
  refine blind_alts fun p hp => ?_
  obtain ⟨w, -, rfl⟩ := List.mem_map.mp hp
  exact blind_litIgnoreCase w.toList

theorem blind_spaces : spaces.blind Char.toLower := ⟨isSpace_toLower, isSpace_toLower⟩

theorem blind_wordPattern (w : List Char) : (wordPattern w).blind Char.toLower :=
  ⟨trivial, blind_litIgnoreCase w, trivial⟩

theorem blind_compoundNumber : compoundNumber.blind Char.toLower :=
  ⟨trivial, blind_anyWord _, blind_spaces, blind_anyWord _, trivial⟩

theorem blind_multipliedNumber (multiplier : String) :
    (multipliedNumber multiplier).blind Char.toLower :=
  ⟨trivial, ⟨⟨isDigit_toLower, isDigit_toLower⟩, blind_anyWord _⟩, blind_spaces,
    blind_litIgnoreCase _, trivial⟩

/-! ## The stages -/

theorem replaceAll_spelling {p : Pattern} (hp : p.blind Char.toLower) {g : Match → List Char}
    (hg : ∀ m m' : Match, p.Found m → p.Found m' → m.map Char.toLower = m'.map Char.toLower →
      lowerCase (g m) = lowerCase (g m')) (h : lowerCase t = lowerCase u) :
    lowerCase (p.replaceAll g t) = lowerCase (p.replaceAll g u) :=
  replaceAll_congr isWord_toLower hp hg h

theorem lowerCase_trim_congr (h : lowerCase t = lowerCase u) :
    lowerCase (trim t) = lowerCase (trim u) := by
  rw [← trim_lowerCase, ← trim_lowerCase, h]

theorem lowerCase_drop_congr (n : ℕ) (h : lowerCase t = lowerCase u) :
    lowerCase (t.drop n) = lowerCase (u.drop n) := by
  unfold lowerCase at h ⊢
  rw [List.map_drop, List.map_drop, h]

theorem lowerCase_eq_nil_iff : lowerCase t = [] ↔ t = [] := List.map_eq_nil_iff

theorem lowerCase_sanitize_congr (h : lowerCase t = lowerCase u) :
    lowerCase (sanitize t) = lowerCase (sanitize u) := by
  refine lowerCase_trim_congr (replaceAll_spelling blind_spaces (fun _ _ _ _ _ => rfl) ?_)
  -- what becomes a space has no case
  have hcontrol : ∀ c : Char, (if c.toLower.toNat ≤ 0x1F ∨ c.toLower.toNat = 0x7F then ' '
      else c.toLower) = (if c.toNat ≤ 0x1F ∨ c.toNat = 0x7F then ' ' else c).toLower :=
    of_ascii (fun n hn => (classes_of_small n hn).2.2.2.1) fun c hlower _ => by
      rw [hlower]
      split
      · rfl
      · exact hlower.symm
  have hmap : ∀ v : List Char,
      lowerCase (v.map fun c => if c.toNat ≤ 0x1F ∨ c.toNat = 0x7F then ' ' else c) =
        (lowerCase v).map fun c => if c.toNat ≤ 0x1F ∨ c.toNat = 0x7F then ' ' else c := by
    intro v
    unfold lowerCase
    rw [List.map_map, List.map_map]
    exact List.map_congr_left fun c _ => (hcontrol c).symm
  rw [hmap, hmap, h]

theorem lowerCase_expandTemplate_congr (data : ParserData) (h : lowerCase t = lowerCase u) :
    lowerCase (expandTemplate data t) = lowerCase (expandTemplate data u) := by
  unfold expandTemplate
  dsimp only
  rw [h]
  cases lookUp data.templates ((trim (lowerCase u)).takeWhile fun c => !isSpace c) with
  | none => exact h
  | some template =>
    dsimp only
    generalize (trim (lowerCase u)).takeWhile (fun c => !isSpace c) = firstToken
    have hrest := lowerCase_trim_congr (lowerCase_drop_congr firstToken.length h)
    have hnil : trim (t.drop firstToken.length) = [] ↔ trim (u.drop firstToken.length) = [] := by
      rw [← lowerCase_eq_nil_iff, hrest, lowerCase_eq_nil_iff]
    by_cases hfirst : firstToken = []
    · rw [if_pos hfirst, if_pos hfirst]
      exact h
    · rw [if_neg hfirst, if_neg hfirst]
      by_cases hempty : trim (u.drop firstToken.length) = []
      · rw [if_pos hempty, if_pos (hnil.mpr hempty)]
      · rw [if_neg hempty, if_neg (mt hnil.mp hempty), lowerCase_append, lowerCase_append]
        exact congrArg (lowerCase template ++ ' ' :: ·) hrest

theorem lowerCase_expandLearnedAlias_congr (data : ParserData) (h : lowerCase t = lowerCase u) :
    lowerCase (expandLearnedAlias data t) = lowerCase (expandLearnedAlias data u) := by
  unfold expandLearnedAlias
  dsimp only
  rw [h]
  cases (byLength data.learnedAliases).find? fun e =>
      decide (lowerCase u = e.1) || (e.1 ++ [' ']).isPrefixOf (lowerCase u) with
  | none => exact h
  | some e =>
    dsimp only
    rw [lowerCase_append, lowerCase_append, lowerCase_drop_congr e.1.length h]

theorem lowerCase_expandAliases_congr (h : lowerCase t = lowerCase u) :
    lowerCase (expandAliases t) = lowerCase (expandAliases u) := by
  have hblank : (fun c : Char => decide (c ≠ ' ')) ∘ Char.toLower = fun c => decide (c ≠ ' ') :=
    funext fun c => decide_eq_decide.mpr (not_congr (blank_toLower c))
  have hfirst : ∀ v : List Char, lowerCase (v.takeWhile (· ≠ ' ')) =
      (lowerCase v).takeWhile (· ≠ ' ') := by
    intro v
    unfold lowerCase
    rw [List.takeWhile_map, hblank]
  have hrest : ∀ v : List Char, lowerCase (v.dropWhile (· ≠ ' ')) =
      (lowerCase v).dropWhile (· ≠ ' ') := by
    intro v
    unfold lowerCase
    rw [List.dropWhile_map, hblank]
  unfold expandAliases
  dsimp only
  rw [hfirst, hfirst, h]
  cases COMMAND_ALIASES.find? fun e => e.1.toList = (lowerCase u).takeWhile (· ≠ ' ') with
  | none => exact h
  | some e =>
    dsimp only
    rw [lowerCase_append, lowerCase_append, hrest, hrest, h]

/-- A replacement of every word of a list, one after another. -/
theorem lowerCase_foldl_congr {α : Type} {rewrite : List Char → α → List Char}
    (hrewrite : ∀ (a : α) (v w : List Char), lowerCase v = lowerCase w →
      lowerCase (rewrite v a) = lowerCase (rewrite w a))
    (as : List α) (h : lowerCase t = lowerCase u) :
    lowerCase (as.foldl rewrite t) = lowerCase (as.foldl rewrite u) := by
  induction as generalizing t u with
  | nil => exact h
  | cons a as ih => exact ih (hrewrite a t u h)

theorem lowerCase_group_congr {m m' : Match} (h : m.map Char.toLower = m'.map Char.toLower)
    (n : ℕ) : lowerCase (m.group n) = lowerCase (m'.group n) := by
  rw [lowerCase_eq, lowerCase_eq, ← Match.group_map, ← Match.group_map, h]

theorem compounded_congr {m m' : Match} (h : m.map Char.toLower = m'.map Char.toLower) :
    compounded m = compounded m' := by
  unfold compounded
  rw [lowerCase_group_congr h, lowerCase_group_congr h]

/-- What an expression with the flag `i` reads. -/
theorem reads_litIgnoreCase {w : List Char} {s r : Cursor} (hr : r ∈ (litIgnoreCase w).results s) :
    ∃ v, Reads s v r ∧ lowerCase v = lowerCase w := by
  induction w generalizing s with
  | nil =>
    obtain rfl := List.mem_singleton.mp hr
    exact ⟨[], reads_nil r, rfl⟩
  | cons c w ih =>
    have hseq : (litIgnoreCase (c :: w)).results s =
        ((char fun d => decide (d.toLower = c.toLower)).results s).flatMap
          (litIgnoreCase w).results := results_seqs_cons _ _ s
    rw [hseq] at hr
    obtain ⟨m, hm, hr⟩ := List.mem_flatMap.mp hr
    obtain ⟨v, hv, hlower⟩ := ih hr
    obtain ⟨before, after, captures⟩ := s
    cases after with
    | nil => cases hm
    | cons d after =>
      rw [results] at hm
      dsimp only at hm
      split at hm
      · next hd =>
        obtain rfl := List.mem_singleton.mp hm
        refine ⟨d :: v, ⟨by rw [List.cons_append, ← hv.after], ?_⟩, ?_⟩
        · rw [hv.before, List.reverse_cons, List.append_assoc]
          rfl
        · rw [lowerCase, List.map_cons, of_decide_eq_true hd]
          exact congrArg (c.toLower :: ·) hlower
      · cases hm

theorem groups_litIgnoreCase (w : List Char) : (litIgnoreCase w).groups = [] := by
  unfold litIgnoreCase literal
  induction w with
  | nil => rfl
  | cons c w ih =>
    cases w with
    | nil => rfl
    | cons d w => exact ih

/-- The words that are multiplied have values. -/
theorem numberWord_multiplied : ∀ w ∈ onesWords ++ ["ten"],
    (numberWord (lowerCase w.toList)).isSome = true := by decide

theorem groups_multiplier : (alt digits (anyWord (onesWords ++ ["ten"]))).groups = [] := by decide

/-- A number that is multiplied: digits, or a word that has a value. -/
theorem multiplied_word {multiplier : String} {m : Match}
    (hm : (multipliedNumber multiplier).Found m) :
    (∀ c ∈ m.group 1, c.isDigit = true) ∨ (numberWord (lowerCase (m.group 1))).isSome := by
  obtain ⟨before, after, r, hr, rfl⟩ := hm
  -- the group stands behind the boundary, and nothing behind it captures
  obtain ⟨s, hs, hr⟩ := List.mem_flatMap.mp hr
  obtain ⟨x, hx, hr⟩ := List.mem_flatMap.mp hr
  rw [results] at hs
  split at hs
  case isFalse => cases hs
  case isTrue =>
    obtain rfl := List.mem_singleton.mp hs
    obtain ⟨y, hy, rfl⟩ := List.mem_map.mp hx
    have hword : ∃ v, Reads { before, after } v y ∧
        ((∀ c ∈ v, c.isDigit = true) ∨ (numberWord (lowerCase v)).isSome = true) := by
      rcases List.mem_append.mp hy with hdigits | hword
      · obtain ⟨v, hv⟩ := results_success hdigits
        refine ⟨v, hv.reads, .inl fun c hc => ?_⟩
        exact (Bool.or_eq_true_iff.mp (hv.allowed c hc)).elim id id
      · obtain ⟨p, hp, hread⟩ := mem_results_alts hword
        obtain ⟨w, hw, rfl⟩ := List.mem_map.mp hp
        obtain ⟨v, hv, hlower⟩ := reads_litIgnoreCase hread
        exact ⟨v, hv, .inr (by rw [hlower]; exact numberWord_multiplied w hw)⟩
    obtain ⟨v, hv, hvalue⟩ := hword
    have hempty : y.captures = [] := List.eq_nil_iff_forall_not_mem.mpr fun capture hcapture => by
      have hbefore := captures_of_groups (groups_multiplier) hy hcapture
      cases hbefore
    have hcaptures : (capture 1 { before, after } y).captures = [(1, v)] := by
      rw [capture_captures hv, hempty]
    change r ∈ (seqs [spaces, litIgnoreCase multiplier.toList, boundary]).results
      (capture 1 { before, after } y) at hr
    have hrest : (seqs [spaces, litIgnoreCase multiplier.toList, boundary]).groups = [] := by
      show (litIgnoreCase multiplier.toList).groups ++ [] = []
      rw [groups_litIgnoreCase]
      rfl
    have honly : ∀ c ∈ r.captures, c = (1, v) := by
      intro c hc
      have hgroup := captures_of_groups hrest hr hc
      rw [hcaptures] at hgroup
      exact List.mem_singleton.mp hgroup
    have hmem : (1, v) ∈ r.captures := by
      refine (results_captures hr).1 _ ?_
      rw [hcaptures]
      exact List.mem_cons_self
    rw [group_of_mem (m := toMatch { before, after } r) hmem honly]
    exact hvalue

/-- Digits have no case. -/
theorem lowerCase_digits (h : ∀ c ∈ t, c.isDigit = true) : lowerCase t = t := by
  have hdigit : ∀ c : Char, c.isDigit = true → c.toLower = c :=
    of_ascii (fun n hn => (classes_of_small n hn).2.2.2.2) fun c hlower _ _ => hlower
  unfold lowerCase
  rw [List.map_congr_left fun c hc => hdigit c (h c hc)]
  exact List.map_id t

theorem multiplied_congr {multiplier : String} {factor : ℕ} {m m' : Match}
    (hm : (multipliedNumber multiplier).Found m) (hm' : (multipliedNumber multiplier).Found m')
    (h : m.map Char.toLower = m'.map Char.toLower) :
    lowerCase (multiplied factor m) = lowerCase (multiplied factor m') := by
  have hlower := lowerCase_group_congr h 1
  have hval : (numberWord (lowerCase (m.group 1))).getD (Nat.ofDigitChars 10 (m.group 1) 0) =
      (numberWord (lowerCase (m'.group 1))).getD (Nat.ofDigitChars 10 (m'.group 1) 0) := by
    rw [← hlower]
    cases hword : numberWord (lowerCase (m.group 1)) with
    | some n => rfl
    | none =>
      have hdigits := (multiplied_word hm).resolve_right (by rw [hword]; exact Bool.false_ne_true)
      have hdigits' := (multiplied_word hm').resolve_right
        (by rw [← hlower, hword]; exact Bool.false_ne_true)
      have hsame : m.group 1 = m'.group 1 := by
        rw [← lowerCase_digits hdigits, hlower, lowerCase_digits hdigits']
      rw [hsame]
  unfold multiplied
  dsimp only
  rw [hval]
  split
  · rfl
  · exact hlower

theorem lowerCase_normalizeNumberWords_congr (h : lowerCase t = lowerCase u) :
    lowerCase (normalizeNumberWords t) = lowerCase (normalizeNumberWords u) := by
  have hcompound := replaceAll_spelling (g := compounded) blind_compoundNumber
    (fun m m' _ _ hm => congrArg lowerCase (compounded_congr hm)) h
  have hhundred := replaceAll_spelling (g := multiplied 100) (blind_multipliedNumber "hundred")
    (fun m m' hf hf' hm => multiplied_congr hf hf' hm) hcompound
  have hthousand := replaceAll_spelling (g := multiplied 1000) (blind_multipliedNumber "thousand")
    (fun m m' hf hf' hm => multiplied_congr hf hf' hm) hhundred
  unfold normalizeNumberWords
  dsimp only
  refine lowerCase_foldl_congr (fun e v w hvw => ?_) _ hthousand
  exact replaceAll_spelling (blind_wordPattern e.1.toList) (fun _ _ _ _ _ => rfl) hvw

theorem lowerCase_normalizeAssetText_congr (data : ParserData) (h : lowerCase t = lowerCase u) :
    lowerCase (normalizeAssetText data t) = lowerCase (normalizeAssetText data u) := by
  unfold normalizeAssetText
  dsimp only
  refine lowerCase_foldl_congr (fun e v w hvw =>
    replaceAll_spelling (blind_wordPattern e.1) (fun _ _ _ _ _ => rfl) hvw) _ ?_
  exact lowerCase_foldl_congr (fun e v w hvw =>
    replaceAll_spelling (blind_litIgnoreCase e.1) (fun _ _ _ _ _ => rfl) hvw) _ h

/-- **Two spellings of a command are the same command in small letters.** -/
theorem lowerCase_normalize_congr (data : ParserData) (h : lowerCase t = lowerCase u) :
    lowerCase (normalize data t) = lowerCase (normalize data u) :=
  lowerCase_normalizeAssetText_congr data <| lowerCase_normalizeNumberWords_congr <|
    lowerCase_expandAliases_congr <| lowerCase_expandLearnedAlias_congr data <|
      lowerCase_expandTemplate_congr data <| lowerCase_sanitize_congr h

/-! ## Intents -/

theorem isSome_firstOf (os : List (Option ParsedIntent)) :
    (firstOf os).isSome = os.any Option.isSome := by
  induction os with
  | nil => rfl
  | cons o os ih =>
    cases o with
    | none => exact ih
    | some intent => rfl

theorem isSome_onMatch (p : Pattern) (f : Match → ParsedIntent) (text : List Char) :
    (onMatch p (fun m => some (f m)) text).isSome = (p.exec text).isSome := by
  unfold onMatch
  cases p.exec text with
  | none => rfl
  | some m => rfl

/-- Whether a text is a command of the wallet does not depend on how its name was typed. -/
theorem isSome_walletCommands (normalized normalized' lower : List Char) :
    (walletCommands normalized lower).isSome = (walletCommands normalized' lower).isSome := by
  unfold walletCommands
  simp only [isSome_firstOf, List.any_cons, isSome_onMatch]

section Filtered

variable {P : ParsedIntent → Bool}

theorem filter_firstOf_congr {o o' : Option ParsedIntent} {os os' : List (Option ParsedIntent)}
    (hsome : o.isSome = o'.isSome) (h : o.filter P = o'.filter P)
    (hs : (firstOf os).filter P = (firstOf os').filter P) :
    (firstOf (o :: os)).filter P = (firstOf (o' :: os')).filter P := by
  cases o with
  | none =>
    cases o' with
    | none => exact hs
    | some intent' => cases hsome
  | some intent =>
    cases o' with
    | none => cases hsome
    | some intent' => exact h

theorem filter_firstOf_single (o : Option ParsedIntent) : (firstOf [o]).filter P = o.filter P := by
  cases o with
  | none => rfl
  | some intent => rfl

end Filtered

/-- A group gives no intent of an action of another group. -/
theorem filter_shaped {g : CommandGroup} {o : Option ParsedIntent} (h : Yields (Shaped g) o)
    {action : ActionType} (hgroup : action.group ≠ g) (hhelp : action ≠ .Help) :
    o.filter (·.action = action) = none := by
  refine Option.filter_eq_none_iff.mpr fun intent hintent haction => ?_
  obtain rfl := of_decide_eq_true haction
  rcases (h intent hintent).1 with hsame | hsame
  · exact hhelp hsame
  · exact hgroup hsame

/-- **Two spellings of a command have the same intent**, if any has one of an action that reads
no name as it was typed. -/
theorem localParse_spelling (data : ParserData) {action : ActionType}
    (hwallet : action.group ≠ .wallet) (hearn : action.group ≠ .earn) (hhelp : action ≠ .Help)
    (h : lowerCase t = lowerCase u) :
    (localParse data t).filter (·.action = action) =
      (localParse data u).filter (·.action = action) := by
  have hlower := lowerCase_normalize_congr data h
  have hwalletNone := fun normalized lower =>
    filter_shaped (shaped_wallet normalized lower) hwallet hhelp
  have hearnNone := fun normalized lower =>
    filter_shaped (shaped_earn normalized lower) hearn hhelp
  unfold localParse
  dsimp only
  rw [hlower]
  refine filter_firstOf_congr rfl rfl ?_
  refine filter_firstOf_congr (isSome_walletCommands _ _ _) ?_ ?_
  · rw [hwalletNone, hwalletNone]
  iterate 9 refine filter_firstOf_congr rfl rfl ?_
  rw [filter_firstOf_single, filter_firstOf_single, hearnNone, hearnNone]

end Interpreter

end FlashEdge
