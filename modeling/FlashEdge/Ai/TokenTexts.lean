import FlashEdge.Ai.CommandWords
import FlashEdge.Theory.ForcedReadings
import FlashEdge.Theory.WordMatches

/-!
# Texts of tokens

The parser for opens takes one token after the other out of the text, puts a space in its place,
and tidies the spaces up. So on a text of tokens it works token by token.

- `Spaced`: a text has these tokens, with spaces between and around them.
- `trim_collapse`: tidying up joins the tokens by one space each.
- `takeOut_token`: a token that an expression matches is taken out, and the others stay.
-/

namespace FlashEdge

namespace Interpreter

open Pattern

/-- Something is there, and no space. -/
def IsToken (w : List Char) : Prop := w ≠ [] ∧ ∀ c ∈ w, isSpace c = false

instance (w : List Char) : Decidable (IsToken w) :=
  inferInstanceAs (Decidable (_ ∧ _))

/-- The text has these tokens, in this order. -/
inductive Spaced : List Char → List (List Char) → Prop where
  | nil : Spaced [] []
  | gap {c : Char} {t : List Char} {ws : List (List Char)} (hc : isSpace c = true)
      (h : Spaced t ws) : Spaced (c :: t) ws
  | last {w : List Char} (hw : IsToken w) : Spaced w [w]
  | word {w t : List Char} {c : Char} {ws : List (List Char)} (hw : IsToken w)
      (hc : isSpace c = true) (h : Spaced t ws) : Spaced (w ++ c :: t) (w :: ws)

namespace Spaced

theorem tokens {t : List Char} {ws : List (List Char)} (h : Spaced t ws) :
    ∀ w ∈ ws, IsToken w := by
  induction h with
  | nil => exact fun w hw => absurd hw List.not_mem_nil
  | gap _ _ ih => exact ih
  | last hw =>
    intro w hmem
    rwa [List.mem_singleton.mp hmem]
  | word hw _ _ ih =>
    intro v hmem
    rcases List.mem_cons.mp hmem with rfl | hmem
    · exact hw
    · exact ih v hmem

/-- Two texts, with a space between them. -/
theorem append {t u : List Char} {ws vs : List (List Char)} (h : Spaced t ws) {c : Char}
    (hc : isSpace c = true) (h' : Spaced u vs) : Spaced (t ++ c :: u) (ws ++ vs) := by
  induction h with
  | nil => exact gap hc h'
  | gap hd _ ih => exact gap hd ih
  | last hw => exact word hw hc h'
  | word hw hd _ ih =>
    rw [List.append_assoc]
    exact word hw hd ih

end Spaced

/-! ## Tidying up -/

/-- Every run of spaces becomes one, and at once where a run has begun before. -/
def squeeze : Bool → List Char → List Char
  | _, [] => []
  | began, c :: t =>
    if isSpace c then (if began then squeeze true t else ' ' :: squeeze true t)
    else c :: squeeze false t

theorem replaceFrom_spaces (t before : List Char) :
    spaces.replaceFrom (fun _ => [' ']) before 0 t = squeeze false t ∧
      spaces.replaceFrom (fun _ => [' ']) before (t.takeWhile isSpace).length t =
        squeeze true t := by
  induction t generalizing before with
  | nil => exact ⟨rfl, rfl⟩
  | cons c t ih =>
    obtain ⟨hfresh, hgap⟩ := ih (c :: before)
    unfold squeeze
    by_cases hc : isSpace c = true
    · have hlen : ((c :: t).takeWhile isSpace).length = (t.takeWhile isSpace).length + 1 := by
        rw [List.takeWhile_cons_of_pos hc, List.length_cons]
      rw [if_pos hc, if_pos hc, hlen, replaceFrom, replaceFrom]
      refine ⟨?_, hgap⟩
      -- the match is the whole run
      obtain ⟨others, hresults, -⟩ := leads_many1 isSpace { before, after := c :: t }
      have hfirst : spaces.results { before, after := c :: t } =
          munch isSpace { before, after := c :: t } :: others := by
        unfold spaces
        rw [hresults]
        unfold munch1
        dsimp only
        rw [if_pos hc]
        rfl
      rw [hfirst]
      dsimp only
      have hmatched : (toMatch { before, after := c :: t }
          (munch isSpace { before, after := c :: t })).matched = (c :: t).takeWhile isSpace :=
        toMatch_matched ⟨(List.takeWhile_append_dropWhile).symm, rfl⟩
      rw [hmatched, hlen, Nat.add_sub_cancel, hgap]
      rfl
    · have hnone : spaces.results { before, after := c :: t } = [] := by
        simp [spaces, many1, results, hc]
      rw [if_neg hc, if_neg hc, List.takeWhile_cons_of_neg hc, List.length_nil, replaceFrom, hnone]
      dsimp only
      rw [hfresh]
      exact ⟨rfl, rfl⟩

theorem squeeze_token {w : List Char} (hw : ∀ c ∈ w, isSpace c = false) (began : Bool)
    (t : List Char) (hne : w ≠ []) : squeeze began (w ++ t) = w ++ squeeze false t := by
  induction w generalizing began with
  | nil => exact absurd rfl hne
  | cons c w ih =>
    have hc : ¬ isSpace c = true := by
      rw [hw c List.mem_cons_self]
      exact Bool.false_ne_true
    rw [List.cons_append, squeeze, if_neg hc, List.cons_append]
    cases w with
    | nil => rfl
    | cons d w =>
      have htail : ∀ e ∈ d :: w, isSpace e = false := fun e he => hw e (List.mem_cons_of_mem c he)
      rw [ih htail false (List.cons_ne_nil d w)]

/-- What a text becomes but for a space in front. -/
theorem squeeze_spaced {t : List Char} {ws : List (List Char)} (h : Spaced t ws) :
    (∃ trail, (trail = [] ∨ trail = [' '] ∧ ws ≠ []) ∧ squeeze true t = joinWords ws ++ trail) ∧
      (squeeze false t = squeeze true t ∨ squeeze false t = ' ' :: squeeze true t) := by
  induction h with
  | nil => exact ⟨⟨[], .inl rfl, rfl⟩, .inl rfl⟩
  | @gap c t ws hc _ ih =>
    have htrue : squeeze true (c :: t) = squeeze true t := by
      rw [squeeze, if_pos hc]
      rfl
    have hfalse : squeeze false (c :: t) = ' ' :: squeeze true t := by
      rw [squeeze, if_pos hc]
      rfl
    rw [htrue, hfalse]
    exact ⟨ih.1, .inr rfl⟩
  | @last w hw =>
    have hsame : ∀ began, squeeze began w = w := by
      intro began
      have hkeep := squeeze_token hw.2 began [] hw.1
      rw [List.append_nil] at hkeep
      rw [hkeep]
      exact List.append_nil w
    rw [hsame, hsame, joinWords_singleton]
    exact ⟨⟨[], .inl rfl, (List.append_nil w).symm⟩, .inl rfl⟩
  | @word w t c ws hw hc _ ih =>
    obtain ⟨⟨trail, htrail, ht⟩, -⟩ := ih
    have hsame : ∀ began, squeeze began (w ++ c :: t) = w ++ ' ' :: squeeze true t := by
      intro began
      rw [squeeze_token hw.2 began _ hw.1, squeeze, if_pos hc]
      rfl
    rw [hsame, hsame, ht]
    refine ⟨?_, .inl rfl⟩
    cases ws with
    | nil =>
      rcases htrail with rfl | ⟨-, hne⟩
      · exact ⟨[' '], .inr ⟨rfl, List.cons_ne_nil _ _⟩, by rw [joinWords_singleton]; rfl⟩
      · exact absurd rfl hne
    | cons v ws =>
      refine ⟨trail, htrail.imp_right fun h => ⟨h.1, List.cons_ne_nil _ _⟩, ?_⟩
      rw [joinWords_cons, List.append_assoc]
      rfl

theorem head_tokens {w : List Char} (hw : IsToken w) (ws : List (List Char)) :
    ∃ c rest, joinWords (w :: ws) = c :: rest ∧ isSpace c = false := by
  obtain ⟨hne, hchars⟩ := hw
  cases w with
  | nil => exact absurd rfl hne
  | cons c w =>
    have hc := hchars c List.mem_cons_self
    refine ⟨c, w ++ ws.flatMap fun u => ' ' :: u, ?_, hc⟩
    unfold joinWords
    rw [intercalate_eq]
    rfl

theorem last_tokens {w : List Char} {ws : List (List Char)} (h : ∀ v ∈ w :: ws, IsToken v) :
    ∃ v d, joinWords (w :: ws) = v ++ [d] ∧ isSpace d = false := by
  induction ws generalizing w with
  | nil =>
    obtain ⟨hne, hchars⟩ := h w List.mem_cons_self
    rcases List.eq_nil_or_concat w with rfl | ⟨v, d, rfl⟩
    · exact absurd rfl hne
    · exact ⟨v, d, by rw [joinWords_singleton, List.concat_eq_append], hchars d (by simp)⟩
  | cons u ws ih =>
    obtain ⟨v, d, hsplit, hd⟩ := ih fun x hx => h x (List.mem_cons_of_mem w hx)
    exact ⟨w ++ ' ' :: v, d, by rw [joinWords_cons, hsplit, List.append_assoc]; rfl, hd⟩

theorem mem_joinWords_of_mem {ws : List (List Char)} {w : List Char} {c : Char} (hw : w ∈ ws)
    (hc : c ∈ w) : c ∈ joinWords ws := by
  cases ws with
  | nil => cases hw
  | cons v ws =>
    unfold joinWords
    rw [intercalate_eq]
    rcases List.mem_cons.mp hw with rfl | hw
    · exact List.mem_append_left _ hc
    · exact List.mem_append_right _ (List.mem_flatMap.mpr ⟨w, hw, List.mem_cons_of_mem _ hc⟩)

theorem trim_space (t : List Char) : trim (' ' :: t) = trim t := by
  unfold trim
  rw [List.dropWhile_cons_of_pos rfl]

theorem trim_trail {c : Char} (hc : isSpace c = false) (t : List Char) {trail : List Char}
    (htrail : trail = [] ∨ trail = [' ']) (hlast : ∃ v d, c :: t = v ++ [d] ∧ isSpace d = false) :
    trim (c :: t ++ trail) = c :: t := by
  have hhead : (c :: t ++ trail).dropWhile isSpace = c :: t ++ trail :=
    List.dropWhile_cons_of_neg (by rw [hc]; exact Bool.false_ne_true)
  obtain ⟨v, d, hsplit, hd⟩ := hlast
  unfold trim
  rw [hhead, hsplit]
  rcases htrail with rfl | rfl
  · rw [List.append_nil]
    exact reverse_dropWhile_reverse hd
  · rw [List.reverse_concat, List.dropWhile_cons_of_pos rfl]
    exact reverse_dropWhile_reverse hd

/-- **Tidying up joins the tokens by one space each.** -/
theorem trim_collapse {t : List Char} {ws : List (List Char)} (h : Spaced t ws) :
    trim (collapse t) = joinWords ws := by
  have hcollapse : collapse t = squeeze false t := (replaceFrom_spaces t []).1
  obtain ⟨⟨trail, htrail, htrue⟩, hfalse⟩ := squeeze_spaced h
  have hlead : trim (squeeze false t) = trim (squeeze true t) := by
    rcases hfalse with hfalse | hfalse
    · rw [hfalse]
    · rw [hfalse, trim_space]
  rw [hcollapse, hlead, htrue]
  cases ws with
  | nil =>
    rcases htrail with rfl | ⟨-, hne⟩
    · rfl
    · exact absurd rfl hne
  | cons w ws =>
    obtain ⟨c, rest, hhead, hc⟩ := head_tokens (h.tokens w List.mem_cons_self) ws
    have hlast := last_tokens h.tokens
    rw [hhead] at hlast ⊢
    exact trim_trail hc rest (htrail.imp_right And.left) hlast

/-- A text of tokens is tidy. -/
theorem spaced_joinWords {ws : List (List Char)} (hws : ∀ w ∈ ws, IsToken w) :
    Spaced (joinWords ws) ws := by
  induction ws with
  | nil => exact .nil
  | cons w ws ih =>
    have ih := ih fun v hv => hws v (List.mem_cons_of_mem w hv)
    cases ws with
    | nil =>
      rw [joinWords_singleton]
      exact .last (hws w List.mem_cons_self)
    | cons v ws => exact .word (hws w List.mem_cons_self) rfl ih

/-! ## Taking a token out -/

/-- Tokens, each with a space behind it. -/
theorem spaced_before {ws vs : List (List Char)} {t : List Char} (hws : ∀ w ∈ ws, IsToken w)
    (h : Spaced t vs) : Spaced ((ws.flatMap fun w => w ++ [' ']) ++ t) (ws ++ vs) := by
  induction ws with
  | nil => exact h
  | cons w ws ih =>
    have ih := ih fun v hv => hws v (List.mem_cons_of_mem w hv)
    rw [List.flatMap_cons, List.append_assoc, List.append_assoc]
    exact .word (hws w List.mem_cons_self) rfl ih

/-- Tokens, each with a space in front of it. -/
theorem spaced_behind {ws : List (List Char)} (hws : ∀ w ∈ ws, IsToken w) :
    Spaced (ws.flatMap fun w => ' ' :: w) ws := by
  cases ws with
  | nil => exact .nil
  | cons w ws =>
    have hjoin : ((w :: ws).flatMap fun w => ' ' :: w) = ' ' :: joinWords (w :: ws) := by
      unfold joinWords
      rw [intercalate_eq]
      rfl
    rw [hjoin]
    exact .gap rfl (spaced_joinWords hws)

/-- A token that an expression matches, and no token before it, is taken out. -/
theorem takeOut_at {p : Pattern} (hp : p.stays ' ' = true) {pre post : List (List Char)}
    {w : List Char} {m : Match} (hts : ∀ t ∈ pre ++ w :: post, IsToken t)
    (hpre : ∀ t ∈ pre, p.exec t = none) (hw : p.exec w = some m) (hbefore : m.before = [])
    (hafter : m.after = []) :
    ∃ m', p.exec (joinWords (pre ++ w :: post)) = some m' ∧ m'.captures = m.captures ∧
      takeOut p (joinWords (pre ++ w :: post)) = joinWords (pre ++ post) := by
  have hexec : p.exec (joinWords (pre ++ w :: post)) = some (m.widen
      (pre.flatMap fun t => t ++ [' ']) (post.flatMap fun t => ' ' :: t)) :=
    exec_joined hp (by decide) hpre hw
  refine ⟨_, hexec, rfl, ?_⟩
  have hreplace : p.replace (fun _ => [' ']) (joinWords (pre ++ w :: post)) =
      (pre.flatMap fun t => t ++ [' ']) ++ ' ' :: post.flatMap fun t => ' ' :: t := by
    unfold replace
    rw [hexec]
    simp [Match.widen, hbefore, hafter]
  unfold takeOut
  rw [hreplace]
  refine trim_collapse (spaced_before (fun t ht => hts t (List.mem_append_left _ ht)) ?_)
  refine .gap rfl (spaced_behind fun t ht => ?_)
  exact hts t (List.mem_append_right _ (List.mem_cons_of_mem w ht))

/-- **A token that an expression matches is taken out**, the first of its kind, and the others
stay as they are. -/
theorem takeOut_token {p : Pattern} (hp : p.stays ' ' = true) {ts rest : List (List Char)}
    {w : List Char} {m : Match} (hts : ∀ t ∈ ts, IsToken t) (hperm : ts.Perm (w :: rest))
    (hw : p.exec w = some m) (hbefore : m.before = []) (hafter : m.after = [])
    (hothers : ∀ t ∈ ts, t = w ∨ p.exec t = none) :
    ∃ us m', us.Perm rest ∧ p.exec (joinWords ts) = some m' ∧ m'.captures = m.captures ∧
      takeOut p (joinWords ts) = joinWords us := by
  -- the first occurrence of the token
  have hmem : w ∈ ts := hperm.mem_iff.mpr List.mem_cons_self
  obtain ⟨pre, post, rfl, hnot⟩ := List.eq_append_cons_of_mem hmem
  have hpre : ∀ t ∈ pre, p.exec t = none := by
    intro t ht
    refine (hothers t (List.mem_append_left _ ht)).resolve_left ?_
    rintro rfl
    exact hnot ht
  obtain ⟨m', hexec, hcaptures, htake⟩ := takeOut_at hp hts hpre hw hbefore hafter
  exact ⟨pre ++ post, m', (List.perm_middle.symm.trans hperm).cons_inv, hexec, hcaptures, htake⟩

end Interpreter

end FlashEdge
