import FlashEdge.Theory.Regex

/-!
# What the groups of an expression have captured

A group captures what its own pattern has read. So what is known of the characters a pattern
reads, and of whether it reads any, is known of what its groups capture.

- `Pattern.groups`: the groups of a pattern, each with the pattern inside it.
- `Pattern.results_captures`: every capture has been read by such a pattern.
- `Pattern.binds`: every success captures the group.
- `Pattern.captures_of_groups`: a pattern without groups captures nothing.
- `Pattern.group_success`: what a match has captured for a group that every success binds.
-/

namespace FlashEdge

namespace Pattern

/-- The groups, with what stands in them. -/
def groups : Pattern → List (ℕ × Pattern)
  | seq p q => groups p ++ groups q
  | alt p q => groups p ++ groups q
  | optional p => groups p
  | group n p => (n, p) :: groups p
  | _ => []

/-- Every success captures the group `n`. -/
def binds (n : ℕ) : Pattern → Bool
  | seq p q => binds n p || binds n q
  | alt p q => binds n p && binds n q
  | group k p => k = n || binds n p
  | _ => false

/-- The text has been read by the pattern of a group. -/
def ReadBy (gs : List (ℕ × Pattern)) (capture : ℕ × List Char) : Prop :=
  ∃ q s r, (capture.1, q) ∈ gs ∧ Success q s capture.2 r

theorem ReadBy.mono {gs gs' : List (ℕ × Pattern)} (hsub : ∀ g ∈ gs, g ∈ gs')
    {capture : ℕ × List Char} (h : ReadBy gs capture) : ReadBy gs' capture := by
  obtain ⟨q, s, r, hq, hread⟩ := h
  exact ⟨q, s, r, hsub _ hq, hread⟩

/-- What a success has captured is captured before, or read by the pattern of a group. -/
theorem results_captures {p : Pattern} {s r : Cursor} (hr : r ∈ p.results s) :
    (∀ capture ∈ s.captures, capture ∈ r.captures) ∧
      ∀ capture ∈ r.captures, capture ∈ s.captures ∨ ReadBy p.groups capture := by
  induction p generalizing s r with
  | empty =>
    obtain rfl := List.mem_singleton.mp hr
    exact ⟨fun _ hc => hc, fun _ hc => .inl hc⟩
  | char test =>
    obtain ⟨before, after, captures⟩ := s
    cases after with
    | nil => cases hr
    | cons c rest =>
      rw [results] at hr
      dsimp only at hr
      split at hr
      · obtain rfl := List.mem_singleton.mp hr
        exact ⟨fun _ hc => hc, fun _ hc => .inl hc⟩
      · cases hr
  | seq p q ihp ihq =>
    obtain ⟨m, hm, hr⟩ := List.mem_flatMap.mp hr
    obtain ⟨hkeptp, hreadp⟩ := ihp hm
    obtain ⟨hkeptq, hreadq⟩ := ihq hr
    refine ⟨fun c hc => hkeptq c (hkeptp c hc), fun c hc => ?_⟩
    rcases hreadq c hc with hmid | hread
    · exact (hreadp c hmid).imp_right (.mono fun g hg => List.mem_append_left _ hg)
    · exact .inr (hread.mono fun g hg => List.mem_append_right _ hg)
  | alt p q ihp ihq =>
    rcases List.mem_append.mp hr with hr | hr
    · obtain ⟨hkept, hread⟩ := ihp hr
      exact ⟨hkept, fun c hc =>
        (hread c hc).imp_right (.mono fun g hg => List.mem_append_left _ hg)⟩
    · obtain ⟨hkept, hread⟩ := ihq hr
      exact ⟨hkept, fun c hc =>
        (hread c hc).imp_right (.mono fun g hg => List.mem_append_right _ hg)⟩
  | many test =>
    obtain ⟨span, -, rfl⟩ := List.mem_map.mp hr
    exact ⟨fun _ hc => hc, fun _ hc => .inl hc⟩
  | manyLazy test =>
    obtain ⟨span, -, rfl⟩ := List.mem_map.mp hr
    exact ⟨fun _ hc => hc, fun _ hc => .inl hc⟩
  | optional p ih =>
    rcases List.mem_append.mp hr with hr | hr
    · exact ih hr
    · obtain rfl := List.mem_singleton.mp hr
      exact ⟨fun _ hc => hc, fun _ hc => .inl hc⟩
  | group n p ih =>
    obtain ⟨m, hm, rfl⟩ := List.mem_map.mp hr
    obtain ⟨hkept, hread⟩ := ih hm
    refine ⟨fun c hc => List.mem_cons_of_mem _ (hkept c hc), fun c hc => ?_⟩
    rcases List.mem_cons.mp hc with rfl | hc
    · -- the new capture is what the pattern has just read
      obtain ⟨w, hw⟩ := results_success hm
      have hcaptured : (List.take (m.before.length - s.before.length) m.before).reverse = w := by
        rw [hw.reads.before, List.length_append, Nat.add_sub_cancel_right, List.take_left' rfl,
          List.reverse_reverse]
      refine .inr ⟨p, s, m, List.mem_cons_self, ?_⟩
      dsimp only
      rw [hcaptured]
      exact hw
    · exact (hread c hc).imp_right (.mono fun g hg => List.mem_cons_of_mem _ hg)
  | start =>
    rw [results] at hr
    split at hr
    · obtain rfl := List.mem_singleton.mp hr
      exact ⟨fun _ hc => hc, fun _ hc => .inl hc⟩
    · cases hr
  | stop =>
    rw [results] at hr
    split at hr
    · obtain rfl := List.mem_singleton.mp hr
      exact ⟨fun _ hc => hc, fun _ hc => .inl hc⟩
    · cases hr
  | boundary =>
    rw [results] at hr
    split at hr
    · obtain rfl := List.mem_singleton.mp hr
      exact ⟨fun _ hc => hc, fun _ hc => .inl hc⟩
    · cases hr

/-- A success of a pattern that binds a group has captured it. -/
theorem exists_capture {n : ℕ} {p : Pattern} {s r : Cursor} (hbinds : p.binds n = true)
    (hr : r ∈ p.results s) : ∃ w, (n, w) ∈ r.captures := by
  induction p generalizing s r with
  | seq p q ihp ihq =>
    obtain ⟨m, hm, hr⟩ := List.mem_flatMap.mp hr
    rcases Bool.or_eq_true_iff.mp hbinds with hp | hq
    · obtain ⟨w, hw⟩ := ihp hp hm
      exact ⟨w, (results_captures hr).1 _ hw⟩
    · exact ihq hq hr
  | alt p q ihp ihq =>
    obtain ⟨hp, hq⟩ := Bool.and_eq_true_iff.mp hbinds
    rcases List.mem_append.mp hr with hr | hr
    · exact ihp hp hr
    · exact ihq hq hr
  | group k p ih =>
    obtain ⟨m, hm, rfl⟩ := List.mem_map.mp hr
    rcases Bool.or_eq_true_iff.mp hbinds with hk | hp
    · obtain rfl := of_decide_eq_true hk
      exact ⟨_, List.mem_cons_self⟩
    · obtain ⟨w, hw⟩ := ih hp hm
      exact ⟨w, List.mem_cons_of_mem _ hw⟩
  | _ => cases hbinds

/-- A match comes from a success. -/
theorem exec_captures {p : Pattern} {text : List Char} {m : Match} (h : p.exec text = some m) :
    ∃ before after r, r ∈ p.results { before, after } ∧ m.captures = r.captures := by
  have hgeneral : ∀ before after, p.execFrom before after = some m →
      ∃ before after r, r ∈ p.results { before, after } ∧ m.captures = r.captures := by
    intro before after hexec
    induction after generalizing before with
    | nil =>
      rw [execFrom] at hexec
      split at hexec
      · next r rs hr =>
        obtain rfl := Option.some.inj hexec
        exact ⟨before, [], r, by rw [hr]; exact List.mem_cons_self, rfl⟩
      · cases hexec
    | cons c after ih =>
      rw [execFrom] at hexec
      split at hexec
      · next r rs hr =>
        obtain rfl := Option.some.inj hexec
        exact ⟨before, c :: after, r, by rw [hr]; exact List.mem_cons_self, rfl⟩
      · exact ih _ hexec
  exact hgeneral [] text h

/-- What a match has captured for a group that every success binds. -/
theorem group_success {p : Pattern} {text : List Char} {m : Match} {n : ℕ}
    (h : p.exec text = some m) (hbinds : p.binds n = true) :
    m.group? n = some (m.group n) ∧ ReadBy p.groups (n, m.group n) := by
  obtain ⟨before, after, r, hr, hcaptures⟩ := exec_captures h
  obtain ⟨w, hw⟩ := exists_capture hbinds hr
  cases hfound : m.captures.find? (fun capture => capture.1 = n) with
  | none =>
    rw [hcaptures, List.find?_eq_none] at hfound
    exact absurd (decide_eq_true rfl) (hfound _ hw)
  | some capture =>
    have htest := List.find?_some hfound
    have hn : capture.1 = n := of_decide_eq_true htest
    have hgroup : m.group? n = some capture.2 := by
      unfold Match.group?
      rw [hfound]
      rfl
    have hvalue : m.group n = capture.2 := by
      unfold Match.group
      rw [hgroup]
      rfl
    rw [hvalue]
    refine ⟨hgroup, ?_⟩
    have hmem : capture ∈ r.captures := hcaptures ▸ List.mem_of_find?_eq_some hfound
    rcases (results_captures hr).2 capture hmem with hbefore | hread
    · cases hbefore
    · subst hn
      exact hread

/-- A pattern without groups captures nothing. -/
theorem captures_of_groups {p : Pattern} {s r : Cursor} (hp : p.groups = []) (hr : r ∈ p.results s)
    {capture : ℕ × List Char} (h : capture ∈ r.captures) : capture ∈ s.captures := by
  rcases (results_captures hr).2 capture h with hbefore | ⟨q, x, y, hq, -⟩
  · exact hbefore
  · rw [hp] at hq
    cases hq

/-- A group that is captured once has that text. -/
theorem group_of_mem {m : Match} {n : ℕ} {w : List Char} (hmem : (n, w) ∈ m.captures)
    (honly : ∀ capture ∈ m.captures, capture = (n, w)) : m.group n = w := by
  unfold Match.group Match.group?
  cases hfound : m.captures.find? (fun capture => capture.1 = n) with
  | none => exact absurd (decide_eq_true rfl) (List.find?_eq_none.mp hfound _ hmem)
  | some capture =>
    rw [honly capture (List.mem_of_find?_eq_some hfound)]
    rfl

end Pattern

end FlashEdge
