import FlashEdge.Theory.OrderedMap
import Mathlib.Data.List.Nodup

/-!
# Counting one list off against another

Two loops over two lists that go on together pair the elements off by position, as `zip`
does; what is written under a key twice is what was written last.

- `get?_foldl_set`: a map that has been filled from a list of pairs.
- `lookup_eq_some_iff_mem`: in a list of pairs without repeated keys, look-up is membership.
- `prefix_of_counted`: a part of a list that begins with `x`, and whose rest pairs off equal
  with the list without `x`, is an initial segment that begins with `x`.
-/

namespace FlashEdge

/-- Later pairs overwrite earlier ones. -/
theorem get?_foldl_set {ν : Type} (pairs : List (String × ν)) (m : OrderedMap String ν)
    (url : String) :
    (pairs.foldl (fun m p => m.set p.1 p.2) m).get? url =
      (pairs.reverse.lookup url).or (m.get? url) := by
  induction pairs generalizing m with
  | nil => rfl
  | cons p pairs ih =>
    obtain ⟨url', value⟩ := p
    rw [List.foldl_cons, ih, List.reverse_cons, List.lookup_append, Option.or_assoc,
      OrderedMap.get?_set]
    by_cases hurl : url = url'
    · simp [hurl]
    · have hbeq : (url == url') = false := beq_false_of_ne hurl
      simp [hurl, hbeq, List.lookup_cons]

theorem lookup_map_right {α β : Type} (f : α → β) (pairs : List (String × α)) (url : String) :
    (pairs.map fun p => (p.1, f p.2)).lookup url = (pairs.lookup url).map f := by
  induction pairs with
  | nil => rfl
  | cons p pairs ih =>
    rw [List.map_cons, List.lookup_cons, List.lookup_cons, ih]
    cases url == p.1 with
    | true => rfl
    | false => rfl

theorem lookup_eq_some_iff_mem {α β : Type} [BEq α] [LawfulBEq α] {pairs : List (α × β)}
    (hnodup : (pairs.map Prod.fst).Nodup) {x : α} {y : β} :
    pairs.lookup x = some y ↔ (x, y) ∈ pairs := by
  induction pairs with
  | nil => simp
  | cons p pairs ih =>
    obtain ⟨x', y'⟩ := p
    rw [List.map_cons, List.nodup_cons] at hnodup
    rw [List.lookup_cons, List.mem_cons]
    by_cases hx : x = x'
    · subst hx
      have hnot : (x, y) ∉ pairs := fun hmem => hnodup.1 (List.mem_map.mpr ⟨_, hmem, rfl⟩)
      simp [hnot, eq_comm]
    · have hbeq : (x == x') = false := beq_false_of_ne hx
      simp [hbeq, hx, ih hnodup.2]

theorem nodup_map_fst_zip {α β : Type} {xs : List α} (ys : List β) (hnodup : xs.Nodup) :
    ((xs.zip ys).map Prod.fst).Nodup := by
  induction xs generalizing ys with
  | nil => exact List.nodup_nil
  | cons x xs ih =>
    rw [List.nodup_cons] at hnodup
    cases ys with
    | nil => exact List.nodup_nil
    | cons y ys =>
      rw [List.zip_cons_cons, List.map_cons, List.nodup_cons]
      refine ⟨fun hmem => ?_, ih ys hnodup.2⟩
      obtain ⟨⟨x', y'⟩, hpair, rfl⟩ := List.mem_map.mp hmem
      exact hnodup.1 (List.of_mem_zip hpair).1

/-- Lists that agree position by position, the second being no longer. -/
theorem prefix_of_zip {α : Type} {xs ys : List α} (hle : ys.length ≤ xs.length)
    (heq : ∀ p ∈ xs.zip ys, p.2 = p.1) : ys <+: xs := by
  induction ys generalizing xs with
  | nil => exact List.nil_prefix
  | cons y ys ih =>
    cases xs with
    | nil => cases hle
    | cons x xs =>
      rw [List.zip_cons_cons] at heq
      have hyx : y = x := heq (x, y) List.mem_cons_self
      rw [hyx, List.cons_prefix_cons]
      exact ⟨rfl, ih (Nat.le_of_succ_le_succ hle) fun p hp => heq p (List.mem_cons_of_mem _ hp)⟩

theorem zip_of_initial {α : Type} {xs ys : List α} (hinitial : ys <+: xs) :
    xs.zip ys = ys.map fun y => (y, y) := by
  induction ys generalizing xs with
  | nil => exact List.zip_nil_right
  | cons y ys ih =>
    cases xs with
    | nil => cases List.prefix_nil.mp hinitial
    | cons x xs =>
      obtain ⟨rfl, hrest⟩ := List.cons_prefix_cons.mp hinitial
      rw [List.zip_cons_cons, ih hrest, List.map_cons]

theorem filter_ne_of_not_mem {α : Type} [DecidableEq α] {x : α} {l : List α} (hx : x ∉ l) :
    l.filter (· ≠ x) = l :=
  List.filter_eq_self.mpr fun _ hy => decide_eq_true fun heq => hx (heq ▸ hy)

/-- A part of a list that begins with `x`, and whose rest agrees with the list without `x`. -/
theorem prefix_of_counted {α : Type} [DecidableEq α] {x : α} {l part : List α} (hnodup : l.Nodup)
    (hpart : part.Sublist l) (hmany : 2 ≤ part.length)
    (hcounted : ∀ y ∈ part, y ≠ x → y ∈ part.tail)
    (hsame : ∀ p ∈ (l.filter (· ≠ x)).zip part.tail, p.2 = p.1) :
    l.head? = some x ∧ part <+: l := by
  obtain ⟨first, rest, rfl⟩ := List.exists_cons_of_length_pos (by omega : 0 < part.length)
  have hrest := (List.nodup_cons.mp (hpart.nodup hnodup)).1
  obtain rfl : first = x := by
    by_contra hne
    exact hrest (hcounted first List.mem_cons_self hne)
  have hothers : rest <+: l.filter (· ≠ first) := by
    refine prefix_of_zip (List.Sublist.length_le ?_) hsame
    have hfilter := hpart.filter (· ≠ first)
    rw [List.filter_cons_of_neg (by simp), filter_ne_of_not_mem hrest] at hfilter
    exact hfilter
  cases hpart with
  | cons y hlater =>
    -- another element is the first of the list, so it would be counted first
    exfalso
    rw [List.nodup_cons] at hnodup
    have hne : y ≠ first := fun heq => hnodup.1 (heq ▸ hlater.subset List.mem_cons_self)
    rw [List.filter_cons, if_pos (decide_eq_true hne)] at hothers
    cases rest with
    | nil =>
      rw [List.length_singleton] at hmany
      omega
    | cons second rest =>
      have heq : second = y := (List.cons_prefix_cons.mp hothers).1
      exact hnodup.1 (heq ▸ hlater.subset (List.mem_cons_of_mem _ List.mem_cons_self))
  | cons_cons _ hlater =>
    rw [List.nodup_cons] at hnodup
    rw [List.filter_cons_of_neg (by simp), filter_ne_of_not_mem hnodup.1] at hothers
    exact ⟨rfl, List.cons_prefix_cons.mpr ⟨rfl, hothers⟩⟩

end FlashEdge
