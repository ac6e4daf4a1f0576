import Mathlib.Data.List.Sort
import Mathlib.Order.Bounds.Basic

/-!
# Order statistics

The element at a place of a sorted list, said of the list before it was sorted.

- `HasRank xs k v`: `v` is in the list, at most `k` elements are below it and more than `k` are
  not above it.
- `hasRank_getElem`: the element at place `k` after sorting has rank `k`.
- `HasRank.mono`: a higher rank is no lower; so a rank has one element, `HasRank.unique`.
- `HasRank.isLeast`, `HasRank.isGreatest`: the first rank and the last one.
- `pairwise_insertionSort_of_mem`: sorting by a relation that orders only the members of the list.
-/

namespace FlashEdge

universe u

variable {α : Type u} [LinearOrder α] {xs ys : List α} {j k : ℕ} {v w : α}

/-- The element at place `k` of the sorted list. -/
structure HasRank (xs : List α) (k : ℕ) (v : α) : Prop where
  mem : v ∈ xs
  below : xs.countP (· < v) ≤ k
  notAbove : k < xs.countP (· ≤ v)

/-- Ranks do not depend on the order of the list. -/
theorem HasRank.perm (h : HasRank xs k v) (hperm : xs.Perm ys) : HasRank ys k v where
  mem := hperm.mem_iff.mp h.mem
  below := hperm.countP_eq (· < v) ▸ h.below
  notAbove := hperm.countP_eq (· ≤ v) ▸ h.notAbove

/-- The element at a place of a sorted list. -/
theorem hasRank_of_pairwise (hsorted : ys.Pairwise (· ≤ ·)) (hk : k < ys.length) :
    HasRank ys k ys[k] := by
  have hsplit : ys.take k ++ ys[k] :: ys.drop (k + 1) = ys := by
    rw [← List.drop_eq_getElem_cons hk, List.take_append_drop]
  rw [← hsplit, List.pairwise_append, List.pairwise_cons] at hsorted
  obtain ⟨-, ⟨hafter, -⟩, hbefore⟩ := hsorted
  refine ⟨List.getElem_mem hk, ?_, ?_⟩
  · -- what is below the element stands before it
    have hnone : (ys[k] :: ys.drop (k + 1)).countP (· < ys[k]) = 0 := by
      refine List.countP_eq_zero.mpr fun a ha => ?_
      rcases List.mem_cons.mp ha with rfl | ha
      · simp
      · simpa using hafter a ha
    have hcount := congrArg (List.countP (· < ys[k])) hsplit
    rw [List.countP_append, hnone, Nat.add_zero] at hcount
    rw [← hcount]
    exact List.countP_le_length.trans (List.length_take_le k ys)
  · -- what stands before it is not above it
    have hall : (ys.take k).countP (· ≤ ys[k]) = (ys.take k).length :=
      List.countP_eq_length.mpr fun a ha => by
        simpa using hbefore a ha ys[k] List.mem_cons_self
    have hcount := congrArg (List.countP (· ≤ ys[k])) hsplit
    rw [List.countP_append, hall, List.countP_cons_of_pos (by simp), List.length_take,
      Nat.min_eq_left hk.le] at hcount
    omega

/-- **The element at a place after sorting has that rank.** -/
theorem hasRank_getElem (hk : k < (xs.insertionSort (· ≤ ·)).length) :
    HasRank xs k (xs.insertionSort (· ≤ ·))[k] :=
  (hasRank_of_pairwise (List.pairwise_insertionSort (· ≤ ·) xs) hk).perm
    (List.perm_insertionSort (· ≤ ·) xs)

/-- **A higher rank is no lower.** -/
theorem HasRank.mono (hv : HasRank xs j v) (hw : HasRank xs k w) (h : j ≤ k) : v ≤ w := by
  by_contra hlt
  have hsub : xs.countP (· ≤ w) ≤ xs.countP (· < v) :=
    List.countP_mono_left fun a _ ha => by
      simpa using (of_decide_eq_true ha).trans_lt (not_le.mp hlt)
  have hbelow := hv.below
  have habove := hw.notAbove
  omega

theorem HasRank.unique (hv : HasRank xs k v) (hw : HasRank xs k w) : v = w :=
  le_antisymm (hv.mono hw le_rfl) (hw.mono hv le_rfl)

theorem HasRank.isLeast (h : HasRank xs 0 v) : IsLeast {a | a ∈ xs} v := by
  refine ⟨h.mem, fun a ha => not_lt.mp ?_⟩
  have hnone := List.countP_eq_zero.mp (Nat.le_zero.mp h.below) a ha
  simpa using hnone

theorem HasRank.isGreatest (h : HasRank xs (xs.length - 1) v) : IsGreatest {a | a ∈ xs} v := by
  have habove := h.notAbove
  have hall : xs.countP (· ≤ v) = xs.length := by
    have hlength : xs.countP (· ≤ v) ≤ xs.length := List.countP_le_length
    omega
  exact ⟨h.mem, fun a ha => by simpa using List.countP_eq_length.mp hall a ha⟩

/-- Sorting by a relation that is total and transitive on the members of the list. -/
theorem pairwise_insertionSort_of_mem {β : Type u} {r : β → β → Prop} [DecidableRel r] {l : List β}
    (htotal : ∀ a ∈ l, ∀ b ∈ l, r a b ∨ r b a)
    (htrans : ∀ a ∈ l, ∀ b ∈ l, ∀ c ∈ l, r a b → r b c → r a c) :
    (l.insertionSort r).Pairwise r := by
  let onMembers : {b // b ∈ l} → {b // b ∈ l} → Prop := fun a b => r a b
  have : DecidableRel onMembers := fun a b => inferInstanceAs (Decidable (r a b))
  have : Std.Total onMembers := ⟨fun a b => htotal a a.2 b b.2⟩
  have : IsTrans _ onMembers := ⟨fun a b c => htrans a a.2 b b.2 c c.2⟩
  have hmap := List.map_insertionSort onMembers r Subtype.val l.attach fun a _ b _ => Iff.rfl
  rw [List.attach_map_subtype_val] at hmap
  rw [← hmap, List.pairwise_map]
  exact List.pairwise_insertionSort onMembers l.attach

end FlashEdge
