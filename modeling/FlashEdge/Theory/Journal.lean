import Mathlib.Algebra.BigOperators.Group.List.Basic
import Mathlib.Algebra.Order.BigOperators.Group.List

/-!
# Journals

A journal is a list of amounts with the dates they were booked on, in the order
they were booked. A counter that is kept up to date as entries come in is right
when it is a total of the journal.

- `total`, `totalOn`: the sum of the entries, and of those of one date.
- `totalOn_snoc`: one more entry.
- `totalOn_of_forall_ne`: a date without entries.
-/

namespace FlashEdge

universe u v

namespace Journal

variable {τ : Type u} {K : Type v}

/-- The sum of all entries. -/
def total [AddCommMonoid K] (j : List (τ × K)) : K := (j.map Prod.snd).sum

/-- The sum of the entries of one date. -/
def totalOn [DecidableEq τ] [AddCommMonoid K] (d : τ) (j : List (τ × K)) : K :=
  total (j.filter fun e => e.1 = d)

section Sums

variable [AddCommMonoid K]

@[simp] theorem total_nil : total ([] : List (τ × K)) = 0 := rfl

theorem total_snoc (j : List (τ × K)) (e : τ × K) : total (j ++ [e]) = total j + e.2 := by
  simp [total]

variable [DecidableEq τ]

/-- One more entry counts on its own date. -/
theorem totalOn_snoc (d : τ) (j : List (τ × K)) (e : τ × K) :
    totalOn d (j ++ [e]) = totalOn d j + if e.1 = d then e.2 else 0 := by
  unfold totalOn
  rw [List.filter_append]
  by_cases hd : e.1 = d
  · rw [if_pos hd, List.filter_cons_of_pos (by simpa using hd), List.filter_nil, total_snoc]
  · rw [if_neg hd, List.filter_cons_of_neg (by simpa using hd), List.filter_nil,
      List.append_nil, add_zero]

/-- A date on which nothing was booked. -/
theorem totalOn_of_forall_ne {d : τ} {j : List (τ × K)} (h : ∀ e ∈ j, e.1 ≠ d) :
    totalOn d j = 0 := by
  have hnone : (j.filter fun e => e.1 = d) = [] :=
    List.filter_eq_nil_iff.mpr fun e he => by simpa using h e he
  rw [totalOn, hnone, total_nil]

end Sums

/-- Amounts that are not negative add up to one that is not. -/
theorem totalOn_nonneg [DecidableEq τ] [AddCommMonoid K] [PartialOrder K] [IsOrderedAddMonoid K]
    {j : List (τ × K)} (h : ∀ e ∈ j, 0 ≤ e.2) (d : τ) : 0 ≤ totalOn d j := by
  refine List.sum_nonneg fun x hx => ?_
  obtain ⟨e, he, rfl⟩ := List.mem_map.mp hx
  exact h e (List.mem_of_mem_filter he)

end Journal

end FlashEdge
