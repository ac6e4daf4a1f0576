import Mathlib.Data.List.Basic
import Mathlib.Order.Bounds.Basic
import Mathlib.Order.MinMax

/-!
# Levenshtein distance

The distance of two words is what the cheapest way from one to the other costs, where a letter
that is deleted, inserted or substituted costs one. The recursion that computes it goes by the
first letters, the matrix of dynamic programming by the last ones.

- `Script`: a way from one word to another. Ways can be put together and read backwards.
- `isLeast_levenshtein`: the recursion computes the distance.
- `levenshtein_reverse`: it does not matter from which end the words are read.
- `levenshtein_concat`: the recursion by the last letters, which fills the matrix.
- `length_sub_le_levenshtein`: words whose lengths are far apart are far apart.
-/

namespace FlashEdge

universe u

variable {α : Type u}

/-- A way from one word to another, with its cost: letters are deleted, inserted, substituted or
kept. -/
inductive Script : List α → List α → ℕ → Prop
  | nil : Script [] [] 0
  | delete {xs ys : List α} {n : ℕ} (x : α) : Script xs ys n → Script (x :: xs) ys (n + 1)
  | insert {xs ys : List α} {n : ℕ} (y : α) : Script xs ys n → Script xs (y :: ys) (n + 1)
  | substitute {xs ys : List α} {n : ℕ} (x y : α) :
      Script xs ys n → Script (x :: xs) (y :: ys) (n + 1)
  | keep {xs ys : List α} {n : ℕ} (x : α) : Script xs ys n → Script (x :: xs) (x :: ys) n

namespace Script

variable {xs ys xs' ys' : List α} {m n : ℕ}

theorem append (h : Script xs ys m) (h' : Script xs' ys' n) :
    Script (xs ++ xs') (ys ++ ys') (m + n) := by
  induction h with
  | nil => rwa [Nat.zero_add]
  | delete x _ ih => rw [Nat.add_right_comm]; exact ih.delete x
  | insert y _ ih => rw [Nat.add_right_comm]; exact ih.insert y
  | substitute x y _ ih => rw [Nat.add_right_comm]; exact ih.substitute x y
  | keep x _ ih => exact ih.keep x

/-- Read backwards, a way is a way. -/
theorem reverse (h : Script xs ys n) : Script xs.reverse ys.reverse n := by
  induction h with
  | nil => exact .nil
  | delete x _ ih =>
    rw [List.reverse_cons]
    simpa using ih.append (nil.delete x)
  | insert y _ ih =>
    rw [List.reverse_cons]
    simpa using ih.append (nil.insert y)
  | substitute x y _ ih =>
    rw [List.reverse_cons, List.reverse_cons]
    exact ih.append (nil.substitute x y)
  | keep x _ ih =>
    rw [List.reverse_cons, List.reverse_cons]
    exact ih.append (nil.keep x)

theorem deleteAll (xs : List α) : Script xs [] xs.length := by
  induction xs with
  | nil => exact .nil
  | cons x xs ih => exact ih.delete x

theorem insertAll (ys : List α) : Script [] ys ys.length := by
  induction ys with
  | nil => exact .nil
  | cons y ys ih => exact ih.insert y

/-- Every letter by which the lengths differ is deleted or inserted. -/
theorem length_le (h : Script xs ys n) : xs.length ≤ ys.length + n ∧ ys.length ≤ xs.length + n := by
  induction h with
  | nil => exact ⟨Nat.zero_le _, Nat.zero_le _⟩
  | delete x _ ih => simp only [List.length_cons]; omega
  | insert y _ ih => simp only [List.length_cons]; omega
  | substitute x y _ ih => simp only [List.length_cons]; omega
  | keep x _ ih => simp only [List.length_cons]; omega

/-- Where nothing is changed the words are the same. -/
theorem eq_of_free (h : Script xs ys n) (hn : n = 0) : xs = ys := by
  induction h with
  | nil => rfl
  | delete x _ _ => cases hn
  | insert y _ _ => cases hn
  | substitute x y _ _ => cases hn
  | keep x _ ih => rw [ih hn]

end Script

variable [DecidableEq α]

/-- The distance, by the first letters. -/
def levenshtein : List α → List α → ℕ
  | [], ys => ys.length
  | x :: xs, [] => (x :: xs).length
  | x :: xs, y :: ys =>
    min (min (levenshtein xs (y :: ys) + 1) (levenshtein (x :: xs) ys + 1))
      (levenshtein xs ys + if x = y then 0 else 1)
termination_by xs ys => xs.length + ys.length

theorem levenshtein_nil_right (xs : List α) : levenshtein xs [] = xs.length := by
  cases xs with
  | nil => rw [levenshtein]
  | cons x xs => rw [levenshtein]

theorem levenshtein_cons_left (x : α) (xs ys : List α) :
    levenshtein (x :: xs) ys ≤ levenshtein xs ys + 1 := by
  cases ys with
  | nil => rw [levenshtein_nil_right, levenshtein_nil_right, List.length_cons]
  | cons y ys =>
    rw [levenshtein]
    exact (min_le_left _ _).trans (min_le_left _ _)

theorem levenshtein_cons_right (y : α) (xs ys : List α) :
    levenshtein xs (y :: ys) ≤ levenshtein xs ys + 1 := by
  cases xs with
  | nil => rw [levenshtein, levenshtein, List.length_cons]
  | cons x xs =>
    rw [levenshtein]
    exact (min_le_left _ _).trans (min_le_right _ _)

/-- No way is cheaper. -/
theorem levenshtein_le {xs ys : List α} {n : ℕ} (h : Script xs ys n) : levenshtein xs ys ≤ n := by
  induction h with
  | nil => rw [levenshtein]; rfl
  | delete x _ ih => exact (levenshtein_cons_left x _ _).trans (Nat.succ_le_succ ih)
  | insert y _ ih => exact (levenshtein_cons_right y _ _).trans (Nat.succ_le_succ ih)
  | substitute x y _ ih =>
    rw [levenshtein]
    refine (min_le_right _ _).trans (Nat.add_le_add ih ?_)
    split
    · exact Nat.zero_le _
    · exact le_rfl
  | keep x _ ih =>
    rw [levenshtein, if_pos rfl]
    exact (min_le_right _ _).trans ih

/-- There is a way that costs as much. -/
theorem script_levenshtein (xs ys : List α) : Script xs ys (levenshtein xs ys) := by
  fun_induction levenshtein xs ys with
  | case1 ys => exact .insertAll ys
  | case2 x xs => exact .deleteAll (x :: xs)
  | case3 x xs y ys ihdelete ihinsert ihboth =>
    have hboth : Script (x :: xs) (y :: ys) (levenshtein xs ys + if x = y then 0 else 1) := by
      split
      · next heq =>
        subst heq
        exact ihboth.keep x
      · exact ihboth.substitute x y
    rcases min_choice (min (levenshtein xs (y :: ys) + 1) (levenshtein (x :: xs) ys + 1))
      (levenshtein xs ys + if x = y then 0 else 1) with hmin | hmin
    · rw [hmin]
      rcases min_choice (levenshtein xs (y :: ys) + 1) (levenshtein (x :: xs) ys + 1) with
        hmin' | hmin'
      · rw [hmin']
        exact ihdelete.delete x
      · rw [hmin']
        exact ihinsert.insert y
    · rw [hmin]
      exact hboth

/-- **The recursion computes the cost of the cheapest way.** -/
theorem isLeast_levenshtein (xs ys : List α) :
    IsLeast {n | Script xs ys n} (levenshtein xs ys) :=
  ⟨script_levenshtein xs ys, fun _ h => levenshtein_le h⟩

theorem eq_of_levenshtein {xs ys : List α} (h : levenshtein xs ys = 0) : xs = ys :=
  (script_levenshtein xs ys).eq_of_free h

/-- It does not matter from which end the words are read. -/
theorem levenshtein_reverse (xs ys : List α) :
    levenshtein xs.reverse ys.reverse = levenshtein xs ys := by
  refine le_antisymm (levenshtein_le (script_levenshtein xs ys).reverse) (levenshtein_le ?_)
  have hback := (script_levenshtein xs.reverse ys.reverse).reverse
  rwa [List.reverse_reverse, List.reverse_reverse] at hback

/-- The recursion by the last letters. -/
theorem levenshtein_concat (xs ys : List α) (x y : α) :
    levenshtein (xs ++ [x]) (ys ++ [y]) =
      min (min (levenshtein xs (ys ++ [y]) + 1) (levenshtein (xs ++ [x]) ys + 1))
        (levenshtein xs ys + if x = y then 0 else 1) := by
  rw [← levenshtein_reverse (xs ++ [x]) (ys ++ [y]), ← levenshtein_reverse xs (ys ++ [y]),
    ← levenshtein_reverse (xs ++ [x]) ys, ← levenshtein_reverse xs ys, List.reverse_append,
    List.reverse_append, List.reverse_singleton, List.reverse_singleton]
  exact levenshtein.eq_3 _ _ _ _

/-- Words whose lengths are far apart are far apart. -/
theorem length_sub_le_levenshtein (xs ys : List α) :
    xs.length - ys.length ≤ levenshtein xs ys ∧ ys.length - xs.length ≤ levenshtein xs ys := by
  obtain ⟨hleft, hright⟩ := (script_levenshtein xs ys).length_le
  omega

end FlashEdge
