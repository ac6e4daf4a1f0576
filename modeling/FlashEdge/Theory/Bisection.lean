import Mathlib.Algebra.Order.Field.Basic
import Mathlib.Algebra.Order.Group.Abs
import Mathlib.Tactic.Linarith
import Mathlib.Tactic.Positivity
import Mathlib.Tactic.Ring

/-!
# Bisection

A search for the least argument that meets a condition, by halving an interval whose upper end
meets it. The search stops after a number of rounds, or as soon as the interval is narrower than
a tolerance.

- `bisect`: the search.
- `bisect_upper`, `bisect_lower`: the upper end meets the condition in every round; the lower end
  does not, unless it is still where the search began.
- `bisect_width`: how narrow the interval is in the end.
-/

namespace FlashEdge

universe u

variable {K : Type u} [Field K]

/-- One round: the half that still has both kinds of ends. -/
def halve (p : K → Prop) [DecidablePred p] (lo hi : K) : K × K :=
  if p ((lo + hi) / 2) then (lo, (lo + hi) / 2) else ((lo + hi) / 2, hi)

theorem halve_upper {p : K → Prop} [DecidablePred p] {lo hi : K} (hhi : p hi) :
    p (halve p lo hi).2 := by
  unfold halve
  split
  · next hmid => exact hmid
  · exact hhi

theorem halve_lower (p : K → Prop) [DecidablePred p] (lo hi : K) :
    (halve p lo hi).1 = lo ∨ ¬ p (halve p lo hi).1 := by
  unfold halve
  split
  · exact .inl rfl
  · next hmid => exact .inr hmid

variable [LinearOrder K]

/-- So many rounds, or fewer. -/
def bisect (p : K → Prop) [DecidablePred p] (tolerance : K) : ℕ → K → K → K × K
  | 0, lo, hi => (lo, hi)
  | n + 1, lo, hi =>
    let next := halve p lo hi
    if |next.2 - next.1| < tolerance then next else bisect p tolerance n next.1 next.2

section Ends

variable {p : K → Prop} [DecidablePred p] {tolerance lo hi : K}

theorem bisect_upper {n : ℕ} (hhi : p hi) : p (bisect p tolerance n lo hi).2 := by
  induction n generalizing lo hi with
  | zero => exact hhi
  | succ n ih =>
    have hnext : p (halve p lo hi).2 := halve_upper hhi
    unfold bisect
    dsimp only
    split
    · exact hnext
    · exact ih hnext

theorem bisect_lower (n : ℕ) :
    (bisect p tolerance n lo hi).1 = lo ∨ ¬ p (bisect p tolerance n lo hi).1 := by
  induction n generalizing lo hi with
  | zero => exact .inl rfl
  | succ n ih =>
    have hnext := halve_lower p lo hi
    unfold bisect
    dsimp only
    split
    · exact hnext
    · rcases @ih (halve p lo hi).1 (halve p lo hi).2 with hsame | hnot
      · rw [hsame]
        exact hnext
      · exact .inr hnot

end Ends

section Width

variable [IsStrictOrderedRing K] {p : K → Prop} [DecidablePred p] {tolerance lo hi : K}

theorem halve_width (p : K → Prop) [DecidablePred p] (lo hi : K) :
    (halve p lo hi).2 - (halve p lo hi).1 = (hi - lo) / 2 := by
  unfold halve
  split
  · show (lo + hi) / 2 - lo = (hi - lo) / 2
    ring
  · show hi - (lo + hi) / 2 = (hi - lo) / 2
    ring

/-- The ends stay in order. -/
theorem bisect_le {n : ℕ} (h : lo ≤ hi) :
    (bisect p tolerance n lo hi).1 ≤ (bisect p tolerance n lo hi).2 := by
  induction n generalizing lo hi with
  | zero => exact h
  | succ n ih =>
    have hwidth := halve_width p lo hi
    have hnext : (halve p lo hi).1 ≤ (halve p lo hi).2 := by linarith
    unfold bisect
    dsimp only
    split
    · exact hnext
    · exact ih hnext

/-- The lower end only moves up. -/
theorem le_bisect {n : ℕ} (h : lo ≤ hi) : lo ≤ (bisect p tolerance n lo hi).1 := by
  induction n generalizing lo hi with
  | zero => exact le_rfl
  | succ n ih =>
    have hwidth := halve_width p lo hi
    have hnext : (halve p lo hi).1 ≤ (halve p lo hi).2 := by linarith
    have hlow : lo ≤ (halve p lo hi).1 := by
      unfold halve
      split
      · exact le_rfl
      · show lo ≤ (lo + hi) / 2
        linarith
    unfold bisect
    dsimp only
    split
    · exact hlow
    · exact hlow.trans (ih hnext)

/-- Narrower than the tolerance, or halved in every round. -/
theorem bisect_width {n : ℕ} :
    (bisect p tolerance n lo hi).2 - (bisect p tolerance n lo hi).1 < tolerance ∨
      (bisect p tolerance n lo hi).2 - (bisect p tolerance n lo hi).1 = (hi - lo) / 2 ^ n := by
  induction n generalizing lo hi with
  | zero => exact .inr (by rw [pow_zero, div_one]; rfl)
  | succ n ih =>
    have hwidth := halve_width p lo hi
    unfold bisect
    dsimp only
    split
    · next hstop => exact .inl ((le_abs_self _).trans_lt hstop)
    · refine (@ih (halve p lo hi).1 (halve p lo hi).2).imp_right fun hall => ?_
      rw [hall, hwidth, div_div, ← pow_succ']

end Width

end FlashEdge
