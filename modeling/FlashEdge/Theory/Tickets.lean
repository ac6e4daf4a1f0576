import Mathlib.Logic.Function.Basic
import Mathlib.Data.Nat.Basic

/-!
# Numbered tickets, each redeemed once

A counter issues tickets `0, 1, 2, …` to holders, and a holder gives its ticket
up when it redeems it. `Tickets holds issued redeemed` says that the books are in
order: who holds what (`holds`), how many tickets there are (`issued`) and how
often each has been redeemed (`redeemed`).

- `Tickets.issue`, `Tickets.redeem`: the two moves keep the books in order.
- `Tickets.dropped`: a ticket that is given up without being redeemed is not
  accounted for.
-/

namespace FlashEdge

universe u

/-- A ticket is held by at most one holder and has not been redeemed while it is
held; every other ticket that was issued has been redeemed once. -/
structure Tickets {κ : Type u} (holds : κ → Option ℕ) (issued : ℕ) (redeemed : ℕ → ℕ) : Prop where
  held_lt : ∀ k t, holds k = some t → t < issued
  unique : ∀ k k' t, holds k = some t → holds k' = some t → k = k'
  held : ∀ k t, holds k = some t → redeemed t = 0
  returned : ∀ t < issued, (∀ k, holds k ≠ some t) → redeemed t = 1
  unissued : ∀ t, issued ≤ t → redeemed t = 0

namespace Tickets

variable {κ : Type u} [DecidableEq κ] {holds : κ → Option ℕ} {issued : ℕ} {redeemed : ℕ → ℕ}

omit [DecidableEq κ] in
theorem empty : Tickets (fun _ : κ => none) 0 fun _ => 0 where
  held_lt _ _ h := by cases h
  unique _ _ _ h := by cases h
  held _ _ h := by cases h
  returned _ h := absurd h (Nat.not_lt_zero _)
  unissued _ _ := rfl

/-- A holder without a ticket takes the next one. -/
theorem issue (hT : Tickets holds issued redeemed) {k : κ} (hk : holds k = none) :
    Tickets (Function.update holds k (some issued)) (issued + 1) redeemed where
  held_lt k' t h := by
    by_cases hkk : k' = k
    · subst hkk
      rw [Function.update_self] at h
      obtain rfl := Option.some.inj h
      exact Nat.lt_succ_self _
    · rw [Function.update_of_ne hkk] at h
      exact Nat.lt_succ_of_lt (hT.held_lt k' t h)
  unique k₁ k₂ t h₁ h₂ := by
    -- the new ticket has a number that nobody held
    have hnew : ∀ k', Function.update holds k (some issued) k' = some issued → k' = k := by
      intro k' h
      by_contra hkk
      rw [Function.update_of_ne hkk] at h
      exact absurd (hT.held_lt k' issued h) (lt_irrefl _)
    by_cases h1 : k₁ = k
    · subst h1
      rw [Function.update_self] at h₁
      obtain rfl := Option.some.inj h₁
      exact (hnew k₂ h₂).symm
    · by_cases h2 : k₂ = k
      · subst h2
        rw [Function.update_self] at h₂
        obtain rfl := Option.some.inj h₂
        exact hnew k₁ h₁
      · rw [Function.update_of_ne h1] at h₁
        rw [Function.update_of_ne h2] at h₂
        exact hT.unique k₁ k₂ t h₁ h₂
  held k' t h := by
    by_cases hkk : k' = k
    · subst hkk
      rw [Function.update_self] at h
      obtain rfl := Option.some.inj h
      exact hT.unissued _ le_rfl
    · rw [Function.update_of_ne hkk] at h
      exact hT.held k' t h
  returned t ht hfree := by
    have hne : t ≠ issued := by
      rintro rfl
      exact hfree k (Function.update_self k _ _)
    refine hT.returned t (lt_of_le_of_ne (Nat.lt_succ_iff.mp ht) hne) fun k' h => ?_
    have hkk : k' ≠ k := by
      rintro rfl
      rw [hk] at h
      cases h
    exact hfree k' ((Function.update_of_ne hkk _ _).trans h)
  unissued t ht := hT.unissued t (Nat.le_of_succ_le ht)

/-- A holder redeems its ticket and gives it up. -/
theorem redeem (hT : Tickets holds issued redeemed) {k : κ} {t : ℕ} (hk : holds k = some t) :
    Tickets (Function.update holds k none) issued
      (fun t' => redeemed t' + if t' = t then 1 else 0) where
  held_lt k' t' h := by
    by_cases hkk : k' = k
    · rw [hkk, Function.update_self] at h
      cases h
    · rw [Function.update_of_ne hkk] at h
      exact hT.held_lt k' t' h
  unique k₁ k₂ t' h₁ h₂ := by
    by_cases h1 : k₁ = k
    · rw [h1, Function.update_self] at h₁
      cases h₁
    · by_cases h2 : k₂ = k
      · rw [h2, Function.update_self] at h₂
        cases h₂
      · rw [Function.update_of_ne h1] at h₁
        rw [Function.update_of_ne h2] at h₂
        exact hT.unique k₁ k₂ t' h₁ h₂
  held k' t' h := by
    by_cases hkk : k' = k
    · rw [hkk, Function.update_self] at h
      cases h
    · rw [Function.update_of_ne hkk] at h
      have hne : t' ≠ t := by
        rintro rfl
        exact hkk (hT.unique k' k t' h hk)
      rw [if_neg hne, hT.held k' t' h]
  returned t' ht hfree := by
    by_cases htt : t' = t
    · rw [if_pos htt, htt, hT.held k t hk]
    · rw [if_neg htt]
      refine hT.returned t' ht fun k' h => ?_
      have hkk : k' ≠ k := by
        rintro rfl
        exact htt (Option.some.inj (h.symm.trans hk))
      exact hfree k' ((Function.update_of_ne hkk _ _).trans h)
  unissued t' ht := by
    have hne : t' ≠ t := fun htt => absurd (hT.held_lt k t hk) (not_lt.mpr (htt ▸ ht))
    rw [if_neg hne, hT.unissued t' ht]

/-- A holder that gives its ticket up without redeeming it leaves a ticket that
nobody holds and that has not been redeemed. -/
theorem dropped (hT : Tickets holds issued redeemed) {k : κ} {t : ℕ} (hk : holds k = some t) :
    t < issued ∧ (∀ k', Function.update holds k none k' ≠ some t) ∧ redeemed t = 0 := by
  refine ⟨hT.held_lt k t hk, fun k' h => ?_, hT.held k t hk⟩
  by_cases hkk : k' = k
  · rw [hkk, Function.update_self] at h
    cases h
  · rw [Function.update_of_ne hkk] at h
    exact hkk (hT.unique k' k t h hk)

end Tickets

end FlashEdge
