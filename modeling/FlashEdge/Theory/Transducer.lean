import Mathlib.Data.List.Basic

/-!
# Transducers

A *transducer* reads a list from left to right and writes another one: at each
element it may refuse, or go on in another state with something written. A lexer is
one, with the characters read and the tokens written.

- `Transducer.run`: read a list from a state.
- `Transducer.run_append`: reading in two pieces, in both directions. A statement
  about what follows a given text is a statement about a run from the state after it.
- `Transducer.run_induction`: the induction over the runs of two transducers on the
  same list.
-/

namespace FlashEdge

universe u v w

/-- `step s a` is `none` when `a` is refused in `s`. -/
structure Transducer (σ : Type u) (α : Type v) (β : Type w) where
  step : σ → α → Option (σ × List β)

namespace Transducer

variable {σ : Type u} {α : Type v} {β : Type w}

/-- Read a list from a state: the state after it, and what was written. -/
def run (T : Transducer σ α β) : σ → List α → Option (σ × List β)
  | s, [] => some (s, [])
  | s, a :: as =>
    match T.step s a with
    | none => none
    | some (s', out) =>
      match T.run s' as with
      | none => none
      | some (t, out') => some (t, out ++ out')

variable {T : Transducer σ α β}

@[simp] theorem run_nil (s : σ) : T.run s [] = some (s, []) := rfl

theorem run_cons {s s' t : σ} {a : α} {as : List α} {out out' : List β}
    (hstep : T.step s a = some (s', out)) (hrun : T.run s' as = some (t, out')) :
    T.run s (a :: as) = some (t, out ++ out') := by
  simp [run, hstep, hrun]

theorem run_cons_inv {s t : σ} {a : α} {as : List α} {written : List β}
    (hrun : T.run s (a :: as) = some (t, written)) :
    ∃ s' out out', T.step s a = some (s', out) ∧ T.run s' as = some (t, out') ∧
      written = out ++ out' := by
  unfold run at hrun
  split at hrun
  · cases hrun
  next s' out hstep =>
  split at hrun
  · cases hrun
  next u out' hrest =>
  cases hrun
  exact ⟨s', out, out', hstep, hrest, rfl⟩

/-- Two pieces, one after the other. -/
theorem run_append {s t u : σ} {as bs : List α} {out out' : List β}
    (has : T.run s as = some (t, out)) (hbs : T.run t bs = some (u, out')) :
    T.run s (as ++ bs) = some (u, out ++ out') := by
  induction as generalizing s out with
  | nil =>
    cases has
    exact hbs
  | cons a as ih =>
    obtain ⟨s', out₁, out₂, hstep, hrest, rfl⟩ := run_cons_inv has
    rw [List.cons_append, List.append_assoc]
    exact run_cons hstep (ih hrest)

/-- A list that is read can be cut anywhere. -/
theorem run_append_inv {s u : σ} {as bs : List α} {written : List β}
    (hrun : T.run s (as ++ bs) = some (u, written)) :
    ∃ t out out', T.run s as = some (t, out) ∧ T.run t bs = some (u, out') ∧
      written = out ++ out' := by
  induction as generalizing s written with
  | nil => exact ⟨s, [], written, rfl, hrun, rfl⟩
  | cons a as ih =>
    obtain ⟨s', out₁, out₂, hstep, hrest, rfl⟩ := run_cons_inv hrun
    obtain ⟨t, out, out', has, hbs, rfl⟩ := ih hrest
    exact ⟨t, out₁ ++ out, out', run_cons hstep has, hbs, (List.append_assoc _ _ _).symm⟩

/-- A relation between the states of two readers of one list that every common step
keeps relates the states they end in. -/
theorem run_induction {R : σ → σ → Prop}
    (hstep : ∀ {s t s' t' a out out'}, R s t → T.step s a = some (s', out) →
      T.step t a = some (t', out') → R s' t')
    {s t s' t' : σ} {as : List α} {out out' : List β} (hR : R s t)
    (hs : T.run s as = some (s', out)) (ht : T.run t as = some (t', out')) : R s' t' := by
  induction as generalizing s t out out' with
  | nil =>
    cases hs
    cases ht
    exact hR
  | cons a as ih =>
    obtain ⟨_, _, _, hs₁, hs₂, -⟩ := run_cons_inv hs
    obtain ⟨_, _, _, ht₁, ht₂, -⟩ := run_cons_inv ht
    exact ih (hstep hR hs₁ ht₁) hs₂ ht₂

end Transducer

end FlashEdge
