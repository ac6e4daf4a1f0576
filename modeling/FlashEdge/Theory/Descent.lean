import Mathlib.Logic.Relation
import Mathlib.Data.Nat.Notation
import Mathlib.Data.Option.Basic

/-!
# Descents

Where every value has at most one next one, and that is smaller, the values below a value are
finitely many, and a table that has entries for some of them is searched from the last one.

- `Descent`: the next value, and what becomes smaller.
- `Descent.Below`: a value, what follows it, and so on.
- `Descent.deepest`: the entry of the last value that has one.
- `Descent.deepest_of_below`: what is found from a value is found from all above it.
- `Descent.deepest_map`: a map that keeps the next values keeps what is found.
-/

namespace FlashEdge

universe u v

structure Descent (α : Type u) where
  next : α → Option α
  size : α → ℕ
  smaller : ∀ {a b : α}, next a = some b → size b < size a

namespace Descent

variable {α γ : Type u} {β : Type v} (D : Descent α) {look : α → Option β} {a b : α}

/-- A value, what follows it, and so on. -/
def Below : α → α → Prop := Relation.ReflTransGen fun a b => D.next a = some b

/-- The entry of the last value that has one. -/
def deepest (look : α → Option β) (a : α) : Option β :=
  match _h : D.next a with
  | some b => (deepest look b).or (look a)
  | none => look a
termination_by D.size a
decreasing_by exact D.smaller _h

theorem deepest_next (look : α → Option β) (h : D.next a = some b) :
    D.deepest look a = (D.deepest look b).or (look a) := by
  rw [deepest]
  split
  · next c hc =>
    obtain rfl : b = c := Option.some.inj (h.symm.trans hc)
    rfl
  · next hnone => cases h.symm.trans hnone

theorem deepest_last (look : α → Option β) (h : D.next a = none) :
    D.deepest look a = look a := by
  rw [deepest]
  split
  · next c hc => cases h.symm.trans hc
  · rfl

/-- Induction from the last values on. -/
theorem induct {P : α → Prop} (h : ∀ a, (∀ b, D.next a = some b → P b) → P a) (a : α) : P a := by
  have hbounded : ∀ n a, D.size a < n → P a := by
    intro n
    induction n with
    | zero => exact fun a ha => absurd ha (Nat.not_lt_zero _)
    | succ n ih => exact fun a ha => h a fun b hb => ih b (by have := D.smaller hb; omega)
  exact hbounded (D.size a + 1) a (Nat.lt_succ_self _)

theorem below_of_next {c : α} (h : D.next a = some b) (hbelow : D.Below b c) : D.Below a c :=
  Relation.ReflTransGen.head h hbelow

/-- What is found from a value is found from all above it. -/
theorem deepest_of_below {v : β} (hbelow : D.Below a b) (h : D.deepest look b = some v) :
    D.deepest look a = some v := by
  induction hbelow using Relation.ReflTransGen.head_induction_on with
  | refl => exact h
  | head hnext _ ih => rw [D.deepest_next look hnext, ih, Option.some_or]

theorem exists_deepest {v : β} (hbelow : D.Below a b) (h : look b = some v) :
    ∃ w, D.deepest look a = some w ∧ D.deepest look b = some w := by
  have hfound : ∃ w, D.deepest look b = some w := by
    cases hb : D.next b with
    | none => exact ⟨v, by rw [D.deepest_last look hb, h]⟩
    | some c =>
      rw [D.deepest_next look hb, h]
      cases D.deepest look c with
      | none => exact ⟨v, rfl⟩
      | some w => exact ⟨w, rfl⟩
  obtain ⟨w, hw⟩ := hfound
  exact ⟨w, D.deepest_of_below hbelow hw, hw⟩

/-- What is found is the entry of a value below. -/
theorem look_of_deepest {v : β} (h : D.deepest look a = some v) :
    ∃ b, D.Below a b ∧ look b = some v := by
  induction a using D.induct with
  | h a ih =>
    cases ha : D.next a with
    | none => exact ⟨a, Relation.ReflTransGen.refl, by rwa [D.deepest_last look ha] at h⟩
    | some c =>
      rw [D.deepest_next look ha] at h
      rcases Option.or_eq_some_iff.mp h with hc | ⟨-, hhere⟩
      · obtain ⟨b, hbelow, hb⟩ := ih c ha hc
        exact ⟨b, D.below_of_next ha hbelow, hb⟩
      · exact ⟨a, Relation.ReflTransGen.refl, hhere⟩

variable {D} (E : Descent γ) {f : γ → α}

theorem below_map {c d : γ} (hnext : ∀ d, E.Below c d → D.next (f d) = (E.next d).map f)
    (hbelow : E.Below c d) : D.Below (f c) (f d) := by
  induction hbelow using Relation.ReflTransGen.head_induction_on with
  | refl => exact Relation.ReflTransGen.refl
  | head hcd _ ih =>
    refine D.below_of_next ?_ (ih fun e he => hnext e (E.below_of_next hcd he))
    rw [hnext _ Relation.ReflTransGen.refl, hcd, Option.map_some]

/-- A map that keeps the next values keeps what is found. -/
theorem deepest_map {look' : γ → Option β} {c : γ}
    (hnext : ∀ d, E.Below c d → D.next (f d) = (E.next d).map f)
    (hlook : ∀ d, E.Below c d → look' d = look (f d)) :
    E.deepest look' c = D.deepest look (f c) := by
  induction c using E.induct with
  | h c ih =>
    have hf := hnext c Relation.ReflTransGen.refl
    have hhere := hlook c Relation.ReflTransGen.refl
    cases hc : E.next c with
    | none =>
      rw [hc, Option.map_none] at hf
      rw [E.deepest_last look' hc, D.deepest_last look hf, hhere]
    | some d =>
      rw [hc, Option.map_some] at hf
      rw [E.deepest_next look' hc, D.deepest_next look hf, hhere,
        ih d hc (fun e he => hnext e (E.below_of_next hc he))
          fun e he => hlook e (E.below_of_next hc he)]

end Descent

end FlashEdge
