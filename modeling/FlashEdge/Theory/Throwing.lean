import Mathlib.Data.List.Basic

/-!
# Operations that may throw half-way

A method that changes the fields of its object one after another and may throw
in between leaves whatever it has changed so far. `Throwing ε σ` computations
behave like that: the state is kept when an error is thrown.

- `Keeps v m`: `m` leaves the view `v` of the state alone, thrown or not.
- `Total m`: `m` does not throw.
- `Atomic v m`: if `m` throws, the view is as it was.

Checks keep the view, commits are total, and the two rules `Keeps.bind_atomic`
and `Atomic.bind_total` put together what checks first and commits afterwards.
-/

namespace FlashEdge

universe u

/-- Computations with a state that survives an error. -/
abbrev Throwing (ε σ : Type u) : Type u → Type u := ExceptT ε (StateM σ)

namespace Throwing

variable {ε σ α β γ : Type u}

/-- The outcome, and the state that is left. -/
def perform (m : Throwing ε σ α) (s : σ) : Except ε α × σ := (m.run.run s).run

/-! ## What the statements do -/

@[simp] theorem perform_pure (a : α) (s : σ) :
    perform (pure a : Throwing ε σ α) s = (.ok a, s) := rfl

@[simp] theorem perform_throw (e : ε) (s : σ) :
    perform (throw e : Throwing ε σ α) s = (.error e, s) := rfl

@[simp] theorem perform_get (s : σ) : perform (get : Throwing ε σ σ) s = (.ok s, s) := rfl

@[simp] theorem perform_modify (f : σ → σ) (s : σ) :
    perform (modify f : Throwing ε σ PUnit) s = (.ok ⟨⟩, f s) := rfl

/-- After an outcome the rest goes on from the state that is left. -/
theorem perform_bind_ok {m : Throwing ε σ α} {f : α → Throwing ε σ β} {s s' : σ} {a : α}
    (h : perform m s = (.ok a, s')) : perform (m >>= f) s = perform (f a) s' := by
  have hrun : m.run.run s = (.ok a, s') := h
  show ((m >>= f).run.run s).run = _
  rw [ExceptT.run_bind, StateT.run_bind, hrun]
  rfl

/-- After an error there is no rest. -/
theorem perform_bind_error {m : Throwing ε σ α} {f : α → Throwing ε σ β} {s s' : σ} {e : ε}
    (h : perform m s = (.error e, s')) : perform (m >>= f) s = (.error e, s') := by
  have hrun : m.run.run s = (.error e, s') := h
  show ((m >>= f).run.run s).run = _
  rw [ExceptT.run_bind, StateT.run_bind, hrun]
  rfl

@[simp] theorem perform_pure_bind (a : α) (f : α → Throwing ε σ β) (s : σ) :
    perform (pure a >>= f) s = perform (f a) s := perform_bind_ok (perform_pure a s)

@[simp] theorem perform_throw_bind (e : ε) (f : α → Throwing ε σ β) (s : σ) :
    perform (throw e >>= f) s = (.error e, s) := perform_bind_error (perform_throw e s)

@[simp] theorem perform_get_bind (f : σ → Throwing ε σ β) (s : σ) :
    perform (get >>= f) s = perform (f s) s := perform_bind_ok (perform_get s)

@[simp] theorem perform_modify_bind (g : σ → σ) (f : PUnit → Throwing ε σ β) (s : σ) :
    perform (modify g >>= f) s = perform (f ⟨⟩) (g s) := perform_bind_ok (perform_modify g s)

/-! ## Keeping, totality, atomicity -/

variable (v : σ → γ)

/-- The view is left alone, whatever the outcome. -/
def Keeps (m : Throwing ε σ α) : Prop := ∀ s, v (perform m s).2 = v s

/-- Nothing is thrown. -/
def Total (m : Throwing ε σ α) : Prop := ∀ s, ∃ a, (perform m s).1 = .ok a

/-- If an error is thrown the view is as it was. -/
def Atomic (m : Throwing ε σ α) : Prop :=
  ∀ s e, (perform m s).1 = .error e → v (perform m s).2 = v s

variable {v} {m : Throwing ε σ α} {f : α → Throwing ε σ β}

theorem Keeps.atomic (h : Keeps v m) : Atomic v m := fun s _ _ => h s

theorem Total.atomic (h : Total m) : Atomic v m := fun s e he => by
  obtain ⟨a, ha⟩ := h s
  rw [ha] at he
  cases he

theorem keeps_pure (a : α) : Keeps v (pure a : Throwing ε σ α) := fun _ => rfl

theorem keeps_throw (e : ε) : Keeps v (throw e : Throwing ε σ α) := fun _ => rfl

theorem keeps_get : Keeps v (get : Throwing ε σ σ) := fun _ => rfl

/-- A change of what the view does not show. -/
theorem keeps_modify {g : σ → σ} (h : ∀ s, v (g s) = v s) :
    Keeps v (modify g : Throwing ε σ PUnit) := h

theorem total_pure (a : α) : Total (pure a : Throwing ε σ α) := fun _ => ⟨a, rfl⟩

theorem total_get : Total (get : Throwing ε σ σ) := fun s => ⟨s, rfl⟩

theorem total_modify (g : σ → σ) : Total (modify g : Throwing ε σ PUnit) := fun _ => ⟨⟨⟩, rfl⟩

theorem Keeps.bind (hm : Keeps v m) (hf : ∀ a, Keeps v (f a)) : Keeps v (m >>= f) := by
  intro s
  have hs := hm s
  rcases hp : perform m s with ⟨_ | a, s'⟩
  · rw [perform_bind_error hp]
    rw [hp] at hs
    exact hs
  · rw [perform_bind_ok hp]
    rw [hp] at hs
    exact (hf a s').trans hs

theorem Total.bind (hm : Total m) (hf : ∀ a, Total (f a)) : Total (m >>= f) := by
  intro s
  obtain ⟨a, ha⟩ := hm s
  rcases hp : perform m s with ⟨o, s'⟩
  rw [hp] at ha
  rw [perform_bind_ok (hp.trans (congrArg (·, s') ha))]
  exact hf a s'

/-- A check in front of an atomic rest. -/
theorem Keeps.bind_atomic (hm : Keeps v m) (hf : ∀ a, Atomic v (f a)) : Atomic v (m >>= f) := by
  intro s e he
  have hs := hm s
  rcases hp : perform m s with ⟨_ | a, s'⟩
  · rw [perform_bind_error hp]
    rw [hp] at hs
    exact hs
  · rw [perform_bind_ok hp] at he ⊢
    rw [hp] at hs
    exact (hf a s' e he).trans hs

/-- A commit behind an atomic beginning. -/
theorem Atomic.bind_total (hm : Atomic v m) (hf : ∀ a, Total (f a)) : Atomic v (m >>= f) := by
  intro s e he
  rcases hp : perform m s with ⟨e' | a, s'⟩
  · have hs := hm s e' (by rw [hp])
    rw [perform_bind_error hp]
    rw [hp] at hs
    exact hs
  · -- the rest does not throw
    rw [perform_bind_ok hp] at he
    obtain ⟨b, hb⟩ := hf a s'
    rw [hb] at he
    cases he

end Throwing

end FlashEdge
