import Mathlib.Data.List.Basic

/-!
# Timers that run on demand

A component with a timer that should run while the component is ready and has
work to do, and need not run otherwise. Nothing recomputes the timer: each
operation that brings work starts it (if the component is ready), each operation
that takes work away stops it once none is left, and every other operation leaves
it alone. Whether that is enough depends on the operations that change the work
or the readiness and do *not* look at the timer.

- `OnDemand.Served`: what is wanted, a timer for work that can be done.
- `OnDemand.Settled`: what the operations keep, the timer runs *exactly* then.
- one rule for each kind of operation. A rule for an operation that does not look
  at the timer comes in two halves: under its condition the component is settled
  after it, and otherwise it is not even served.
-/

namespace FlashEdge

universe u

/-- How a component shows that it is ready, that it has work, and that its timer
runs. -/
structure OnDemand (σ : Type u) where
  ready : σ → Bool
  work : σ → Bool
  timer : σ → Bool

namespace OnDemand

variable {σ : Type u} (v : OnDemand σ) {s s' : σ}

/-- While there is work that can be done, the timer runs. -/
def Served (s : σ) : Prop := v.ready s = true → v.work s = true → v.timer s = true

/-- The timer runs exactly while there is work that can be done. -/
def Settled (s : σ) : Prop := v.timer s = (v.ready s && v.work s)

/-- A step with the condition `C` leaves a settled component under it, and one
that is not served otherwise. -/
def Decides (C : Prop) (s' : σ) : Prop := (C ∧ v.Settled s') ∨ (¬ C ∧ ¬ v.Served s')

variable {v}

theorem Settled.served (h : v.Settled s) : v.Served s := by
  intro hready hwork
  rw [h, hready, hwork]
  rfl

/-- A step that keeps the component settled needs no condition. -/
theorem Settled.decides (h : v.Settled s') : v.Decides True s' := .inl ⟨trivial, h⟩

/-- What `v` does not show does not matter. -/
theorem Settled.of_same (h : v.Settled s) (hready : v.ready s' = v.ready s)
    (hwork : v.work s' = v.work s) (htimer : v.timer s' = v.timer s) : v.Settled s' := by
  unfold Settled
  rw [hready, hwork, htimer]
  exact h

/-- Work has come, and the timer was started if the component is ready. -/
theorem Settled.started (h : v.Settled s) (hready : v.ready s' = v.ready s)
    (hwork : v.work s' = true) (htimer : v.timer s' = (v.timer s || v.ready s)) :
    v.Settled s' := by
  unfold Settled at h ⊢
  rw [hready, hwork, htimer, h]
  cases v.ready s <;> cases v.work s <;> rfl

/-- Work may have gone but none has come, and the timer was stopped if none is
left. -/
theorem Settled.idled (h : v.Settled s) (hready : v.ready s' = v.ready s)
    (hwork : v.work s' = true → v.work s = true)
    (htimer : v.timer s' = (v.timer s && v.work s')) : v.Settled s' := by
  unfold Settled at h ⊢
  rw [hready, htimer, h]
  cases hw : v.work s' with
  | false => simp
  | true => rw [hwork hw]; simp

/-- Work has come behind the timer's back: well only if there was some already or
the component is not ready. -/
theorem Settled.woken (h : v.Settled s) (hready : v.ready s' = v.ready s)
    (hwork : v.work s' = true) (htimer : v.timer s' = v.timer s) :
    v.Decides (v.ready s = true → v.work s = true) s' := by
  unfold Decides Settled Served at *
  rw [hready, hwork, htimer, h]
  cases v.ready s <;> cases v.work s <;> simp

/-- The component has become ready behind the timer's back: well only if it was
ready before or there is no work. -/
theorem Settled.readied (h : v.Settled s) (hready : v.ready s' = true)
    (hwork : v.work s' = v.work s) (htimer : v.timer s' = v.timer s) :
    v.Decides (v.ready s = false → v.work s = false) s' := by
  unfold Decides Settled Served at *
  rw [hready, hwork, htimer, h]
  cases v.ready s <;> cases v.work s <;> simp

/-- The timer was stopped: well only if it had nothing to do. -/
theorem decides_stopped (hready : v.ready s' = v.ready s)
    (hwork : v.work s' = v.work s) (htimer : v.timer s' = false) :
    v.Decides (v.ready s = true → v.work s = false) s' := by
  unfold Decides Settled Served at *
  rw [hready, hwork, htimer]
  cases v.ready s <;> cases v.work s <;> simp

end OnDemand

end FlashEdge
