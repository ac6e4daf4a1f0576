import Mathlib.Algebra.Order.Group.Defs
import Mathlib.Algebra.Order.Group.Unbundled.Basic
import Mathlib.Data.List.Basic

/-!
# Sliding windows over a log of times

A limiter that allows `n` events in any span of time keeps the times of the
recent ones and counts them. What it may forget is what no later window sees.

- `recent`: the times of a log that lie less than a span before a moment.
- `inWindow`: the times of a log in the half-open window of a span that ends at
  a moment.
- `recent_recent`: forgetting what is old already changes no later window.
- `length_inWindow_le`: a window that ends now or later sees no more of the past
  than the window that ends now.
-/

namespace FlashEdge

universe u

namespace Window

variable {K : Type u} [AddCommGroup K] [LinearOrder K]

/-- The times later than `now - span`. -/
def recent (span now : K) (log : List K) : List K := log.filter fun x => now - span < x

/-- The times in the window `(stop - span, stop]`. -/
def inWindow (span stop : K) (log : List K) : List K :=
  log.filter fun x => stop - span < x ∧ x ≤ stop

theorem recent_append (span now : K) (l₁ l₂ : List K) :
    recent span now (l₁ ++ l₂) = recent span now l₁ ++ recent span now l₂ :=
  List.filter_append ..

theorem recent_eq_nil {span now : K} {log : List K} (h : ∀ x ∈ log, x ≤ now - span) :
    recent span now log = [] :=
  List.filter_eq_nil_iff.mpr fun x hx => by simpa using h x hx

theorem inWindow_append (span stop : K) (l₁ l₂ : List K) :
    inWindow span stop (l₁ ++ l₂) = inWindow span stop l₁ ++ inWindow span stop l₂ :=
  List.filter_append ..

variable [IsOrderedAddMonoid K]

/-- What is dropped as too old is not missed by a later window of a span that is
no longer. -/
theorem recent_recent {span span' now now' : K} (hspan : span ≤ span') (hnow : now' ≤ now)
    (log : List K) : recent span now (recent span' now' log) = recent span now log := by
  unfold recent
  rw [List.filter_filter]
  refine List.filter_congr fun x _ => ?_
  have himp : now - span < x → now' - span' < x :=
    fun hx => (sub_le_sub hnow hspan).trans_lt hx
  by_cases hx : now - span < x
  · simp [hx, himp hx]
  · simp [hx]

/-- A window that ends now or later sees no more of the log than the window that
ends now. -/
theorem length_inWindow_le {span now stop : K} (hstop : now ≤ stop) (log : List K) :
    (inWindow span stop log).length ≤ (recent span now log).length := by
  refine (List.monotone_filter_right log fun x hx => ?_).length_le
  simp only [decide_eq_true_eq] at hx ⊢
  exact (sub_le_sub_right hstop span).trans_lt hx.1

end Window

end FlashEdge
