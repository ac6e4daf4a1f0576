import FlashEdge.Theory.Machine

/-!
# Acceptors: abstract protocols as readers of event traces

An *acceptor* is a partial automaton over events. It is the usual abstract
model of a component here: it says which event may follow which, and nothing
about how the component decides. A machine *refines* an acceptor when the
acceptor can read the (projected) events of every run, ending in the state that
abstracts the machine's state. Properties of traces are then proved on the
acceptor.

- `Acceptor.read`: read a trace, `none` when some event is not allowed.
- `Acceptor.exists_between`: the *until* rule. If an event puts the acceptor in
  a region where `e` is not allowed, and only events of a class `A` leave the
  region, then between that event and a later `e` there is an event of class `A`.
- `Machine.Refines`: one step of the machine is a (possibly empty) reading of
  the acceptor; `Refines.read` lifts this to runs.
- `Acceptor.Follows`: the same of a piece of a step, for a family of acceptor
  states; pieces compose (`Follows.trans`), and steps made of such pieces refine
  the acceptor (`Machine.refines_of_follows`).
-/

namespace FlashEdge

universe u v w x y z

/-- A partial deterministic automaton over events. -/
structure Acceptor (q : Type u) (ε : Type v) where
  start : q
  next : q → ε → Option q

namespace Acceptor

variable {q : Type u} {ε : Type v}

/-- Read a trace from a state. -/
def read (A : Acceptor q ε) : q → List ε → Option q
  | c, [] => some c
  | c, e :: es => (A.next c e).bind fun c' => A.read c' es

variable (A : Acceptor q ε)

@[simp] theorem read_nil (c : q) : A.read c [] = some c := rfl

theorem read_cons (c : q) (e : ε) (es : List ε) :
    A.read c (e :: es) = (A.next c e).bind fun c' => A.read c' es := rfl

@[simp] theorem read_singleton (c : q) (e : ε) : A.read c [e] = A.next c e := by
  rw [read_cons]
  cases A.next c e <;> rfl

theorem read_append (c : q) (es fs : List ε) :
    A.read c (es ++ fs) = (A.read c es).bind fun c' => A.read c' fs := by
  induction es generalizing c with
  | nil => rfl
  | cons e es ih =>
    rw [List.cons_append, read_cons, read_cons, Option.bind_assoc]
    exact congrArg _ (funext fun c' => ih c')

variable {A}

/-- Reading a concatenation goes through a middle state. -/
theorem read_append_eq_some {c d : q} {es fs : List ε} :
    A.read c (es ++ fs) = some d ↔ ∃ m, A.read c es = some m ∧ A.read m fs = some d := by
  rw [read_append, Option.bind_eq_some_iff]

theorem read_cons_eq_some {c d : q} {e : ε} {es : List ε} :
    A.read c (e :: es) = some d ↔ ∃ m, A.next c e = some m ∧ A.read m es = some d := by
  rw [read_cons, Option.bind_eq_some_iff]

/-- A region that no event outside the class `K` leaves is still occupied after
reading a trace without events of that class. -/
theorem read_stays {Q : q → Prop} {K : ε → Prop}
    (hkeep : ∀ {c e c'}, Q c → A.next c e = some c' → ¬ K e → Q c')
    {c d : q} {es : List ε} (hc : Q c) (hread : A.read c es = some d)
    (hK : ∀ e ∈ es, ¬ K e) : Q d := by
  induction es generalizing c with
  | nil =>
    obtain rfl : c = d := by simpa using hread
    exact hc
  | cons e es ih =>
    obtain ⟨m, hm, hrest⟩ := read_cons_eq_some.mp hread
    exact ih (hkeep hc hm (hK e List.mem_cons_self)) hrest
      fun f hf => hK f (List.mem_cons_of_mem _ hf)

/-- **The until rule.** After `e₀` the acceptor is in the region `Q`, where `e₁`
is not allowed; only events of class `K` leave `Q`. Then an accepted trace has
an event of class `K` between an `e₀` and a later `e₁`. -/
theorem exists_between {Q : q → Prop} {K : ε → Prop} {e₀ e₁ : ε}
    (henter : ∀ {c c'}, A.next c e₀ = some c' → Q c')
    (hkeep : ∀ {c e c'}, Q c → A.next c e = some c' → ¬ K e → Q c')
    (hblock : ∀ {c}, Q c → A.next c e₁ = none)
    {c d : q} {pre mid post : List ε}
    (hread : A.read c (pre ++ e₀ :: mid ++ e₁ :: post) = some d) :
    ∃ k ∈ mid, K k := by
  by_contra hno
  have hK : ∀ k ∈ mid, ¬ K k := fun k hk hKk => hno ⟨k, hk, hKk⟩
  obtain ⟨m₁, hm₁, htail⟩ := read_append_eq_some.mp hread
  obtain ⟨m₀, -, hm⟩ := read_append_eq_some.mp hm₁
  obtain ⟨mid₀, hmid₀, hmid⟩ := read_cons_eq_some.mp hm
  -- without an event of the class the region is still occupied when `e₁` comes
  have hQ : Q m₁ := read_stays hkeep (henter hmid₀) hmid hK
  obtain ⟨m₂, hm₂, -⟩ := read_cons_eq_some.mp htail
  rw [hblock hQ] at hm₂
  cases hm₂

/-- The until rule for a region that nothing leaves: `e₁` never follows `e₀`. -/
theorem never_after {Q : q → Prop} {e₀ e₁ : ε}
    (henter : ∀ {c c'}, A.next c e₀ = some c' → Q c')
    (hkeep : ∀ {c e c'}, Q c → A.next c e = some c' → Q c')
    (hblock : ∀ {c}, Q c → A.next c e₁ = none)
    {c d : q} {pre mid post : List ε} :
    A.read c (pre ++ e₀ :: mid ++ e₁ :: post) ≠ some d := by
  intro hread
  obtain ⟨_, _, hf⟩ := exists_between (K := fun _ => False) henter
    (fun hq hn _ => hkeep hq hn) hblock hread
  exact hf

end Acceptor

/-! ## Refinement -/

/-- Two events of a trace, one after the other, that are one abstract event each
are so in the abstract trace. -/
theorem flatMap_split {ε : Type w} {ε' : Type y} (proj : ε → List ε') {h pre mid post : List ε}
    {a b : ε} {x y : ε'} (hh : h = pre ++ a :: mid ++ b :: post) (ha : proj a = [x])
    (hb : proj b = [y]) :
    h.flatMap proj = pre.flatMap proj ++ x :: mid.flatMap proj ++ y :: post.flatMap proj := by
  subst hh
  simp only [List.flatMap_append, List.flatMap_cons, ha, hb, List.singleton_append]

namespace Acceptor

variable {σ : Type u} {ε : Type w} {q : Type x} {ε' : Type y} {ι : Type z}

/-- A piece of a step, from `s` to `s'` with events `es`, keeps the invariant
`I` and is read by the acceptor from each of the abstractions `abs i`. -/
def Follows (A : Acceptor q ε') (I : σ → Prop) (abs : ι → σ → q) (proj : ι → ε → List ε')
    (s s' : σ) (es : List ε) : Prop :=
  I s → I s' ∧ ∀ i, A.read (abs i s) (es.flatMap (proj i)) = some (abs i s')

variable {A : Acceptor q ε'} {I : σ → Prop} {abs : ι → σ → q} {proj : ι → ε → List ε'}

theorem Follows.refl (s : σ) : A.Follows I abs proj s s [] :=
  fun hI => ⟨hI, fun _ => rfl⟩

theorem Follows.trans {s₁ s₂ s₃ : σ} {es fs : List ε} (h₁ : A.Follows I abs proj s₁ s₂ es)
    (h₂ : A.Follows I abs proj s₂ s₃ fs) : A.Follows I abs proj s₁ s₃ (es ++ fs) := by
  intro hI
  obtain ⟨hI₂, hread₁⟩ := h₁ hI
  obtain ⟨hI₃, hread₂⟩ := h₂ hI₂
  refine ⟨hI₃, fun i => ?_⟩
  rw [List.flatMap_append, read_append, hread₁ i]
  exact hread₂ i

/-- A piece after which nothing is seen. -/
theorem Follows.trans_nil {s₁ s₂ s₃ : σ} {es : List ε} (h₁ : A.Follows I abs proj s₁ s₂ es)
    (h₂ : A.Follows I abs proj s₂ s₃ []) : A.Follows I abs proj s₁ s₃ es := by
  have h := h₁.trans h₂
  rwa [List.append_nil] at h

end Acceptor

namespace Machine

variable {σ : Type u} {α : Type v} {ε : Type w} {q : Type x} {ε' : Type y} {ι : Type z}

/-- The machine refines the acceptor: `abs` abstracts its states, `proj` turns
each of its events into abstract events, and every step from a state satisfying
the invariant `I` is read by the acceptor. -/
structure Refines (M : Machine σ α ε) (A : Acceptor q ε') (I : σ → Prop)
    (abs : σ → q) (proj : ε → List ε') : Prop where
  init : abs M.init = A.start
  inv_init : I M.init
  inv_step : ∀ {s a s' es}, I s → M.step s a = some (s', es) → I s'
  step : ∀ {s a s' es}, I s → M.step s a = some (s', es) →
    A.read (abs s) (es.flatMap proj) = some (abs s')

variable {M : Machine σ α ε} {A : Acceptor q ε'} {I : σ → Prop} {abs : σ → q}
  {proj : ε → List ε'}

theorem Refines.inv (hR : M.Refines A I abs proj) {s : σ} {h : List ε}
    (hr : M.Reachable s h) : I s :=
  Reachable.invariant (I := fun s _ => I s) hR.inv_init
    (fun hi hs => hR.inv_step hi hs) hr

/-- The acceptor reads the events of every run, and ends in the abstraction of
the state reached. -/
theorem Refines.read (hR : M.Refines A I abs proj) {s : σ} {h : List ε}
    (hr : M.Reachable s h) : A.read A.start (h.flatMap proj) = some (abs s) := by
  -- the invariant and the reading go through the run together
  have key : I s ∧ A.read A.start (h.flatMap proj) = some (abs s) := by
    refine Reachable.invariant
      (I := fun s h => I s ∧ A.read A.start (h.flatMap proj) = some (abs s)) ?_ ?_ hr
    · exact ⟨hR.inv_init, by rw [hR.init]; rfl⟩
    · rintro s s' h es a ⟨hi, hread⟩ hs
      refine ⟨hR.inv_step hi hs, ?_⟩
      rw [List.flatMap_append, Acceptor.read_append, hread]
      exact hR.step hi hs
  exact key.2

/-- A machine whose steps are made of pieces that follow the acceptor refines it. -/
theorem refines_of_follows {abs : ι → σ → q} {proj : ι → ε → List ε'}
    (init : ∀ i, abs i M.init = A.start) (inv_init : I M.init)
    (hstep : ∀ {s a s' es}, M.step s a = some (s', es) → A.Follows I abs proj s s' es) (i : ι) :
    M.Refines A I (abs i) (proj i) where
  init := init i
  inv_init := inv_init
  inv_step hI hs := (hstep hs hI).1
  step hI hs := (hstep hs hI).2 i

end Machine

/-!
## The latch: an operation that fires once per arming

The protocol behind an automatic action that must not repeat itself. A latch is
armed and disarmed from outside; it fires only while it is armed and idle, which
disarms it and makes it busy; it is idle again when the fired operation has
finished. Arming a busy latch is allowed: it fires again only after the finish.

- `latch_fire_needs_arm`, `latch_fire_needs_finish`: between two firings the
  latch was armed again, and the first operation has finished.
-/

inductive LatchEvent where
  | arm
  | disarm
  | fire
  | finish
deriving DecidableEq, Repr

/-- Whether the latch is armed, and whether what it fired is still running. -/
structure LatchState where
  armed : Bool
  busy : Bool
deriving DecidableEq, Repr

/-- The protocol of a latch. -/
def latch : Acceptor LatchState LatchEvent where
  start := { armed := false, busy := false }
  next c
    | .arm => some { c with armed := true }
    | .disarm => some { c with armed := false }
    | .fire => if c.armed && !c.busy then some { armed := false, busy := true } else none
    | .finish => if c.busy then some { c with busy := false } else none

/-- A latch that fires was armed and idle. -/
theorem latch_fire {c c' : LatchState} (h : latch.next c .fire = some c') :
    c.armed = true ∧ c.busy = false ∧ c' = { armed := false, busy := true } := by
  change (if c.armed && !c.busy then _ else none) = some c' at h
  split at h
  · next hc =>
    rw [Bool.and_eq_true, Bool.not_eq_true'] at hc
    exact ⟨hc.1, hc.2, (Option.some.inj h).symm⟩
  · cases h

/-- Only `arm` arms. -/
theorem latch_stays_disarmed {c c' : LatchState} {e : LatchEvent} (hc : c.armed = false)
    (hn : latch.next c e = some c') (hne : e ≠ .arm) : c'.armed = false := by
  cases e with
  | arm => exact absurd rfl hne
  | disarm =>
    obtain rfl := Option.some.inj hn
    rfl
  | fire =>
    obtain ⟨harmed, -, -⟩ := latch_fire hn
    rw [hc] at harmed
    cases harmed
  | finish =>
    change (if c.busy then _ else none) = some c' at hn
    split at hn
    · obtain rfl := Option.some.inj hn
      exact hc
    · cases hn

/-- Between two firings the latch was armed. -/
theorem latch_fire_needs_arm {c d : LatchState} {pre mid post : List LatchEvent}
    (h : latch.read c (pre ++ .fire :: mid ++ .fire :: post) = some d) : .arm ∈ mid := by
  have hbetween : ∃ k ∈ mid, k = .arm := by
    refine Acceptor.exists_between (A := latch) (Q := fun c => c.armed = false)
      (K := (· = .arm)) ?_ ?_ ?_ h
    · -- firing disarms
      intro c c' hc
      obtain ⟨-, -, rfl⟩ := latch_fire hc
      rfl
    · intro c e c' hc hn hne
      exact latch_stays_disarmed hc hn hne
    · -- without being armed a latch does not fire
      intro c hc
      show (if c.armed && !c.busy then _ else none) = _
      rw [hc]
      rfl
  obtain ⟨_, hmem, rfl⟩ := hbetween
  exact hmem

/-- Between two firings the first operation has finished. -/
theorem latch_fire_needs_finish {c d : LatchState} {pre mid post : List LatchEvent}
    (h : latch.read c (pre ++ .fire :: mid ++ .fire :: post) = some d) : .finish ∈ mid := by
  have hbetween : ∃ k ∈ mid, k = .finish := by
    refine Acceptor.exists_between (A := latch) (Q := fun c => c.busy = true)
      (K := (· = .finish)) ?_ ?_ ?_ h
    · -- what was fired is running
      intro c c' hc
      obtain ⟨-, -, rfl⟩ := latch_fire hc
      rfl
    · -- only `finish` ends it
      intro c e c' hc hn hne
      cases e with
      | arm =>
        obtain rfl := Option.some.inj hn
        exact hc
      | disarm =>
        obtain rfl := Option.some.inj hn
        exact hc
      | fire =>
        obtain ⟨-, hidle, -⟩ := latch_fire hn
        rw [hc] at hidle
        cases hidle
      | finish => exact absurd rfl hne
    · -- a busy latch does not fire
      intro c hc
      show (if c.armed && !c.busy then _ else none) = _
      rw [hc, Bool.not_true, Bool.and_false]
      rfl
  obtain ⟨_, hmem, rfl⟩ := hbetween
  exact hmem

end FlashEdge
