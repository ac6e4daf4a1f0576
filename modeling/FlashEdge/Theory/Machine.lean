import Mathlib.Data.List.Basic
import Mathlib.Order.Filter.AtTopBot.Basic
import Mathlib.Data.List.Induction

/-!
# Machines that emit events

A component that runs on one thread and is driven from outside (calls, timer
ticks, answers of the network) is a *machine*: a state, and a step function
that says for each action whether it is enabled and, if it is, what the next
state is and which events an observer sees. An interleaving of several callers
is a list of actions, so a statement about every interleaving is a statement
about every run.

- `Machine.Reaches C`: the states a run can reach, with the events seen so far,
  when every step of the run meets the condition `C`. `Machine.Reachable` is the
  unconditional case.
- `Machine.run`: the executable form, for evaluating a given list of actions.
- `Machine.Reaches.invariant`: the induction over runs, proved once.
- `Machine.Always` / `Machine.Along`: a property of all the states of one run /
  a condition on all its steps, and the rule `always_iff_along` that turns "good
  steps keep the property, bad steps break it" into an equivalence over runs;
  `always_of_invariant` where every step is good.
-/

namespace FlashEdge

universe u v w

/-- `step s a` is `none` when `a` is not enabled in `s`, and otherwise the next
state with the events the step emits, in order. -/
structure Machine (σ : Type u) (α : Type v) (ε : Type w) where
  init : σ
  step : σ → α → Option (σ × List ε)

namespace Machine

variable {σ : Type u} {α : Type v} {ε : Type w}

/-- The two halves of a step's result. -/
theorem some_pair {p : σ × List ε} {s' : σ} {es : List ε} (h : some p = some (s', es)) :
    p.1 = s' ∧ p.2 = es := by
  obtain rfl := Option.some.inj h
  exact ⟨rfl, rfl⟩

/-- The states reached, with the events seen on the way, by runs all of whose
steps meet `C` (a condition on the state, the past events and the action). -/
inductive Reaches (M : Machine σ α ε) (C : σ → List ε → α → Prop) : σ → List ε → Prop where
  | init : Reaches M C M.init []
  | step {s s' : σ} {h es : List ε} {a : α} : Reaches M C s h → C s h a →
      M.step s a = some (s', es) → Reaches M C s' (h ++ es)

/-- The states reached by any run. -/
def Reachable (M : Machine σ α ε) : σ → List ε → Prop :=
  M.Reaches fun _ _ _ => True

variable {M : Machine σ α ε} {C D : σ → List ε → α → Prop}

/-- The induction over runs: what holds initially and is kept by every step
that meets the condition holds in every state reached. -/
theorem Reaches.invariant {I : σ → List ε → Prop} (h₀ : I M.init [])
    (hstep : ∀ {s s' h es a}, M.Reaches C s h → I s h → C s h a →
      M.step s a = some (s', es) → I s' (h ++ es))
    {s : σ} {h : List ε} (hr : M.Reaches C s h) : I s h := by
  induction hr with
  | init => exact h₀
  | step hr hc hs ih => exact hstep hr ih hc hs

/-- A weaker condition on the steps reaches at least as many states. -/
theorem Reaches.mono (hCD : ∀ s h a, C s h a → D s h a) {s : σ} {h : List ε}
    (hr : M.Reaches C s h) : M.Reaches D s h := by
  induction hr with
  | init => exact .init
  | step _ hc hs ih => exact .step ih (hCD _ _ _ hc) hs

theorem Reaches.reachable {s : σ} {h : List ε} (hr : M.Reaches C s h) : M.Reachable s h :=
  hr.mono fun _ _ _ _ => trivial

theorem Reachable.init : M.Reachable M.init [] := Reaches.init

theorem Reachable.step {s s' : σ} {h es : List ε} {a : α} (hr : M.Reachable s h)
    (hs : M.step s a = some (s', es)) : M.Reachable s' (h ++ es) :=
  Reaches.step hr trivial hs

/-- Invariant induction for unconditional runs. -/
theorem Reachable.invariant {I : σ → List ε → Prop} (h₀ : I M.init [])
    (hstep : ∀ {s s' h es a}, I s h → M.step s a = some (s', es) → I s' (h ++ es))
    {s : σ} {h : List ε} (hr : M.Reachable s h) : I s h :=
  Reaches.invariant h₀ (fun _ hi _ hs => hstep hi hs) hr

/-! ## Executable runs -/

/-- Perform a list of actions from `s`, adding the events to the history `h`;
`none` as soon as one of them is not enabled. -/
def runFrom (M : Machine σ α ε) : σ → List ε → List α → Option (σ × List ε)
  | s, h, [] => some (s, h)
  | s, h, a :: as =>
    match M.step s a with
    | none => none
    | some (s', es) => M.runFrom s' (h ++ es) as

/-- Perform a list of actions from the initial state. -/
def run (M : Machine σ α ε) (as : List α) : Option (σ × List ε) :=
  M.runFrom M.init [] as

/-- What every step keeps is kept by a run, wherever it begins. -/
theorem invariant_of_runFrom {I : σ → List ε → Prop}
    (hstep : ∀ {s s' h es a}, I s h → M.step s a = some (s', es) → I s' (h ++ es))
    {s s' : σ} {h h' : List ε} {as : List α} (hI : I s h)
    (hrun : M.runFrom s h as = some (s', h')) : I s' h' := by
  induction as generalizing s h with
  | nil =>
    obtain ⟨rfl, rfl⟩ : s = s' ∧ h = h' := by simpa [runFrom] using hrun
    exact hI
  | cons a as ih =>
    rw [runFrom] at hrun
    split at hrun
    · cases hrun
    · next s₁ es hs => exact ih (hstep hI hs) hrun

theorem reachable_of_runFrom {s s' : σ} {h h' : List ε} {as : List α}
    (hr : M.Reachable s h) (hrun : M.runFrom s h as = some (s', h')) :
    M.Reachable s' h' :=
  invariant_of_runFrom (fun hr hs => hr.step hs) hr hrun

/-- What a computed run ends in is reachable. -/
theorem reachable_of_run {s : σ} {h : List ε} {as : List α}
    (hrun : M.run as = some (s, h)) : M.Reachable s h :=
  reachable_of_runFrom Reachable.init hrun

/-- Perform a list of actions as long as each meets a decidable condition. -/
def runUnder (M : Machine σ α ε) (C : σ → List ε → α → Prop) [∀ s h a, Decidable (C s h a)] :
    σ → List ε → List α → Option (σ × List ε)
  | s, h, [] => some (s, h)
  | s, h, a :: as =>
    if C s h a then
      match M.step s a with
      | none => none
      | some (s', es) => M.runUnder C s' (h ++ es) as
    else none

/-- What such a run ends in is reached under the condition. -/
theorem reaches_of_runUnder [∀ s h a, Decidable (C s h a)] {s s' : σ} {h h' : List ε}
    {as : List α} (hr : M.Reaches C s h) (hrun : M.runUnder C s h as = some (s', h')) :
    M.Reaches C s' h' := by
  induction as generalizing s h with
  | nil =>
    obtain ⟨rfl, rfl⟩ : s = s' ∧ h = h' := by simpa [runUnder] using hrun
    exact hr
  | cons a as ih =>
    rw [runUnder] at hrun
    split at hrun
    · next hC =>
      split at hrun
      · cases hrun
      · next s₁ es hs => exact ih (.step hr hC hs) hrun
    · cases hrun

/-! ## Properties of one run -/

/-- `P` holds in every state of the run of `as` from `s`, up to the first
action that is not enabled. -/
def Always (M : Machine σ α ε) (P : σ → List ε → Prop) : σ → List ε → List α → Prop
  | s, h, [] => P s h
  | s, h, a :: as =>
    P s h ∧ ∀ s' es, M.step s a = some (s', es) → M.Always P s' (h ++ es) as

/-- Every enabled step of the run of `as` from `s` meets `C`. -/
def Along (M : Machine σ α ε) (C : σ → List ε → α → Prop) : σ → List ε → List α → Prop
  | _, _, [] => True
  | s, h, a :: as =>
    ∀ s' es, M.step s a = some (s', es) → C s h a ∧ M.Along C s' (h ++ es) as

/-- A run along which `C` holds ends in a state reached under `C`. -/
theorem reaches_of_along {s s' : σ} {h h' : List ε} {as : List α}
    (hr : M.Reaches C s h) (hc : M.Along C s h as)
    (hrun : M.runFrom s h as = some (s', h')) : M.Reaches C s' h' := by
  induction as generalizing s h with
  | nil =>
    obtain ⟨rfl, rfl⟩ : s = s' ∧ h = h' := by simpa [runFrom] using hrun
    exact hr
  | cons a as ih =>
    rw [runFrom] at hrun
    split at hrun
    · cases hrun
    · next s₁ es hs =>
      obtain ⟨hCa, hrest⟩ := hc s₁ es hs
      exact ih (.step hr hCa hs) hrest hrun

/-- A condition that every action meets in every state holds along the run. -/
theorem along_of_forall {as : List α} (has : ∀ a ∈ as, ∀ s h, C s h a) (s : σ) (h : List ε) :
    M.Along C s h as := by
  induction as generalizing s h with
  | nil => trivial
  | cons a as ih =>
    intro s' es _
    exact ⟨has a List.mem_cons_self s h, ih (fun b hb => has b (List.mem_cons_of_mem _ hb)) _ _⟩

theorem Always.head {P : σ → List ε → Prop} {s : σ} {h : List ε} {as : List α}
    (ha : M.Always P s h as) : P s h := by
  cases as with
  | nil => exact ha
  | cons a as => exact ha.1

/-- **Exact conditions over runs.** If steps that meet `C` keep an invariant
that implies `P`, and an enabled step that does not meet `C` leads to a state
without `P`, then `P` holds all along a run exactly when every step of the run
meets `C`. -/
theorem always_iff_along {P I : σ → List ε → Prop}
    (hIP : ∀ {s h}, I s h → P s h)
    (hgood : ∀ {s h a s' es}, I s h → C s h a → M.step s a = some (s', es) → I s' (h ++ es))
    (hbad : ∀ {s h a s' es}, I s h → ¬ C s h a → M.step s a = some (s', es) →
      ¬ P s' (h ++ es))
    {s : σ} {h : List ε} (hI : I s h) (as : List α) :
    M.Always P s h as ↔ M.Along C s h as := by
  -- the invariant goes along with the run as long as its steps are good
  induction as generalizing s h with
  | nil => exact ⟨fun _ => trivial, fun _ => hIP hI⟩
  | cons a as ih =>
    constructor
    · rintro ⟨-, hrest⟩ s' es hs
      have hCa : C s h a := by
        -- a bad step would end in a state without `P`
        by_contra hn
        exact hbad hI hn hs (hrest s' es hs).head
      exact ⟨hCa, (ih (hgood hI hCa hs)).mp (hrest s' es hs)⟩
    · intro hc
      refine ⟨hIP hI, fun s' es hs => ?_⟩
      obtain ⟨hCa, hrest⟩ := hc s' es hs
      exact (ih (hgood hI hCa hs)).mpr hrest

/-- What every step keeps holds all along every run. -/
theorem always_of_invariant {P I : σ → List ε → Prop} (hIP : ∀ {s h}, I s h → P s h)
    (hstep : ∀ {s h a s' es}, I s h → M.step s a = some (s', es) → I s' (h ++ es))
    {s : σ} {h : List ε} (hI : I s h) (as : List α) : M.Always P s h as :=
  (always_iff_along (P := P) (I := I) (C := fun _ _ _ => True) hIP (fun hI _ hs => hstep hI hs)
    (fun _ hbad => absurd trivial hbad) hI as).mpr
    (along_of_forall (fun _ _ _ _ => trivial) s h)

/-- The same, where one lemma says of a step whether it is good. -/
theorem always_iff_along_of_step {P I : σ → List ε → Prop}
    (hIP : ∀ {s h}, I s h → P s h)
    (hstep : ∀ {s h a s' es}, I s h → M.step s a = some (s', es) →
      (C s h a ∧ I s' (h ++ es)) ∨ (¬ C s h a ∧ ¬ P s' (h ++ es)))
    {s : σ} {h : List ε} (hI : I s h) (as : List α) :
    M.Always P s h as ↔ M.Along C s h as := by
  refine always_iff_along (I := I) hIP ?_ ?_ hI as
  · intro s h a s' es hI hgood hs
    rcases hstep hI hs with ⟨-, hnew⟩ | ⟨hbad, -⟩
    · exact hnew
    · exact absurd hgood hbad
  · intro s h a s' es hI hbad hs
    rcases hstep hI hs with ⟨hgood, -⟩ | ⟨-, hnot⟩
    · exact absurd hgood hbad
    · exact hnot

end Machine

/-!
## Endless runs

What a machine does for ever is a question about an endless list of actions. An action that
is not enabled does nothing, so every sequence of actions is a run.

- `Machine.stateAt`: the states of an endless run.
- `exists_change`: a property of states that is there after a while, and was not before, has
  come with one of the steps in between.
- `first_after`: what happens again and again has a first time after each moment.
-/

namespace Machine

variable {σ : Type u} {α : Type v} {ε : Type w}

/-- The state before the action number `k`. -/
def stateAt (M : Machine σ α ε) (act : ℕ → α) : ℕ → σ
  | 0 => M.init
  | k + 1 => ((M.step (M.stateAt act k) (act k)).map Prod.fst).getD (M.stateAt act k)

variable {M : Machine σ α ε} {act : ℕ → α}

theorem stateAt_succ_of_step {k : ℕ} {s' : σ} {es : List ε}
    (hs : M.step (M.stateAt act k) (act k) = some (s', es)) : M.stateAt act (k + 1) = s' := by
  rw [stateAt, hs]
  rfl

theorem stateAt_succ_of_none {k : ℕ} (hs : M.step (M.stateAt act k) (act k) = none) :
    M.stateAt act (k + 1) = M.stateAt act k := by
  rw [stateAt, hs]
  rfl

end Machine

/-- What is so at `j` and was not at `k` has begun in between. -/
theorem exists_change {p : ℕ → Prop} {k j : ℕ} (hkj : k ≤ j) (hk : ¬ p k) (hj : p j) :
    ∃ i, k ≤ i ∧ i < j ∧ ¬ p i ∧ p (i + 1) := by
  induction j, hkj using Nat.le_induction with
  | base => exact absurd hj hk
  | succ j hkj ih =>
    by_cases hpj : p j
    · obtain ⟨i, hki, hij, hchange⟩ := ih hpj
      exact ⟨i, hki, Nat.lt_succ_of_lt hij, hchange⟩
    · exact ⟨j, hkj, Nat.lt_succ_self j, hpj, hj⟩

/-- The first time after `k`. -/
theorem first_after {p : ℕ → Prop} (hp : ∃ᶠ k in Filter.atTop, p k) (k : ℕ) :
    ∃ j, k < j ∧ p j ∧ ∀ i, k < i → i < j → ¬ p i := by
  classical
  have hex : ∃ j, k < j ∧ p j := by
    obtain ⟨j, hkj, hj⟩ := Filter.frequently_atTop.mp hp (k + 1)
    exact ⟨j, hkj, hj⟩
  obtain ⟨hlt, hfirst⟩ := Nat.find_spec hex
  refine ⟨Nat.find hex, hlt, hfirst, fun i hki hi hpi => ?_⟩
  exact Nat.find_min hex hi ⟨hki, hpi⟩

/-!
## Statements about the past of an event

A safety statement about a trace often has the form "whenever this event occurs,
the trace before it was so and so". `Each Q h` says that of every event of `h`:
`Q` holds of what came before it and of the event.

- `Each.append`, `Each.snoc`: a trace is extended piece by piece.
- `Each.of_split`, `Each.last`: what such a statement says at one occurrence, and at the last.
- `lastRounds`: a trace cut into rounds by markers; what the last two rounds are.
- `streak`: how many events of one kind there were since one of another kind.
-/

/-- At every event of the trace, `Q` holds of the events before it and of it. -/
def Each {ε : Type u} (Q : List ε → ε → Prop) (h : List ε) : Prop :=
  ∀ pre e post, h = pre ++ e :: post → Q pre e

namespace Each

variable {ε : Type u} {Q R : List ε → ε → Prop} {h : List ε}

theorem nil : Each Q [] := by
  intro pre e post hsplit
  exact absurd hsplit (by simp)

theorem of_split (hQ : Each Q h) {pre post : List ε} {e : ε} (hh : h = pre ++ e :: post) :
    Q pre e :=
  hQ pre e post hh

/-- What such a statement says of the last event. -/
theorem last {e : ε} (hQ : Each Q (h ++ [e])) : Q h e := hQ h e [] rfl

/-- One more event. -/
theorem snoc (hQ : Each Q h) {e : ε} (he : Q h e) : Each Q (h ++ [e]) := by
  intro pre f post hsplit
  rcases List.eq_nil_or_concat post with rfl | ⟨post', g, rfl⟩
  · -- the event is the last one
    obtain ⟨rfl, hf⟩ := List.append_inj' hsplit rfl
    obtain rfl : e = f := by simpa using hf
    exact he
  · have hassoc : h ++ [e] = (pre ++ f :: post') ++ [g] := by
      rw [hsplit, List.concat_eq_append, List.append_assoc, List.cons_append]
    exact hQ pre f post' (List.append_inj_left' hassoc rfl)

/-- More events, each judged with everything before it. -/
theorem append (hQ : Each Q h) {es : List ε}
    (hes : ∀ pre e post, es = pre ++ e :: post → Q (h ++ pre) e) : Each Q (h ++ es) := by
  -- from the end, since each event is judged with its past
  induction es using List.reverseRecOn with
  | nil => rwa [List.append_nil]
  | append_singleton es e ih =>
    rw [← List.append_assoc]
    refine (ih fun pre f post hsplit => hes pre f (post ++ [e]) ?_).snoc (hes es e [] rfl)
    rw [hsplit, List.append_assoc, List.cons_append]

/-- Events of which `Q` says nothing change nothing. -/
theorem append_of_forall (hQ : Each Q h) {es : List ε} (hes : ∀ pre, ∀ e ∈ es, Q pre e) :
    Each Q (h ++ es) := by
  refine hQ.append fun pre e post hsplit => hes _ e ?_
  rw [hsplit]
  exact List.mem_append_right _ List.mem_cons_self

end Each

/-! ### Rounds -/

section Rounds

variable {ε : Type u} (mark : ε → Bool)

/-- One event more: a marker starts a round, any other event belongs to the
current one. -/
def nextRounds (rounds : List ε × List ε) (e : ε) : List ε × List ε :=
  if mark e then (rounds.2, []) else (rounds.1, rounds.2 ++ [e])

/-- The events of the last two rounds: of the one before the last marker, and of
the one it started. -/
def lastRounds (h : List ε) : List ε × List ε :=
  h.foldl (nextRounds mark) ([], [])

theorem lastRounds_marker (h : List ε) {e : ε} (he : mark e = true) :
    lastRounds mark (h ++ [e]) = ((lastRounds mark h).2, []) := by
  unfold lastRounds
  rw [List.foldl_append]
  exact if_pos he

/-- Events without a marker belong to the current round. -/
theorem lastRounds_append (h : List ε) {es : List ε} (hes : ∀ e ∈ es, mark e = false) :
    lastRounds mark (h ++ es) = ((lastRounds mark h).1, (lastRounds mark h).2 ++ es) := by
  induction es using List.reverseRecOn with
  | nil => simp
  | append_singleton es e ih =>
    have hlast : mark e = false := hes e (by simp)
    have hinit := ih fun f hf => hes f (List.mem_append_left _ hf)
    unfold lastRounds at hinit ⊢
    rw [← List.append_assoc, List.foldl_append, hinit]
    show nextRounds mark _ e = _
    unfold nextRounds
    simp [hlast]

end Rounds

/-! ### Streaks -/

section Streaks

variable {ε : Type u} (hit reset : ε → Bool)

/-- One event more: a reset starts the count again. -/
def nextStreak (n : ℕ) (e : ε) : ℕ :=
  if reset e then 0 else if hit e then n + 1 else n

/-- How many hits there were since the last reset. -/
def streak (h : List ε) : ℕ := h.foldl (nextStreak hit reset) 0

theorem streak_append (h es : List ε) :
    streak hit reset (h ++ es) = es.foldl (nextStreak hit reset) (streak hit reset h) := by
  unfold streak
  rw [List.foldl_append]

end Streaks

end FlashEdge
