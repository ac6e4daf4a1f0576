import FlashEdge.Core.ThrottledTasks

/-!
# Whether executions of a task overlap

A tick is skipped while the entry's flag says that an execution is running, so executions of a
task overlap only if the watchdog has released the earlier one. The flag belongs to the entry,
though: registering the task again makes a new entry whose flag is not set, an interval whose
handle was lost ticks an entry that is no longer registered, and an execution that was released
clears the flag when it ends at last, although a later one may be running.

- `Tally`: the executions of a task, read off the events.
- `OverlapsReleased`: what is promised of them.
- `KeepsApart`: the condition on an action.
- `overlapsReleased_of_reaches`: under the condition the promise holds in every state.
-/

namespace FlashEdge

namespace Scheduler

/-- The executions of one task: those running that were not released, and how many have been
started, have ended without having been released, and were released. -/
structure Tally where
  unreleased : List ℕ := []
  starts : ℕ := 0
  ends : ℕ := 0
  releases : ℕ := 0
deriving DecidableEq, Repr

def Tally.next (name : String) (t : Tally) : SchedulerEvent → Tally
  | .started n run =>
    if n = name then { t with unreleased := t.unreleased ++ [run], starts := t.starts + 1 } else t
  | .ended n run =>
    if n = name then
      { t with
        unreleased := t.unreleased.filter fun r => r ≠ run
        ends := if t.unreleased.contains run then t.ends + 1 else t.ends }
    else t
  | .released n run =>
    if n = name then
      { t with
        unreleased := t.unreleased.filter fun r => r ≠ run
        releases := t.releases + 1 }
    else t

def tally (name : String) (h : List SchedulerEvent) : Tally := h.foldl (Tally.next name) {}

/-- An execution starts only when all executions of its task that are still running have been
released, and each release admits one execution beyond those that follow on the end of another. -/
structure OverlapsReleased (h : List SchedulerEvent) : Prop where
  started : ∀ before name run after, h = before ++ .started name run :: after →
    (tally name before).unreleased = []
  admitted : ∀ name, (tally name h).starts ≤ 1 + (tally name h).ends + (tally name h).releases

/-- A task is registered while no execution of it is running that was not released; the entry
that is ticked is the registered one of its task; and an execution that was released does not end
while a later one, not released, is running. -/
def KeepsApart (s : Scheduler) (h : List SchedulerEvent) : SchedulerAction → Prop
  | .register task => (tally task.name h).unreleased = []
  | .tick entry _ _ _ => ∀ e ∈ s.entryOf entry, s.timers.get? e.task.name = some e
  | .finished run => ∀ x ∈ s.executions.find? fun x => x.run = run,
      run ∈ (tally x.name h).unreleased ∨ (tally x.name h).unreleased = []
  | _ => True

instance (s : Scheduler) (h : List SchedulerEvent) : ∀ a, Decidable (KeepsApart s h a)
  | .register task => inferInstanceAs (Decidable ((tally task.name h).unreleased = []))
  | .tick entry _ _ _ =>
    inferInstanceAs (Decidable (∀ e ∈ s.entryOf entry, s.timers.get? e.task.name = some e))
  | .finished run =>
    inferInstanceAs (Decidable (∀ x ∈ s.executions.find? fun x => x.run = run,
      run ∈ (tally x.name h).unreleased ∨ (tally x.name h).unreleased = []))
  | .unregister _ => isTrue trivial
  | .start => isTrue trivial
  | .shutdown => isTrue trivial
  | .transition _ => isTrue trivial
  | .watchdog _ => isTrue trivial

/-! ## Tallies -/

/-- At most one execution is running that was not released, and the starts are accounted for. -/
structure Tally.Fair (t : Tally) : Prop where
  single : t.unreleased.length ≤ 1
  starts : t.starts ≤ t.unreleased.length + t.ends + t.releases

variable {s s' : Scheduler} {h es : List SchedulerEvent} {name : String} {t : Tally}

theorem tally_append (name : String) (h es : List SchedulerEvent) :
    tally name (h ++ es) = es.foldl (Tally.next name) (tally name h) := List.foldl_append

/-- Dropping a run from a list of at most one. -/
theorem filter_single {l : List ℕ} (hsingle : l.length ≤ 1) (run : ℕ) :
    (run ∈ l ∧ l = [run] ∧ (l.filter fun r => r ≠ run) = []) ∨
      (run ∉ l ∧ (l.filter fun r => r ≠ run) = l) := by
  cases l with
  | nil => exact .inr ⟨List.not_mem_nil, rfl⟩
  | cons r l =>
    have hnil : l = [] := by
      rw [← List.length_eq_zero_iff]
      rw [List.length_cons] at hsingle
      omega
    rw [hnil]
    by_cases hr : r = run
    · rw [hr]
      refine .inl ⟨List.mem_singleton_self run, rfl, ?_⟩
      simp
    · refine .inr ⟨fun hmem => hr (List.mem_singleton.mp hmem).symm, ?_⟩
      simp [hr]

theorem Tally.Fair.started (hfair : t.Fair) (hnone : t.unreleased = []) (n : String) (run : ℕ) :
    (t.next name (.started n run)).Fair := by
  unfold Tally.next
  dsimp only
  split
  · have hstarts := hfair.starts
    rw [hnone, List.length_nil] at hstarts
    refine ⟨?_, ?_⟩
    · show (t.unreleased ++ [run]).length ≤ 1
      rw [hnone]
      exact le_rfl
    · show t.starts + 1 ≤ (t.unreleased ++ [run]).length + t.ends + t.releases
      rw [hnone, List.nil_append, List.length_singleton]
      omega
  · exact hfair

theorem Tally.Fair.ended (hfair : t.Fair) (n : String) (run : ℕ) :
    (t.next name (.ended n run)).Fair := by
  unfold Tally.next
  dsimp only
  split
  · have hstarts := hfair.starts
    rcases filter_single hfair.single run with ⟨hmem, hone, hnone⟩ | ⟨hnot, hsame⟩
    · have hcontains : t.unreleased.contains run = true := List.contains_iff_mem.mpr hmem
      rw [hone, List.length_singleton] at hstarts
      refine ⟨?_, ?_⟩
      · dsimp only
        rw [hnone]
        exact Nat.zero_le 1
      · dsimp only
        rw [hnone, hcontains, if_pos rfl, List.length_nil]
        omega
    · have hcontains : t.unreleased.contains run = false :=
        Bool.eq_false_iff.mpr fun hc => hnot (List.contains_iff_mem.mp hc)
      refine ⟨?_, ?_⟩
      · dsimp only
        rw [hsame]
        exact hfair.single
      · dsimp only
        rw [hsame, hcontains, if_neg Bool.false_ne_true]
        exact hstarts
  · exact hfair

theorem Tally.Fair.released (hfair : t.Fair) (name n : String) (run : ℕ) :
    (t.next name (.released n run)).Fair := by
  unfold Tally.next
  dsimp only
  split
  · have hstarts := hfair.starts
    rcases filter_single hfair.single run with ⟨-, hone, hnone⟩ | ⟨-, hsame⟩
    · rw [hone, List.length_singleton] at hstarts
      refine ⟨?_, ?_⟩
      · dsimp only
        rw [hnone]
        exact Nat.zero_le 1
      · dsimp only
        rw [hnone, List.length_nil]
        omega
    · refine ⟨?_, ?_⟩
      · dsimp only
        rw [hsame]
        exact hfair.single
      · dsimp only
        rw [hsame]
        omega
  · exact hfair

/-- The events of other tasks do not count. -/
theorem foldl_next_of_others {l : List SchedulerEvent}
    (hothers : ∀ e ∈ l, ∀ run, e ≠ .started name run ∧ e ≠ .ended name run ∧ e ≠ .released name run)
    (t : Tally) : l.foldl (Tally.next name) t = t := by
  induction l generalizing t with
  | nil => rfl
  | cons e l ih =>
    have hsame : t.next name e = t := by
      cases e with
      | started n run =>
        exact if_neg fun heq => (hothers _ List.mem_cons_self run).1 (by rw [heq])
      | ended n run =>
        exact if_neg fun heq => (hothers _ List.mem_cons_self run).2.1 (by rw [heq])
      | released n run =>
        exact if_neg fun heq => (hothers _ List.mem_cons_self run).2.2 (by rw [heq])
    rw [List.foldl_cons, hsame]
    exact ih (fun e he => hothers e (List.mem_cons_of_mem _ he)) t

/-- Releases keep a tally fair, and leave none of the released runs. -/
theorem foldl_next_releases {l : List SchedulerEvent}
    (hall : ∀ e ∈ l, ∃ n run, e = .released n run) (hfair : t.Fair) :
    (l.foldl (Tally.next name) t).Fair ∧
      (l.foldl (Tally.next name) t).unreleased ⊆ t.unreleased ∧
      ∀ run, .released name run ∈ l → run ∉ (l.foldl (Tally.next name) t).unreleased := by
  induction l generalizing t with
  | nil => exact ⟨hfair, fun _ hr => hr, fun _ hmem => absurd hmem List.not_mem_nil⟩
  | cons e l ih =>
    obtain ⟨n, run, rfl⟩ := hall _ List.mem_cons_self
    have hsub : (t.next name (.released n run)).unreleased ⊆ t.unreleased := by
      unfold Tally.next
      dsimp only
      split
      · exact List.filter_subset_self _
      · exact fun _ hr => hr
    obtain ⟨hnext, hkeep, hgone⟩ := ih (fun e he => hall e (List.mem_cons_of_mem _ he))
      (hfair.released name n run)
    refine ⟨hnext, fun r hr => hsub (hkeep hr), fun run' hmem hr => ?_⟩
    rcases List.mem_cons.mp hmem with heq | hmem
    · obtain ⟨rfl, rfl⟩ := SchedulerEvent.released.inj heq
      have hfiltered := hkeep hr
      unfold Tally.next at hfiltered
      dsimp only at hfiltered
      rw [if_pos rfl] at hfiltered
      exact absurd rfl (of_decide_eq_true (List.mem_filter.mp hfiltered).2)
    · exact hgone run' hmem hr

/-! ## The registered entries and the executions -/

/-- What holds in every state: entries are registered under the names of their tasks, with
different numbers; the flag of an entry is set while an execution of its task is running that was
not released, and that is its last one; and an execution belongs to no other task's entry. -/
structure RunsInv (s : Scheduler) (h : List SchedulerEvent) : Prop where
  named : ∀ name e, s.timers.get? name = some e → e.task.name = name
  distinct : ∀ name name' e e', s.timers.get? name = some e → s.timers.get? name' = some e' →
    e.id = e'.id → name = name'
  known : ∀ name e, s.timers.get? name = some e → e.id < s.entries
  flagged : ∀ name e, s.timers.get? name = some e → (tally name h).unreleased = [] ∨
    e.running = true ∧ ∃ run, e.lastRun = some run ∧ (tally name h).unreleased = [run]
  executions : ∀ x ∈ s.executions, x.entry < s.entries ∧
    ∀ name e, s.timers.get? name = some e → e.id = x.entry → x.name = name
  fair : ∀ name, (tally name h).Fair
  started : ∀ before name run after, h = before ++ .started name run :: after →
    (tally name before).unreleased = []

theorem RunsInv.overlapsReleased (hI : RunsInv s h) : OverlapsReleased h := by
  refine ⟨hI.started, fun name => ?_⟩
  have hsingle := (hI.fair name).single
  have hstarts := (hI.fair name).starts
  omega

/-- The flags and the numbers of an entry are those of another. -/
structure SameFlags (e' e : ActiveTimer) : Prop where
  id : e'.id = e.id
  task : e'.task = e.task
  running : e'.running = e.running
  lastRun : e'.lastRun = e.lastRun

theorem SameFlags.rfl {e : ActiveTimer} : SameFlags e e :=
  ⟨Eq.refl _, Eq.refl _, Eq.refl _, Eq.refl _⟩

theorem SameFlags.trans {e₁ e₂ e₃ : ActiveTimer} (h : SameFlags e₁ e₂) (h' : SameFlags e₂ e₃) :
    SameFlags e₁ e₃ :=
  ⟨h.id.trans h'.id, h.task.trans h'.task, h.running.trans h'.running, h.lastRun.trans h'.lastRun⟩

/-- What only touches the intervals, or removes entries, keeps the invariant. -/
theorem RunsInv.same (hI : RunsInv s h)
    (htimers : ∀ name e', s'.timers.get? name = some e' →
      ∃ e, s.timers.get? name = some e ∧ SameFlags e' e)
    (hexecutions : s'.executions = s.executions) (hentries : s'.entries = s.entries) :
    RunsInv s' (h ++ []) := by
  rw [List.append_nil]
  refine ⟨fun name e' he' => ?_, fun name name' e₁ e₂ h₁ h₂ hid => ?_, fun name e' he' => ?_,
    fun name e' he' => ?_, fun x hx => ?_, hI.fair, hI.started⟩
  · obtain ⟨e, he, hsame⟩ := htimers name e' he'
    rw [hsame.task]
    exact hI.named name e he
  · obtain ⟨e, he, hsame⟩ := htimers name e₁ h₁
    obtain ⟨e', he', hsame'⟩ := htimers name' e₂ h₂
    exact hI.distinct name name' e e' he he' (hsame.id.symm.trans (hid.trans hsame'.id))
  · obtain ⟨e, he, hsame⟩ := htimers name e' he'
    rw [hsame.id, hentries]
    exact hI.known name e he
  · obtain ⟨e, he, hsame⟩ := htimers name e' he'
    rw [hsame.running, hsame.lastRun]
    exact hI.flagged name e he
  · rw [hexecutions] at hx
    obtain ⟨hlt, howner⟩ := hI.executions x hx
    refine ⟨hentries ▸ hlt, fun name e' he' hid => ?_⟩
    obtain ⟨e, he, hsame⟩ := htimers name e' he'
    exact howner name e he (hsame.id.symm.trans hid)

theorem startTimer_sameFlags (e : ActiveTimer) : SameFlags e.startTimer e := by
  unfold ActiveTimer.startTimer
  split
  · exact .rfl
  · exact ⟨rfl, rfl, rfl, rfl⟩

theorem rebalanceEntry_sameFlags (state : RuntimeState) (started : Bool) (e : ActiveTimer) :
    SameFlags (rebalanceEntry state started e) e := by
  have hanew : ∀ timer x, SameFlags
      ({ e with timer := timer, currentIntervalMs := x } : ActiveTimer).startTimer e :=
    fun _ _ => (startTimer_sameFlags _).trans ⟨rfl, rfl, rfl, rfl⟩
  unfold rebalanceEntry
  dsimp only
  split
  · exact ⟨rfl, rfl, rfl, rfl⟩
  · split
    · exact hanew _ _
    · split
      · exact hanew _ _
      · exact .rfl

theorem rebalance_iterate_sameFlags (s : Scheduler) (n : ℕ) :
    (∀ name e', (rebalance^[n] s).timers.get? name = some e' →
        ∃ e, s.timers.get? name = some e ∧ SameFlags e' e) ∧
      (rebalance^[n] s).executions = s.executions ∧ (rebalance^[n] s).entries = s.entries := by
  induction n with
  | zero => exact ⟨fun name e' he' => ⟨e', he', .rfl⟩, rfl, rfl⟩
  | succ n ih =>
    obtain ⟨hfrom, hexecutions, hentries⟩ := ih
    rw [Function.iterate_succ_apply']
    refine ⟨fun name e'' he'' => ?_, hexecutions, hentries⟩
    obtain ⟨e', he', rfl⟩ := OrderedMap.get?_mapValues.mp he''
    obtain ⟨e, he, hsame⟩ := hfrom name e' he'
    exact ⟨e, he, (rebalanceEntry_sameFlags _ _ _).trans hsame⟩

theorem RunsInv.transition (hI : RunsInv s h) (next : RuntimeState) :
    RunsInv (s.transition next) (h ++ []) := by
  unfold Scheduler.transition
  split
  · exact hI.same (fun _ e he => ⟨e, he, .rfl⟩) rfl rfl
  · obtain ⟨hfrom, hexecutions, hentries⟩ :=
      rebalance_iterate_sameFlags { s with runtime := next } s.listeners
    exact hI.same hfrom hexecutions hentries

theorem RunsInv.start (hI : RunsInv s h) : RunsInv s.start (h ++ []) := by
  unfold Scheduler.start
  split
  · exact hI.same (fun _ e he => ⟨e, he, .rfl⟩) rfl rfl
  · refine hI.same (fun name e' he' => ?_) rfl rfl
    obtain ⟨e, he, rfl⟩ := OrderedMap.get?_mapValues.mp he'
    exact ⟨e, he, startTimer_sameFlags e⟩

theorem RunsInv.unregister (hI : RunsInv s h) (name : String) :
    RunsInv (s.unregister name) (h ++ []) := by
  refine hI.same (fun _ e he => ⟨e, (get?_unregister.mp he).2, .rfl⟩) ?_
    (unregister_same s name).2.2.2
  unfold Scheduler.unregister
  split
  · rfl
  · rfl

theorem RunsInv.shutdown (hI : RunsInv s h) : RunsInv s.shutdown (h ++ []) :=
  hI.same (fun _ _ he => (by cases he)) rfl rfl

/-- A registration makes a new entry, with a number of its own. -/
theorem RunsInv.register (hI : RunsInv s h) {task : ManagedTask}
    (hnone : (tally task.name h).unreleased = []) : RunsInv (s.register task) (h ++ []) := by
  have hentries : (s.register task).entries = s.entries + 1 :=
    congrArg (· + 1) (unregister_same s task.name).2.2.2
  have hexecutions : (s.register task).executions = s.executions := by
    show (s.unregister task.name).executions = _
    unfold Scheduler.unregister
    split
    · rfl
    · rfl
  -- the entry that is found is the new one, or an old one under another name
  have hfound : ∀ name e, (s.register task).timers.get? name = some e →
      (name = task.name ∧ e.task = task ∧ e.id = s.entries) ∨
        (name ≠ task.name ∧ s.timers.get? name = some e) := by
    intro name e he
    rcases get?_register.mp he with ⟨hname, rfl⟩ | hold
    · refine .inl ⟨hname, ?_⟩
      split
      · have hsame := startTimer_sameFlags (s.newEntry task)
        exact ⟨hsame.task, hsame.id⟩
      · exact ⟨rfl, rfl⟩
    · exact .inr hold
  rw [List.append_nil]
  refine ⟨fun name e he => ?_, fun name name' e e' he he' hid => ?_, fun name e he => ?_,
    fun name e he => ?_, fun x hx => ?_, hI.fair, hI.started⟩
  · rcases hfound name e he with ⟨rfl, htask, -⟩ | ⟨-, hold⟩
    · rw [htask]
    · exact hI.named name e hold
  · rcases hfound name e he with ⟨hname, -, hnew⟩ | ⟨-, hold⟩
    · rcases hfound name' e' he' with ⟨hname', -, -⟩ | ⟨-, hold'⟩
      · rw [hname, hname']
      · have hlt := hI.known name' e' hold'
        omega
    · rcases hfound name' e' he' with ⟨-, -, hnew'⟩ | ⟨-, hold'⟩
      · have hlt := hI.known name e hold
        omega
      · exact hI.distinct name name' e e' hold hold' hid
  · rw [hentries]
    rcases hfound name e he with ⟨-, -, hnew⟩ | ⟨-, hold⟩
    · omega
    · have hlt := hI.known name e hold
      omega
  · rcases hfound name e he with ⟨rfl, -, -⟩ | ⟨-, hold⟩
    · exact .inl hnone
    · exact hI.flagged name e hold
  · rw [hexecutions] at hx
    obtain ⟨hlt, howner⟩ := hI.executions x hx
    refine ⟨by rw [hentries]; omega, fun name e he hid => ?_⟩
    rcases hfound name e he with ⟨-, -, hnew⟩ | ⟨-, hold⟩
    · omega
    · exact howner name e hold hid

/-! ## Executions -/

/-- A history is extended by events whose starts are clear. -/
theorem started_append (hold : ∀ before name run after, h = before ++ .started name run :: after →
      (tally name before).unreleased = [])
    (hnew : ∀ before name run after, es = before ++ .started name run :: after →
      (tally name (h ++ before)).unreleased = []) :
    ∀ before name run after, h ++ es = before ++ .started name run :: after →
      (tally name before).unreleased = [] := by
  intro before name run after hsplit
  rcases List.append_eq_append_iff.mp hsplit with ⟨rest, hbefore, hes⟩ | ⟨rest, hh, hafter⟩
  · rw [hbefore]
    exact hnew rest name run after hes
  · cases rest with
    | nil =>
      rw [List.append_nil] at hh
      rw [← hh]
      have hclear := hnew [] name run after hafter.symm
      rw [List.append_nil] at hclear
      exact hclear
    | cons e rest =>
      obtain ⟨rfl, -⟩ := List.cons.inj hafter
      exact hold before name run rest hh

/-- A history is extended by events that start nothing. -/
theorem started_append_quiet (hold : ∀ before name run after,
      h = before ++ .started name run :: after → (tally name before).unreleased = [])
    (hquiet : ∀ name run, .started name run ∉ es) :
    ∀ before name run after, h ++ es = before ++ .started name run :: after →
      (tally name before).unreleased = [] := by
  refine started_append hold fun before name run after hes => absurd ?_ (hquiet name run)
  rw [hes]
  exact List.mem_append_right before List.mem_cons_self

theorem mem_releases {now : ℚ} {ev : SchedulerEvent} :
    ev ∈ s.releases now ↔ ∃ name e run, s.timers.get? name = some e ∧ stuck now e = true ∧
      e.lastRun = some run ∧ ev = .released e.task.name run := by
  unfold releases
  rw [List.mem_filterMap]
  constructor
  · rintro ⟨⟨name, e⟩, hmem, hev⟩
    dsimp only at hev
    split at hev
    · next hstuck =>
      obtain ⟨run, hrun, rfl⟩ := Option.map_eq_some_iff.mp hev
      exact ⟨name, e, run, OrderedMap.get?_eq_some_iff.mpr hmem, hstuck, hrun, rfl⟩
    · cases hev
  · rintro ⟨name, e, run, he, hstuck, hrun, rfl⟩
    refine ⟨(name, e), OrderedMap.get?_eq_some_iff.mp he, ?_⟩
    dsimp only
    rw [if_pos hstuck, hrun]
    rfl

/-- Writing the flags of the registered entries keeps what does not depend on them. -/
theorem RunsInv.mapped (hI : RunsInv s h) {g : ActiveTimer → ActiveTimer}
    (hg : ∀ e, (g e).id = e.id ∧ (g e).task = e.task)
    (htimers : s'.timers = s.timers.mapValues fun _ e => g e) (hentries : s'.entries = s.entries)
    (hflagged : ∀ name e, s.timers.get? name = some e →
      (tally name (h ++ es)).unreleased = [] ∨ (g e).running = true ∧
        ∃ run, (g e).lastRun = some run ∧ (tally name (h ++ es)).unreleased = [run])
    (hexecutions : ∀ x ∈ s'.executions, x ∈ s.executions ∨ x.entry < s.entries ∧
      ∀ name e, s.timers.get? name = some e → e.id = x.entry → x.name = name)
    (hfair : ∀ name, (tally name (h ++ es)).Fair)
    (hstarted : ∀ before name run after, h ++ es = before ++ .started name run :: after →
      (tally name before).unreleased = []) : RunsInv s' (h ++ es) := by
  have hfrom : ∀ name e', s'.timers.get? name = some e' →
      ∃ e, s.timers.get? name = some e ∧ g e = e' := by
    intro name e' he'
    rw [htimers] at he'
    exact OrderedMap.get?_mapValues.mp he'
  refine ⟨fun name e' he' => ?_, fun name name' e₁ e₂ h₁ h₂ hid => ?_, fun name e' he' => ?_,
    fun name e' he' => ?_, fun x hx => ?_, hfair, hstarted⟩
  · obtain ⟨e, he, rfl⟩ := hfrom name e' he'
    rw [(hg e).2]
    exact hI.named name e he
  · obtain ⟨e, he, rfl⟩ := hfrom name e₁ h₁
    obtain ⟨e', he', rfl⟩ := hfrom name' e₂ h₂
    rw [(hg e).1, (hg e').1] at hid
    exact hI.distinct name name' e e' he he' hid
  · obtain ⟨e, he, rfl⟩ := hfrom name e' he'
    rw [(hg e).1, hentries]
    exact hI.known name e he
  · obtain ⟨e, he, rfl⟩ := hfrom name e' he'
    exact hflagged name e he
  · have howned : x.entry < s.entries ∧
        ∀ name e, s.timers.get? name = some e → e.id = x.entry → x.name = name := by
      rcases hexecutions x hx with hold | hnew
      · exact hI.executions x hold
      · exact hnew
    refine ⟨hentries ▸ howned.1, fun name e' he' hid => ?_⟩
    obtain ⟨e, he, rfl⟩ := hfrom name e' he'
    rw [(hg e).1] at hid
    exact howned.2 name e he hid

/-- The watchdog releases what is stuck: no execution that was not released is left there. -/
theorem RunsInv.watchdog (hI : RunsInv s h) (now : ℚ) :
    RunsInv (s.watchdog now) (h ++ s.releases now) := by
  have hall : ∀ ev ∈ s.releases now, ∃ n run, ev = .released n run := by
    intro ev hev
    obtain ⟨-, e, run, -, -, -, rfl⟩ := mem_releases.mp hev
    exact ⟨_, run, rfl⟩
  refine hI.mapped (g := fun e => if stuck now e then clearRunning e else e) (fun e => ?_) rfl rfl
    (fun name e he => ?_) (fun x hx => .inl hx) (fun name => ?_)
    (started_append_quiet hI.started fun name run hmem => ?_)
  · split
    · exact ⟨rfl, rfl⟩
    · exact ⟨rfl, rfl⟩
  · obtain ⟨-, hkeep, hgone⟩ := foldl_next_releases hall (hI.fair name)
    rw [tally_append]
    by_cases hstuck : stuck now e = true
    · -- what the flag stands for is released
      refine .inl (List.eq_nil_iff_forall_not_mem.mpr fun r hr => ?_)
      rcases hI.flagged name e he with hnone | ⟨-, run, hrun, hone⟩
      · rw [hnone] at hkeep
        exact absurd (hkeep hr) List.not_mem_nil
      · rw [hone] at hkeep
        obtain rfl := List.mem_singleton.mp (hkeep hr)
        refine hgone r (mem_releases.mpr ⟨name, e, r, he, hstuck, hrun, ?_⟩) hr
        rw [hI.named name e he]
    · -- no other entry has this name
      have hothers : ∀ ev ∈ s.releases now, ∀ run,
          ev ≠ .started name run ∧ ev ≠ .ended name run ∧ ev ≠ .released name run := by
        intro ev hev run
        obtain ⟨name', e', run', he', hstuck', -, rfl⟩ := mem_releases.mp hev
        refine ⟨fun heq => (by cases heq), fun heq => (by cases heq), fun heq => hstuck ?_⟩
        have hname := (SchedulerEvent.released.inj heq).1
        rw [hI.named name' e' he'] at hname
        rw [hname] at he'
        obtain rfl := Option.some.inj (he.symm.trans he')
        exact hstuck'
      rw [foldl_next_of_others hothers, if_neg hstuck]
      exact hI.flagged name e he
  · rw [tally_append]
    exact (foldl_next_releases hall (hI.fair name)).1
  · obtain ⟨n, r, heq⟩ := hall _ hmem
    cases heq

/-- The events of one execution do not count for another task. -/
theorem tally_of_other {n : String} (hne : n ≠ name) {run : ℕ}
    (hes : ∀ ev ∈ es, ev = .started n run ∨ ev = .ended n run) :
    tally name (h ++ es) = tally name h := by
  rw [tally_append]
  refine foldl_next_of_others (fun ev hev run' => ?_) _
  rcases hes ev hev with rfl | rfl
  · refine ⟨fun heq => hne ?_, fun heq => (by cases heq), fun heq => (by cases heq)⟩
    exact (SchedulerEvent.started.inj heq).1
  · refine ⟨fun heq => (by cases heq), fun heq => hne ?_, fun heq => (by cases heq)⟩
    exact (SchedulerEvent.ended.inj heq).1

theorem tally_snoc (name : String) (h : List SchedulerEvent) (ev : SchedulerEvent) :
    tally name (h ++ [ev]) = (tally name h).next name ev := tally_append name h [ev]

/-- An execution ends: its entry's flag is cleared, and no execution of its task that was not
released is left. -/
theorem RunsInv.ends (hI : RunsInv s h) (id run : ℕ) (n : String)
    (howner : ∀ name e, s.timers.get? name = some e → e.id = id → n = name)
    (hkeeps : run ∈ (tally n h).unreleased ∨ (tally n h).unreleased = [])
    (htimers : s'.timers = (s.updateEntry id clearRunning).timers)
    (hentries : s'.entries = s.entries) (hexecutions : ∀ y ∈ s'.executions, y ∈ s.executions) :
    RunsInv s' (h ++ [.ended n run]) := by
  have hnone : (tally n (h ++ [.ended n run])).unreleased = [] := by
    have hfiltered : (tally n (h ++ [.ended n run])).unreleased =
        (tally n h).unreleased.filter fun r => r ≠ run := by
      rw [tally_snoc]
      unfold Tally.next
      dsimp only
      rw [if_pos rfl]
    rw [hfiltered]
    rcases hkeeps with hmem | hnil
    · rcases filter_single (hI.fair n).single run with ⟨-, -, hnone⟩ | ⟨hnot, -⟩
      · exact hnone
      · exact absurd hmem hnot
    · rw [hnil]
      rfl
  refine hI.mapped (g := fun e => if e.id = id then clearRunning e else e) (fun e => ?_) htimers
    hentries (fun name e he => ?_) (fun y hy => .inl (hexecutions y hy)) (fun name => ?_)
    (started_append_quiet hI.started fun name run hmem => ?_)
  · split
    · exact ⟨rfl, rfl⟩
    · exact ⟨rfl, rfl⟩
  · by_cases hname : n = name
    · rw [← hname]
      exact .inl hnone
    · have hid : e.id ≠ id := fun hid => hname (howner name e he hid)
      rw [tally_of_other hname fun ev hev => .inr (List.mem_singleton.mp hev), if_neg hid]
      exact hI.flagged name e he
  · rw [tally_snoc]
    exact (hI.fair name).ended n run
  · cases List.mem_singleton.mp hmem

/-- The promise of an execution is settled. -/
theorem RunsInv.finish (hI : RunsInv s h) {x : Execution} (hx : x ∈ s.executions)
    (hkeeps : x.run ∈ (tally x.name h).unreleased ∨ (tally x.name h).unreleased = []) :
    RunsInv (s.finish x) (h ++ [.ended x.name x.run]) :=
  hI.ends _ _ _ (hI.executions x hx).2 hkeeps rfl rfl fun _ hy => List.mem_of_mem_filter hy

/-- The entry that ticks. -/
theorem RunsInv.idle (hI : RunsInv s h) {e : ActiveTimer}
    (he : s.timers.get? e.task.name = some e) (hidle : e.running = false) :
    (tally e.task.name h).unreleased = [] := by
  rcases hI.flagged _ e he with hnone | ⟨hrunning, -⟩
  · exact hnone
  · rw [hidle] at hrunning
    cases hrunning

/-- Only the entry that ticks is written to. -/
theorem RunsInv.other_entry (hI : RunsInv s h) {e e' : ActiveTimer} {name : String}
    (he : s.timers.get? e.task.name = some e) (he' : s.timers.get? name = some e') :
    (name = e.task.name ∧ e' = e) ∨ (e.task.name ≠ name ∧ e'.id ≠ e.id) := by
  by_cases hname : e.task.name = name
  · rw [← hname] at he'
    exact .inl ⟨hname.symm, Option.some.inj (he'.symm.trans he)⟩
  · exact .inr ⟨hname, fun hid => hname (hI.distinct _ _ e e' he he' hid.symm)⟩

/-- An execution begins where none was running that was not released. -/
theorem RunsInv.begins (hI : RunsInv s h) {e : ActiveTimer} (now : ℚ)
    (he : s.timers.get? e.task.name = some e) (hidle : e.running = false)
    (htimers : s'.timers = (s.updateEntry e.id (beginRun now s.runs)).timers)
    (hentries : s'.entries = s.entries)
    (hexecutions : ∀ x ∈ s'.executions, x ∈ s.executions ∨ x = ⟨s.runs, e.id, e.task.name⟩) :
    RunsInv s' (h ++ [.started e.task.name s.runs]) := by
  have hnone := hI.idle he hidle
  have hone : (tally e.task.name (h ++ [.started e.task.name s.runs])).unreleased = [s.runs] := by
    rw [tally_snoc]
    unfold Tally.next
    dsimp only
    rw [if_pos rfl, hnone]
    rfl
  refine hI.mapped (g := fun e' => if e'.id = e.id then beginRun now s.runs e' else e')
    (fun e' => ?_) htimers hentries (fun name e' he' => ?_) (fun x hx => ?_) (fun name => ?_)
    (started_append hI.started fun before name run after hsplit => ?_)
  · split
    · exact ⟨rfl, rfl⟩
    · exact ⟨rfl, rfl⟩
  · rcases hI.other_entry he he' with ⟨rfl, rfl⟩ | ⟨hname, hid⟩
    · rw [if_pos rfl]
      exact .inr ⟨rfl, s.runs, rfl, hone⟩
    · rw [tally_of_other hname fun ev hev => .inl (List.mem_singleton.mp hev), if_neg hid]
      exact hI.flagged name e' he'
  · rcases hexecutions x hx with hold | rfl
    · exact .inl hold
    · exact .inr ⟨hI.known _ e he, fun name e' he' hid => hI.distinct _ _ e e' he he' hid.symm⟩
  · by_cases hname : e.task.name = name
    · rw [tally_snoc]
      exact (hI.fair name).started (hname ▸ hnone) _ _
    · rw [tally_of_other hname fun ev hev => .inl (List.mem_singleton.mp hev)]
      exact hI.fair name
  · cases before with
    | nil =>
      obtain ⟨heq, -⟩ := List.cons.inj hsplit
      obtain ⟨rfl, -⟩ := SchedulerEvent.started.inj heq
      rw [List.append_nil]
      exact hnone
    | cons ev before =>
      exact absurd (List.cons.inj hsplit).2 (List.append_ne_nil_of_right_ne_nil _
        (List.cons_ne_nil _ _)).symm

theorem RunsInv.tick (hI : RunsInv s h) {e : ActiveTimer}
    (he : s.timers.get? e.task.name = some e) (now : ℚ) (pressure : Pressure)
    (result : TaskResult) :
    RunsInv (s.tick e now pressure result).1 (h ++ (s.tick e now pressure result).2) := by
  unfold Scheduler.tick
  split
  · exact hI.same (fun _ e he => ⟨e, he, .rfl⟩) rfl rfl
  · next hrunning =>
    have hidle := Bool.eq_false_iff.mpr hrunning
    split
    · exact hI.same (fun _ e he => ⟨e, he, .rfl⟩) rfl rfl
    · cases result with
      | promised =>
        refine hI.begins now he hidle rfl rfl fun x hx => ?_
        exact (List.mem_append.mp hx).imp_right List.mem_singleton.mp
      | returned =>
        have hbegun : RunsInv ({ s with runs := s.runs + 1 }.updateEntry e.id (beginRun now s.runs))
            (h ++ [.started e.task.name s.runs]) :=
          hI.begins now he hidle rfl rfl fun _ hx => .inl hx
        have hentry : ({ s with runs := s.runs + 1 }.updateEntry e.id
            (beginRun now s.runs)).timers.get? e.task.name = some (beginRun now s.runs e) :=
          OrderedMap.get?_mapValues.mpr ⟨e, he, if_pos rfl⟩
        have hended := hbegun.ends e.id s.runs e.task.name
          (fun name e' he' hid => hbegun.distinct _ _ _ e' hentry he' hid.symm) (.inl ?_) rfl rfl
          fun _ hy => hy
        · rw [List.append_assoc] at hended
          exact hended
        · rw [tally_snoc]
          unfold Tally.next
          dsimp only
          rw [if_pos rfl]
          exact List.mem_append_right _ (List.mem_singleton_self _)

/-! ## Runs -/

theorem RunsInv.step {a : SchedulerAction} (hI : RunsInv s h) (hC : KeepsApart s h a)
    (hs : scheduler.step s a = some (s', es)) : RunsInv s' (h ++ es) := by
  cases a with
  | register task =>
    obtain ⟨rfl, rfl⟩ := Machine.some_pair hs
    exact hI.register hC
  | unregister name =>
    obtain ⟨rfl, rfl⟩ := Machine.some_pair hs
    exact hI.unregister name
  | start =>
    obtain ⟨rfl, rfl⟩ := Machine.some_pair hs
    exact hI.start
  | shutdown =>
    obtain ⟨rfl, rfl⟩ := Machine.some_pair hs
    exact hI.shutdown
  | transition next =>
    obtain ⟨rfl, rfl⟩ := Machine.some_pair hs
    exact hI.transition next
  | tick entry now pressure result =>
    unfold scheduler Scheduler.step at hs
    dsimp only at hs
    split at hs
    · next e hentry =>
      split at hs
      · cases hs
      · obtain ⟨rfl, rfl⟩ := Machine.some_pair hs
        exact hI.tick (hC e hentry) now pressure result
    · cases hs
  | finished run =>
    obtain ⟨x, hx, heq⟩ := Option.map_eq_some_iff.mp hs
    obtain ⟨rfl, rfl⟩ := Prod.mk.inj heq
    have hfound := List.find?_some hx
    have hrun : x.run = run := of_decide_eq_true hfound
    refine hI.finish (List.mem_of_find?_eq_some hx) ?_
    rw [hrun]
    exact hC x hx
  | watchdog now =>
    change (if s.watchdogTimer then some (s.watchdog now, s.releases now) else none) = _ at hs
    split at hs
    · obtain ⟨rfl, rfl⟩ := Machine.some_pair hs
      exact hI.watchdog now
    · cases hs

theorem runsInv_init : RunsInv {} [] where
  named _ _ he := by cases he
  distinct _ _ _ _ he := by cases he
  known _ _ he := by cases he
  flagged _ _ he := by cases he
  executions _ hx := by cases hx
  fair _ := ⟨Nat.zero_le 1, Nat.zero_le _⟩
  started _ _ _ _ hsplit :=
    absurd hsplit.symm (List.append_ne_nil_of_right_ne_nil _ (List.cons_ne_nil _ _))

/-- **No overlapping executions.** In every interleaving of ticks, ends of executions, watchdog
checks, registrations and the rest, an execution of a task starts only when those that are still
running have been released by the watchdog, and each release admits one, provided that a task is
registered only while none of its executions is running that was not released, that only
registered entries are ticked, and that no released execution ends while a later one is running
that was not released. -/
theorem overlapsReleased_of_reaches {s : Scheduler} {h : List SchedulerEvent}
    (hr : scheduler.Reaches KeepsApart s h) : OverlapsReleased h :=
  (hr.invariant (I := RunsInv) runsInv_init fun _ hI hC hs => hI.step hC hs).overlapsReleased

/-- An execution is stuck, the watchdog releases it, and another one begins and ends. -/
def releasedRun : List SchedulerAction :=
  [.register pollingTask, .start, .tick 0 1000 {} .promised, .watchdog 62000,
    .tick 0 63000 {} .promised, .finished 1]

theorem overlapsReleased_of_reaches_releasedRun :
    ∃ s, scheduler.runUnder KeepsApart scheduler.init [] releasedRun =
        some (s, [.started "poll" 0, .released "poll" 0, .started "poll" 1, .ended "poll" 1]) ∧
      OverlapsReleased
        [.started "poll" 0, .released "poll" 0, .started "poll" 1, .ended "poll" 1] := by
  have hrun : (scheduler.runUnder KeepsApart scheduler.init [] releasedRun).map Prod.snd =
      some [.started "poll" 0, .released "poll" 0, .started "poll" 1, .ended "poll" 1] := by
    decide +kernel
  obtain ⟨⟨s, h⟩, hsh, rfl⟩ := Option.map_eq_some_iff.mp hrun
  exact ⟨s, hsh, overlapsReleased_of_reaches (Machine.reaches_of_runUnder .init hsh)⟩

/-- A task is registered again while it runs. -/
def registeredAgain : List SchedulerAction :=
  [.register pollingTask, .start, .tick 0 1000 {} .promised, .register pollingTask,
    .tick 1 2000 {} .promised]

/-- A released execution ends while the next one runs. -/
def endsLate : List SchedulerAction :=
  [.register pollingTask, .start, .tick 0 1000 {} .promised, .watchdog 62000,
    .tick 0 63000 {} .promised, .finished 0, .tick 0 64000 {} .promised]

/-- An execution starts beside one that was not released: without any release, and on one
release of another. -/
theorem overlap_without_release :
    (∃ s h, scheduler.run registeredAgain = some (s, h) ∧
        h = [.started "poll" 0, .started "poll" 1] ∧ ¬ OverlapsReleased h) ∧
      ∃ s h, scheduler.run endsLate = some (s, h) ∧
        h = [.started "poll" 0, .released "poll" 0, .started "poll" 1, .ended "poll" 0,
          .started "poll" 2] ∧ ¬ OverlapsReleased h := by
  constructor
  · have hrun : (scheduler.run registeredAgain).map Prod.snd =
        some [.started "poll" 0, .started "poll" 1] := by
      decide +kernel
    obtain ⟨⟨s, h⟩, hsh, rfl⟩ := Option.map_eq_some_iff.mp hrun
    refine ⟨s, _, hsh, rfl, fun hall => ?_⟩
    have hclear := hall.started [.started "poll" 0] "poll" 1 [] rfl
    revert hclear
    decide
  · have hrun : (scheduler.run endsLate).map Prod.snd =
        some [.started "poll" 0, .released "poll" 0, .started "poll" 1, .ended "poll" 0,
          .started "poll" 2] := by
      decide +kernel
    obtain ⟨⟨s, h⟩, hsh, rfl⟩ := Option.map_eq_some_iff.mp hrun
    refine ⟨s, _, hsh, rfl, fun hall => ?_⟩
    have hclear := hall.started
      [.started "poll" 0, .released "poll" 0, .started "poll" 1, .ended "poll" 0] "poll" 2 [] rfl
    revert hclear
    decide

end Scheduler

end FlashEdge
