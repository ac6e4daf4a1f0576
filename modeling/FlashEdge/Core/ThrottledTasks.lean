import Mathlib.Tactic.Linarith
import FlashEdge.Core.Scheduler

/-!
# Whether tasks are armed for the current state

While the scheduler is started, a registered task should be ticked by one interval, its base
interval times the throttle of the current state, or by none if the throttle is 0. Registering and
hearing a change of the state see to that. Starting does not: it arms an entry with the interval
that was computed before, and a change in between was not heard, or, by a listener left over from
an earlier start, has armed the entry already.

- `AsThrottled`: every registered task is armed as it should be.
- `KeepsThrottle`: the condition on an action.
- `asThrottled_iff`: along a run the first holds exactly when every action meets the second.
-/

namespace FlashEdge

namespace Scheduler

/-- The intervals a task should have. -/
def throttled (state : RuntimeState) (task : ManagedTask) : List ℚ :=
  if THROTTLE_MAP state task.priority = 0 then []
  else [task.baseIntervalMs * THROTTLE_MAP state task.priority]

/-- While the scheduler is started, each registered task is armed as it should be. -/
def AsThrottled (s : Scheduler) : Prop :=
  s.started = true → ∀ name e, s.timers.get? name = some e → e.armed = throttled s.runtime e.task

/-- A task that is not suspended in a state has a positive base interval. -/
def Armable (state : RuntimeState) (task : ManagedTask) : Prop :=
  THROTTLE_MAP state task.priority = 0 ∨ 0 < task.baseIntervalMs

/-- An entry is ready to be started: it is not armed, and its interval is that of the state. -/
structure Ready (state : RuntimeState) (e : ActiveTimer) : Prop where
  unarmed : e.timer = none
  suspended : THROTTLE_MAP state e.task.priority = 0 → e.currentIntervalMs ≤ 0
  current : THROTTLE_MAP state e.task.priority ≠ 0 → 0 < e.task.baseIntervalMs ∧
    e.currentIntervalMs = e.task.baseIntervalMs * THROTTLE_MAP state e.task.priority

/-- The scheduler is started only when all entries are ready; while it is started, what is
registered and what a change wakes up has a positive base interval. -/
def KeepsThrottle (s : Scheduler) (_ : List SchedulerEvent) : SchedulerAction → Prop
  | .register task => s.started = true → Armable s.runtime task
  | .start => s.started = false → ∀ name e, s.timers.get? name = some e → Ready s.runtime e
  | .transition next => s.started = true → next ≠ s.runtime →
      ∀ name e, s.timers.get? name = some e → Armable next e.task
  | _ => True

/-! ## One entry -/

/-- No handle was overwritten, and the handle of an entry is for its positive interval. -/
structure Stored (e : ActiveTimer) : Prop where
  lost : e.lost = []
  timer : ∀ x, e.timer = some x → x = e.currentIntervalMs ∧ 0 < x

variable {e : ActiveTimer} {state : RuntimeState}

/-- Starting an entry without a handle. -/
theorem startTimer_of_unarmed (hlost : e.lost = []) (hnone : e.timer = none) :
    Stored e.startTimer ∧ e.startTimer.task = e.task ∧
      e.startTimer.armed = if e.currentIntervalMs ≤ 0 then [] else [e.currentIntervalMs] := by
  unfold ActiveTimer.startTimer
  split
  · refine ⟨⟨hlost, fun x hx => ?_⟩, rfl, ?_⟩
    · rw [hnone] at hx
      cases hx
    · unfold ActiveTimer.armed
      rw [hlost, hnone]
      rfl
  · next hpos =>
    refine ⟨⟨?_, fun x hx => ?_⟩, rfl, ?_⟩
    · show e.lost ++ e.timer.toList = []
      rw [hlost, hnone]
      rfl
    · obtain rfl := Option.some.inj hx
      exact ⟨rfl, not_le.mp hpos⟩
    · show [e.currentIntervalMs] ++ (e.lost ++ e.timer.toList) = _
      rw [hlost, hnone]
      rfl

theorem throttle_pos {task : ManagedTask} (h : THROTTLE_MAP state task.priority ≠ 0) :
    (0 : ℚ) < THROTTLE_MAP state task.priority := by
  exact_mod_cast Nat.pos_of_ne_zero h

/-- An entry that is started without a handle is armed as it should be exactly if its interval
is that of the state. -/
theorem startTimer_throttled_iff (hlost : e.lost = []) (hnone : e.timer = none) :
    e.startTimer.armed = throttled state e.task ↔ Ready state e := by
  rw [(startTimer_of_unarmed hlost hnone).2.2]
  unfold throttled
  by_cases hzero : THROTTLE_MAP state e.task.priority = 0
  · rw [if_pos hzero]
    constructor
    · intro harmed
      refine ⟨hnone, fun _ => ?_, fun h => absurd hzero h⟩
      by_contra hpos
      rw [if_neg hpos] at harmed
      cases harmed
    · intro hready
      rw [if_pos (hready.suspended hzero)]
  · rw [if_neg hzero]
    have hthrottle := throttle_pos hzero
    constructor
    · intro harmed
      refine ⟨hnone, fun h => absurd h hzero, fun _ => ?_⟩
      by_cases hpos : e.currentIntervalMs ≤ 0
      · rw [if_pos hpos] at harmed
        cases harmed
      · rw [if_neg hpos] at harmed
        have hcurrent := List.singleton_inj.mp harmed
        refine ⟨?_, hcurrent⟩
        rw [hcurrent, not_le] at hpos
        exact pos_of_mul_pos_left hpos hthrottle.le
    · intro hready
      obtain ⟨hbase, hcurrent⟩ := hready.current hzero
      have hpos : ¬ e.currentIntervalMs ≤ 0 := by
        rw [hcurrent, not_le]
        exact mul_pos hbase hthrottle
      rw [if_neg hpos, hcurrent]

/-- A task whose interval is computed in a state is ready for it exactly if it can be armed. -/
theorem ready_computed_iff (hnone : e.timer = none)
    (hcurrent : e.currentIntervalMs = computeInterval state e.task) :
    Ready state e ↔ Armable state e.task := by
  unfold computeInterval at hcurrent
  by_cases hzero : THROTTLE_MAP state e.task.priority = 0
  · rw [if_pos hzero] at hcurrent
    exact ⟨fun _ => .inl hzero, fun _ => ⟨hnone, fun _ => hcurrent.le, fun h => absurd hzero h⟩⟩
  · rw [if_neg hzero] at hcurrent
    constructor
    · exact fun hready => .inr (hready.current hzero).1
    · rintro (h | hbase)
      · exact absurd h hzero
      · exact ⟨hnone, fun h => absurd h hzero, fun _ => ⟨hbase, hcurrent⟩⟩

/-- An entry whose interval is computed anew and that is started again. -/
theorem restarted (hlost : e.lost = []) (hnone : e.timer = none)
    (hcurrent : e.currentIntervalMs = computeInterval state e.task) :
    Stored e.startTimer ∧ e.startTimer.task = e.task ∧
      (e.startTimer.armed = throttled state e.task ↔ Armable state e.task) := by
  obtain ⟨hstored, htask, -⟩ := startTimer_of_unarmed hlost hnone
  rw [startTimer_throttled_iff hlost hnone, ready_computed_iff hnone hcurrent]
  exact ⟨hstored, htask, Iff.rfl⟩

/-- A suspended task is armed as it should be exactly if it can be armed. -/
theorem suspended_iff (hinterval : computeInterval state e.task = 0) (hnone : e.timer = none)
    (hlost : e.lost = []) : e.armed = throttled state e.task ↔ Armable state e.task := by
  have harmed : e.armed = [] := by
    unfold ActiveTimer.armed
    rw [hnone, hlost]
    rfl
  rw [harmed]
  unfold computeInterval at hinterval
  unfold throttled Armable
  by_cases hzero : THROTTLE_MAP state e.task.priority = 0
  · rw [if_pos hzero]
    exact ⟨fun _ => .inl hzero, fun _ => rfl⟩
  · rw [if_neg hzero] at hinterval ⊢
    have hbase : e.task.baseIntervalMs = 0 := by
      rcases mul_eq_zero.mp hinterval with h | h
      · exact h
      · exact absurd h (throttle_pos hzero).ne'
    rw [hbase]
    exact ⟨fun h => (by cases h), fun h => absurd h (by simp [hzero])⟩

/-- A change of the state keeps an entry's handle for its interval. -/
theorem rebalanceEntry_stored (hstored : Stored e) (started : Bool) :
    Stored (rebalanceEntry state started e) ∧ (rebalanceEntry state started e).task = e.task := by
  unfold rebalanceEntry
  dsimp only
  split
  · exact ⟨⟨hstored.lost, fun x hx => (by cases hx)⟩, rfl⟩
  · split
    · next hresumes =>
      have hnone : e.timer = none := by
        have hboth := hresumes.2
        rw [Bool.and_eq_true] at hboth
        exact Option.isNone_iff_eq_none.mp hboth.1
      exact (restarted (e := { e with currentIntervalMs := computeInterval state e.task })
        hstored.lost hnone rfl).imp_right fun h => h.1
    · split
      · exact (restarted
          (e := { e.clearTimer with currentIntervalMs := computeInterval state e.task })
          hstored.lost rfl rfl).imp_right fun h => h.1
      · exact ⟨hstored, rfl⟩

/-- A change of the state arms an entry as it should be exactly if its task can be armed. -/
theorem rebalanceEntry_throttled_iff (hstored : Stored e) :
    (rebalanceEntry state true e).armed = throttled state e.task ↔ Armable state e.task := by
  unfold rebalanceEntry
  dsimp only
  split
  · next hsuspends =>
    exact suspended_iff (e := { e.clearTimer with currentIntervalMs := 0 }) hsuspends.1 rfl
      hstored.lost
  · next hstays =>
    split
    · next hresumes =>
      have hnone : e.timer = none := by
        have hboth := hresumes.2
        rw [Bool.and_eq_true] at hboth
        exact Option.isNone_iff_eq_none.mp hboth.1
      exact (restarted (e := { e with currentIntervalMs := computeInterval state e.task })
        hstored.lost hnone rfl).2.2
    · next hruns =>
      split
      · exact (restarted
          (e := { e.clearTimer with currentIntervalMs := computeInterval state e.task })
          hstored.lost rfl rfl).2.2
      · next hsame =>
        rw [Bool.and_true] at hstays hruns
        by_cases hinterval : computeInterval state e.task = 0
        · -- the task is suspended, and stays so
          have hnone : e.timer = none := by
            cases htimer : e.timer with
            | none => rfl
            | some x => exact absurd ⟨hinterval, by rw [htimer]; rfl⟩ hstays
          exact suspended_iff hinterval hnone hstored.lost
        · -- the handle is for the interval of the state already
          have hcurrent : computeInterval state e.task = e.currentIntervalMs := by
            by_contra hne
            exact hsame ⟨hinterval, hne⟩
          obtain ⟨x, hx⟩ : ∃ x, e.timer = some x := by
            cases htimer : e.timer with
            | none => exact absurd ⟨hinterval, by rw [htimer]; rfl⟩ hruns
            | some x => exact ⟨x, rfl⟩
          obtain ⟨rfl, hpos⟩ := hstored.timer x hx
          have hzero : THROTTLE_MAP state e.task.priority ≠ 0 := by
            intro hzero
            apply hinterval
            unfold computeInterval
            rw [if_pos hzero]
          have hbase : e.currentIntervalMs =
              e.task.baseIntervalMs * THROTTLE_MAP state e.task.priority := by
            rw [← hcurrent]
            unfold computeInterval
            rw [if_neg hzero]
          refine ⟨fun _ => .inr ?_, fun _ => ?_⟩
          · rw [hbase] at hpos
            exact pos_of_mul_pos_left hpos (throttle_pos hzero).le
          · unfold ActiveTimer.armed throttled
            rw [hx, hstored.lost, if_neg hzero, ← hbase]
            rfl

/-! ## The registered entries -/

/-- What holds of the registered entries and the listeners in every state. -/
structure TimersInv (s : Scheduler) : Prop where
  stored : ∀ name e, s.timers.get? name = some e → Stored e
  listening : s.started = true → 0 < s.listeners
  throttled : AsThrottled s

variable {s s' : Scheduler}

/-- What does not touch the intervals keeps them. -/
theorem TimersInv.same (hI : TimersInv s) (hstarted : s'.started = s.started)
    (hruntime : s'.runtime = s.runtime) (hlisteners : s'.listeners = s.listeners)
    (htimers : ∀ name e', s'.timers.get? name = some e' → ∃ e, s.timers.get? name = some e ∧
      e'.task = e.task ∧ e'.timer = e.timer ∧ e'.lost = e.lost ∧
      e'.currentIntervalMs = e.currentIntervalMs) : TimersInv s' := by
  refine ⟨fun name e' he' => ?_, ?_, fun hs name e' he' => ?_⟩
  · obtain ⟨e, he, -, htimer, hlost, hcurrent⟩ := htimers name e' he'
    obtain ⟨hno, hhandle⟩ := hI.stored name e he
    refine ⟨hlost.trans hno, fun x hx => ?_⟩
    rw [hcurrent]
    exact hhandle x (htimer.symm.trans hx)
  · rw [hstarted, hlisteners]
    exact hI.listening
  · obtain ⟨e, he, htask, htimer, hlost, -⟩ := htimers name e' he'
    rw [hstarted] at hs
    have harmed := hI.throttled hs name e he
    unfold ActiveTimer.armed at harmed ⊢
    rw [htimer, hlost, htask, hruntime]
    exact harmed

theorem unregister_same (s : Scheduler) (name : String) :
    (s.unregister name).started = s.started ∧ (s.unregister name).runtime = s.runtime ∧
      (s.unregister name).listeners = s.listeners ∧ (s.unregister name).entries = s.entries := by
  unfold unregister
  split
  · exact ⟨rfl, rfl, rfl, rfl⟩
  · exact ⟨rfl, rfl, rfl, rfl⟩

theorem get?_unregister {name name' : String} :
    (s.unregister name).timers.get? name' = some e ↔
      name' ≠ name ∧ s.timers.get? name' = some e := by
  unfold unregister
  split
  · exact OrderedMap.get?_delete_eq_some
  · next hnone =>
    constructor
    · intro he
      refine ⟨?_, he⟩
      rintro rfl
      rw [hnone] at he
      cases he
    · exact fun h => h.2

theorem TimersInv.unregister (hI : TimersInv s) (name : String) :
    TimersInv (s.unregister name) := by
  obtain ⟨hstarted, hruntime, hlisteners, -⟩ := unregister_same s name
  refine hI.same hstarted hruntime hlisteners fun name' e' he' => ?_
  exact ⟨e', (get?_unregister.mp he').2, rfl, rfl, rfl, rfl⟩

/-- The entry that a registration stores. -/
theorem get?_register {task : ManagedTask} {name : String} :
    (s.register task).timers.get? name = some e ↔
      (name = task.name ∧ (if s.started then (s.newEntry task).startTimer
          else s.newEntry task) = e) ∨
        (name ≠ task.name ∧ s.timers.get? name = some e) := by
  obtain ⟨hstarted, hruntime, -, hentries⟩ := unregister_same s task.name
  have hnew : (s.unregister task.name).newEntry task = s.newEntry task := by
    unfold newEntry
    rw [hruntime, hentries]
  unfold register
  dsimp only
  rw [OrderedMap.get?_set_eq_some, hstarted, hnew, get?_unregister]
  constructor
  · rintro (h | ⟨hne, -, he⟩)
    · exact .inl h
    · exact .inr ⟨hne, he⟩
  · rintro (h | ⟨hne, he⟩)
    · exact .inl h
    · exact .inr ⟨hne, hne, he⟩

theorem register_same (s : Scheduler) (task : ManagedTask) :
    (s.register task).started = s.started ∧ (s.register task).runtime = s.runtime ∧
      (s.register task).listeners = s.listeners := by
  obtain ⟨hstarted, hruntime, hlisteners, -⟩ := unregister_same s task.name
  exact ⟨hstarted, hruntime, hlisteners⟩

/-! ## Registering -/

theorem newEntry_started (s : Scheduler) (task : ManagedTask) :
    Stored (s.newEntry task).startTimer ∧ (s.newEntry task).startTimer.task = task ∧
      ((s.newEntry task).startTimer.armed = throttled s.runtime task ↔ Armable s.runtime task) :=
  restarted (e := s.newEntry task) rfl rfl rfl

theorem register_stored (hI : TimersInv s) (task : ManagedTask) :
    ∀ name e, (s.register task).timers.get? name = some e → Stored e := by
  intro name e he
  rcases get?_register.mp he with ⟨-, rfl⟩ | ⟨-, he⟩
  · split
    · exact (newEntry_started s task).1
    · exact ⟨rfl, fun x hx => (by cases hx)⟩
  · exact hI.stored name e he

theorem register_throttled_iff (hI : TimersInv s) (task : ManagedTask) :
    AsThrottled (s.register task) ↔ (s.started = true → Armable s.runtime task) := by
  obtain ⟨hstarted, hruntime, -⟩ := register_same s task
  unfold AsThrottled
  rw [hstarted, hruntime]
  constructor
  · intro hall hs
    have harmed := hall hs task.name _ (get?_register.mpr (.inl ⟨rfl, rfl⟩))
    rw [if_pos hs, (newEntry_started s task).2.1] at harmed
    exact (newEntry_started s task).2.2.mp harmed
  · intro hgood hs name e he
    rcases get?_register.mp he with ⟨-, rfl⟩ | ⟨-, he⟩
    · rw [if_pos hs, (newEntry_started s task).2.1]
      exact (newEntry_started s task).2.2.mpr (hgood hs)
    · exact hI.throttled hs name e he

/-! ## Starting -/

/-- Starting an entry arms it as it should be exactly if it is ready. -/
theorem stored_start_iff (hstored : Stored e) :
    e.startTimer.armed = throttled state e.task ↔ Ready state e := by
  cases htimer : e.timer with
  | none => exact startTimer_throttled_iff hstored.lost htimer
  | some x =>
    -- there would be two intervals
    obtain ⟨rfl, hpos⟩ := hstored.timer x htimer
    have htwo : e.startTimer.armed = [e.currentIntervalMs, e.currentIntervalMs] := by
      unfold ActiveTimer.startTimer
      rw [if_neg (not_le.mpr hpos), hstored.lost, htimer]
      rfl
    rw [htwo]
    constructor
    · intro harmed
      have hlength := congrArg List.length harmed
      unfold throttled at hlength
      split at hlength
      · simp at hlength
      · simp at hlength
    · intro hready
      have hnone := hready.unarmed
      rw [htimer] at hnone
      cases hnone

theorem start_throttled_iff (hI : TimersInv s) (hs : s.started = false) :
    AsThrottled s.start ↔ ∀ name e, s.timers.get? name = some e → Ready s.runtime e := by
  have hstart : s.start = { s with
      started := true
      listeners := s.listeners + 1
      watchdogTimer := true
      timers := s.timers.mapValues fun _ e => e.startTimer } := by
    unfold start
    rw [hs, if_neg Bool.false_ne_true]
  have htask : ∀ e : ActiveTimer, e.startTimer.task = e.task := by
    intro e
    unfold ActiveTimer.startTimer
    split
    · rfl
    · rfl
  rw [hstart]
  constructor
  · intro hall name e he
    refine (stored_start_iff (hI.stored name e he)).mp ?_
    have harmed := hall rfl name _ (OrderedMap.get?_mapValues.mpr ⟨e, he, rfl⟩)
    rw [htask] at harmed
    exact harmed
  · intro hready _ name e' he'
    obtain ⟨e, he, rfl⟩ := OrderedMap.get?_mapValues.mp he'
    rw [htask]
    exact (stored_start_iff (hI.stored name e he)).mpr (hready name e he)

theorem TimersInv.start (hI : TimersInv s)
    (hready : s.started = false → ∀ name e, s.timers.get? name = some e → Ready s.runtime e) :
    TimersInv s.start := by
  cases hs : s.started with
  | true =>
    have hsame : s.start = s := by
      unfold Scheduler.start
      rw [if_pos hs]
    rw [hsame]
    exact hI
  | false =>
    refine ⟨fun name e' he' => ?_, fun _ => ?_, (start_throttled_iff hI hs).mpr (hready hs)⟩
    · unfold Scheduler.start at he'
      rw [hs, if_neg Bool.false_ne_true] at he'
      obtain ⟨e, he, rfl⟩ := OrderedMap.get?_mapValues.mp he'
      exact (startTimer_of_unarmed (hI.stored name e he).lost (hready hs name e he).unarmed).1
    · unfold Scheduler.start
      rw [hs, if_neg Bool.false_ne_true]
      exact Nat.succ_pos _

/-! ## Changes of the state -/

theorem rebalance_iterate_same (s : Scheduler) (n : ℕ) :
    (rebalance^[n] s).started = s.started ∧ (rebalance^[n] s).runtime = s.runtime ∧
      (rebalance^[n] s).listeners = s.listeners := by
  induction n with
  | zero => exact ⟨rfl, rfl, rfl⟩
  | succ n ih =>
    rw [Function.iterate_succ_apply']
    exact ih

/-- The entries after some rebalancing, each with the entry it comes from. -/
theorem rebalance_iterate_stored (hstored : ∀ name e, s.timers.get? name = some e → Stored e)
    (n : ℕ) {name : String} {e' : ActiveTimer}
    (he' : (rebalance^[n] s).timers.get? name = some e') :
    Stored e' ∧ ∃ e, s.timers.get? name = some e ∧ e'.task = e.task := by
  induction n generalizing e' with
  | zero => exact ⟨hstored name e' he', e', he', rfl⟩
  | succ n ih =>
    rw [Function.iterate_succ_apply'] at he'
    obtain ⟨e, he, rfl⟩ := OrderedMap.get?_mapValues.mp he'
    obtain ⟨hkept, e₀, he₀, htask⟩ := ih he
    obtain ⟨hnext, hsame⟩ := rebalanceEntry_stored hkept (rebalance^[n] s).started
    exact ⟨hnext, e₀, he₀, hsame.trans htask⟩

/-- Rebalancing keeps every registration. -/
theorem rebalance_iterate_keeps (n : ℕ) {name : String} {e : ActiveTimer}
    (he : s.timers.get? name = some e) :
    ∃ e', (rebalance^[n] s).timers.get? name = some e' := by
  induction n with
  | zero => exact ⟨e, he⟩
  | succ n ih =>
    obtain ⟨e', he'⟩ := ih
    rw [Function.iterate_succ_apply']
    exact ⟨_, OrderedMap.get?_mapValues.mpr ⟨e', he', rfl⟩⟩

/-- Once rebalanced, the tasks of a started scheduler are armed as they should be exactly if
they can be armed. -/
theorem rebalanced_throttled_iff (hs : s.started = true) (hpos : 0 < s.listeners)
    (hstored : ∀ name e, s.timers.get? name = some e → Stored e) :
    AsThrottled (rebalance^[s.listeners] s) ↔
      ∀ name e, s.timers.get? name = some e → Armable s.runtime e.task := by
  obtain ⟨n, hn⟩ := Nat.exists_eq_succ_of_ne_zero hpos.ne'
  obtain ⟨hstarted, hruntime, -⟩ := rebalance_iterate_same s n
  rw [hn, Nat.succ_eq_add_one, Function.iterate_succ_apply']
  have hstep : ∀ name e, (rebalance^[n] s).timers.get? name = some e →
      ((rebalanceEntry s.runtime true e).armed = throttled s.runtime e.task ↔
        Armable s.runtime e.task) ∧ (rebalanceEntry s.runtime true e).task = e.task := by
    intro name e he
    obtain ⟨hkept, -⟩ := rebalance_iterate_stored hstored n he
    exact ⟨rebalanceEntry_throttled_iff hkept, (rebalanceEntry_stored hkept true).2⟩
  have hfun : rebalanceEntry (rebalance^[n] s).runtime (rebalance^[n] s).started =
      rebalanceEntry s.runtime true := by
    rw [hruntime, hstarted, hs]
  constructor
  · intro hall name e he
    obtain ⟨e', he'⟩ := rebalance_iterate_keeps n he
    obtain ⟨-, e₀, he₀, htask⟩ := rebalance_iterate_stored hstored n he'
    obtain rfl := Option.some.inj (he.symm.trans he₀)
    have harmed := hall (hstarted.trans hs) name _
      (OrderedMap.get?_mapValues.mpr ⟨e', he', rfl⟩)
    rw [hfun, (hstep name e' he').2] at harmed
    change _ = throttled (rebalance^[n] s).runtime _ at harmed
    rw [hruntime, (hstep name e' he').1, htask] at harmed
    exact harmed
  · intro hgood _ name e'' he''
    obtain ⟨e', he', rfl⟩ := OrderedMap.get?_mapValues.mp he''
    obtain ⟨-, e, he, htask⟩ := rebalance_iterate_stored hstored n he'
    rw [hfun, (hstep name e' he').2]
    show _ = throttled (rebalance^[n] s).runtime _
    rw [hruntime, (hstep name e' he').1, htask]
    exact hgood name e he

/-- A transition that nobody needs to hear, or that the scheduler does not hear while it is
stopped, or that it hears. -/
theorem TimersInv.transition (hI : TimersInv s) (next : RuntimeState) :
    (AsThrottled (s.transition next) ↔ (s.started = true → next ≠ s.runtime →
        ∀ name e, s.timers.get? name = some e → Armable next e.task)) ∧
      (AsThrottled (s.transition next) → TimersInv (s.transition next)) := by
  unfold Scheduler.transition
  by_cases hsame : next = s.runtime
  · rw [if_pos hsame]
    exact ⟨⟨fun _ _ hne => absurd hsame hne, fun _ => hI.throttled⟩, fun _ => hI⟩
  · rw [if_neg hsame]
    have hstored : ∀ name e, ({ s with runtime := next } : Scheduler).timers.get? name = some e →
        Stored e := hI.stored
    obtain ⟨hstarted, -, hlisteners⟩ :=
      rebalance_iterate_same { s with runtime := next } s.listeners
    refine ⟨?_, fun hthrottled => ⟨fun name e he =>
      (rebalance_iterate_stored hstored s.listeners he).1, fun hs => ?_, hthrottled⟩⟩
    · by_cases hs : s.started = true
      · have hiff := rebalanced_throttled_iff (s := { s with runtime := next }) hs
          (hI.listening hs) hstored
        exact hiff.trans ⟨fun h _ _ => h, fun h => h hs hsame⟩
      · exact ⟨fun _ h => absurd h hs, fun _ h => absurd (hstarted.symm.trans h) hs⟩
    · rw [hlisteners]
      rw [hstarted] at hs
      exact hI.listening hs

/-! ## Executions -/

theorem TimersInv.updateEntry (hI : TimersInv s) (id : ℕ) {f : ActiveTimer → ActiveTimer}
    (hf : ∀ e, (f e).task = e.task ∧ (f e).timer = e.timer ∧ (f e).lost = e.lost ∧
      (f e).currentIntervalMs = e.currentIntervalMs) : TimersInv (s.updateEntry id f) := by
  refine hI.same rfl rfl rfl fun name e' he' => ?_
  obtain ⟨e, he, rfl⟩ := OrderedMap.get?_mapValues.mp he'
  refine ⟨e, he, ?_⟩
  split
  · exact hf e
  · exact ⟨rfl, rfl, rfl, rfl⟩

/-- What the other fields are does not matter. -/
theorem TimersInv.others (hI : TimersInv s) (htimers : s'.timers = s.timers)
    (hstarted : s'.started = s.started) (hruntime : s'.runtime = s.runtime)
    (hlisteners : s'.listeners = s.listeners) : TimersInv s' := by
  refine hI.same hstarted hruntime hlisteners fun name e he => ?_
  rw [htimers] at he
  exact ⟨e, he, rfl, rfl, rfl, rfl⟩

theorem TimersInv.tick (hI : TimersInv s) (e : ActiveTimer) (now : ℚ) (pressure : Pressure)
    (result : TaskResult) : TimersInv (s.tick e now pressure result).1 := by
  have hruns : TimersInv { s with runs := s.runs + 1 } := hI.others rfl rfl rfl rfl
  have hbegun := hruns.updateEntry e.id (f := beginRun now s.runs) fun _ => ⟨rfl, rfl, rfl, rfl⟩
  unfold Scheduler.tick
  split
  · exact hI
  · split
    · exact hI.others rfl rfl rfl rfl
    · cases result with
      | returned => exact hbegun.updateEntry e.id fun _ => ⟨rfl, rfl, rfl, rfl⟩
      | promised => exact hbegun.others rfl rfl rfl rfl

theorem TimersInv.finish (hI : TimersInv s) (x : Execution) : TimersInv (s.finish x) := by
  have hfewer : TimersInv { s with executions := s.executions.filter fun y => y.run ≠ x.run } :=
    hI.others rfl rfl rfl rfl
  exact hfewer.updateEntry x.entry fun _ => ⟨rfl, rfl, rfl, rfl⟩

theorem TimersInv.watchdog (hI : TimersInv s) (now : ℚ) : TimersInv (s.watchdog now) := by
  refine hI.same rfl rfl rfl fun name e' he' => ?_
  obtain ⟨e, he, rfl⟩ := OrderedMap.get?_mapValues.mp he'
  refine ⟨e, he, ?_⟩
  split
  · exact ⟨rfl, rfl, rfl, rfl⟩
  · exact ⟨rfl, rfl, rfl, rfl⟩

theorem TimersInv.shutdown (s : Scheduler) : TimersInv s.shutdown :=
  ⟨fun _ _ he => (by cases he), fun hs => (by cases hs), fun hs => (by cases hs)⟩

/-! ## Runs -/

theorem TimersInv.step {a : SchedulerAction} {h es : List SchedulerEvent} (hI : TimersInv s)
    (hs : scheduler.step s a = some (s', es)) :
    (KeepsThrottle s h a ∧ TimersInv s') ∨ (¬ KeepsThrottle s h a ∧ ¬ AsThrottled s') := by
  cases a with
  | register task =>
    obtain ⟨rfl, rfl⟩ := Machine.some_pair hs
    obtain ⟨hstarted, -, hlisteners⟩ := register_same s task
    have hiff := register_throttled_iff hI task
    by_cases hgood : s.started = true → Armable s.runtime task
    · refine .inl ⟨hgood, register_stored hI task, ?_, hiff.mpr hgood⟩
      rw [hstarted, hlisteners]
      exact hI.listening
    · exact .inr ⟨hgood, fun h => hgood (hiff.mp h)⟩
  | unregister name =>
    obtain ⟨rfl, rfl⟩ := Machine.some_pair hs
    exact .inl ⟨trivial, hI.unregister name⟩
  | start =>
    obtain ⟨rfl, rfl⟩ := Machine.some_pair hs
    by_cases hready : KeepsThrottle s h .start
    · exact .inl ⟨hready, hI.start hready⟩
    · refine .inr ⟨hready, fun hthrottled => hready fun hs => ?_⟩
      exact (start_throttled_iff hI hs).mp hthrottled
  | shutdown =>
    obtain ⟨rfl, rfl⟩ := Machine.some_pair hs
    exact .inl ⟨trivial, .shutdown s⟩
  | transition next =>
    obtain ⟨rfl, rfl⟩ := Machine.some_pair hs
    obtain ⟨hiff, hkept⟩ := hI.transition next
    by_cases hgood : KeepsThrottle s h (.transition next)
    · exact .inl ⟨hgood, hkept (hiff.mpr hgood)⟩
    · exact .inr ⟨hgood, fun hthrottled => hgood (hiff.mp hthrottled)⟩
  | tick entry now pressure result =>
    unfold scheduler Scheduler.step at hs
    dsimp only at hs
    split at hs
    · next e _ =>
      split at hs
      · cases hs
      · obtain ⟨rfl, rfl⟩ := Machine.some_pair hs
        exact .inl ⟨trivial, hI.tick e now pressure result⟩
    · cases hs
  | finished run =>
    obtain ⟨x, -, heq⟩ := Option.map_eq_some_iff.mp hs
    obtain ⟨rfl, rfl⟩ := Prod.mk.inj heq
    exact .inl ⟨trivial, hI.finish x⟩
  | watchdog now =>
    change (if s.watchdogTimer then some (s.watchdog now, s.releases now) else none) = _ at hs
    split at hs
    · obtain ⟨rfl, rfl⟩ := Machine.some_pair hs
      exact .inl ⟨trivial, hI.watchdog now⟩
    · cases hs

/-- **The intervals of the tasks.** Along every order of registrations, starts, stops, changes of
the runtime state and executions, each registered task is armed by its base interval times the
throttle of the current state while the scheduler is started, or not at all when that is 0,
exactly when every start finds entries that are not armed and whose interval is that of the
current state, and what is registered or woken up while it is started has a positive base
interval. -/
theorem asThrottled_iff (as : List SchedulerAction) :
    scheduler.Always (fun s _ => AsThrottled s) scheduler.init [] as ↔
      scheduler.Along KeepsThrottle scheduler.init [] as :=
  Machine.always_iff_along_of_step (I := fun s _ => TimersInv s) (fun hI => hI.throttled)
    (fun hI hs => hI.step hs)
    ⟨fun _ _ he => (by cases he), fun hs => (by cases hs), fun hs => (by cases hs)⟩ as

/-- A polling task of normal priority, every second. -/
def pollingTask : ManagedTask := { name := "poll", baseIntervalMs := 1000, priority := .NORMAL }

/-- A task that is registered before the state becomes idle, and started after it, is polled
five times too often for as long as the state lasts. -/
theorem stale_interval :
    ∃ s h, scheduler.run [.register pollingTask, .transition .IDLE, .start] = some (s, h) ∧
      (s.timers.get? "poll").map ActiveTimer.armed = some [1000] ∧
      throttled s.runtime pollingTask = [5000] ∧ ¬ AsThrottled s := by
  have hrun : (scheduler.run [.register pollingTask, .transition .IDLE, .start]).map (fun r =>
      (r.1.started, r.1.runtime, (r.1.timers.get? "poll").map fun e => (e.armed, e.task))) =
      some (true, .IDLE, some ([1000], pollingTask)) := by
    decide +kernel
  obtain ⟨⟨s, h⟩, hsh, hparts⟩ := Option.map_eq_some_iff.mp hrun
  obtain ⟨hstarted, hrest⟩ := Prod.mk.inj hparts
  obtain ⟨hruntime, hentry⟩ := Prod.mk.inj hrest
  dsimp only at hstarted hruntime hentry
  obtain ⟨e, he, hboth⟩ := Option.map_eq_some_iff.mp hentry
  obtain ⟨harmed, htask⟩ := Prod.mk.inj hboth
  have hfive : throttled .IDLE pollingTask = [5000] := by decide +kernel
  refine ⟨s, h, hsh, ?_, ?_, fun hthrottled => ?_⟩
  · rw [he]
    exact congrArg some harmed
  · rw [hruntime]
    exact hfive
  · have hright := hthrottled hstarted "poll" e he
    rw [harmed, htask, hruntime, hfive] at hright
    exact absurd hright (by decide +kernel)

end Scheduler

end FlashEdge
