import Mathlib.Data.Rat.Defs
import Mathlib.Algebra.Order.Field.Rat
import FlashEdge.Theory.Machine
import FlashEdge.Theory.OrderedMap

/-!
# The central scheduler (`core/scheduler.ts`, `core/runtime-state.ts`)

Every background task is registered here with a base interval and a priority, and the runtime
state decides by which factor its interval is stretched, or that it is suspended. The interval
is computed when the task is registered and at every change of the state; starting arms what is
registered with the interval it has.

An entry outlives its registration: its executions go on, and so does an interval whose handle
has been overwritten (`lost`). Such entries are kept in `detached`. Entries and executions are
numbered, which the code does not do.

The runtime state machine exists before the scheduler is started, as in the terminal; each of
its six transitions occurs there, by activity, idleness, a failure or a recovery. A task that
registers or unregisters tasks while it runs is left out, and so are the log and the diagnostics.
-/

namespace FlashEdge

/-! ## The runtime state -/

inductive RuntimeState where
  | ACTIVE
  | IDLE
  | DEGRADED
deriving DecidableEq, Repr

inductive TaskPriority where
  | CRITICAL
  | NORMAL
  | LOW
deriving DecidableEq, Repr

/-- Multipliers for polling intervals; 0 is suspended. -/
def THROTTLE_MAP : RuntimeState → TaskPriority → ℕ
  | .ACTIVE, _ => 1
  | .IDLE, .CRITICAL => 1
  | .IDLE, .NORMAL => 5
  | .IDLE, .LOW => 0
  | .DEGRADED, .CRITICAL => 1
  | .DEGRADED, .NORMAL => 2
  | .DEGRADED, .LOW => 5

/-! ## Tasks -/

structure ManagedTask where
  name : String
  baseIntervalMs : ℚ
  priority : TaskPriority
deriving DecidableEq, Repr

/-- An entry: `timer` is the interval of its handle, `lost` those whose handles were
overwritten while they ran, `lastRun` the number of its last execution. -/
structure ActiveTimer where
  id : ℕ
  task : ManagedTask
  timer : Option ℚ := none
  lost : List ℚ := []
  currentIntervalMs : ℚ
  lastRunAt : ℚ := 0
  lastRun : Option ℕ := none
  running : Bool := false
deriving DecidableEq, Repr

def computeInterval (state : RuntimeState) (task : ManagedTask) : ℚ :=
  if THROTTLE_MAP state task.priority = 0 then 0
  else task.baseIntervalMs * THROTTLE_MAP state task.priority

namespace ActiveTimer

/-- Every interval that ticks an entry. -/
def armed (e : ActiveTimer) : List ℚ := e.timer.toList ++ e.lost

/-- A new interval; the handle of an old one is overwritten. -/
def startTimer (e : ActiveTimer) : ActiveTimer :=
  if e.currentIntervalMs ≤ 0 then e
  else { e with timer := some e.currentIntervalMs, lost := e.lost ++ e.timer.toList }

/-- `clearInterval`, and no handle any more. -/
def clearTimer (e : ActiveTimer) : ActiveTimer := { e with timer := none }

end ActiveTimer

/-- An execution that has not ended. -/
structure Execution where
  run : ℕ
  entry : ℕ
  name : String
deriving DecidableEq, Repr

structure Scheduler where
  timers : OrderedMap String ActiveTimer := .empty
  detached : List ActiveTimer := []
  started : Bool := false
  droppedTicks : ℕ := 0
  watchdogTimer : Bool := false
  runtime : RuntimeState := .ACTIVE
  listeners : ℕ := 0
  executions : List Execution := []
  entries : ℕ := 0
  runs : ℕ := 0
deriving DecidableEq

/-- How the function of a task ends its call: it returns or throws, or returns a promise. -/
inductive TaskResult where
  | returned
  | promised
deriving DecidableEq, Repr

/-- What a tick reads of the process. -/
structure Pressure where
  lagMs : ℚ := 0
  memoryPressure : Bool := false
  memoryCritical : Bool := false
deriving DecidableEq, Repr

inductive SchedulerAction where
  | register (task : ManagedTask)
  | unregister (name : String)
  | start
  | shutdown
  | transition (next : RuntimeState)
  | tick (entry : ℕ) (now : ℚ) (pressure : Pressure) (result : TaskResult)
  | finished (run : ℕ)
  | watchdog (now : ℚ)
deriving DecidableEq, Repr

/-- An execution starts or ends, or the watchdog releases it. -/
inductive SchedulerEvent where
  | started (name : String) (run : ℕ)
  | ended (name : String) (run : ℕ)
  | released (name : String) (run : ℕ)
deriving DecidableEq, Repr

namespace Scheduler

def EMERGENCY_LAG_MS : ℚ := 5000
def THROTTLE_LAG_MS : ℚ := 2000
def WATCHDOG_STUCK_THRESHOLD_MS : ℚ := 60000

/-! ## Registration -/

/-- Remove a managed task and clear its timer. -/
def unregister (s : Scheduler) (name : String) : Scheduler :=
  match s.timers.get? name with
  | some e =>
    { s with timers := s.timers.delete name, detached := s.detached ++ [e.clearTimer] }
  | none => s

/-- The entry of a task that is registered now. -/
def newEntry (s : Scheduler) (task : ManagedTask) : ActiveTimer :=
  { id := s.entries, task, currentIntervalMs := computeInterval s.runtime task }

/-- Register a managed task. Starts immediately if the scheduler is running. -/
def register (s : Scheduler) (task : ManagedTask) : Scheduler :=
  let s := s.unregister task.name
  let entry := if s.started then (s.newEntry task).startTimer else s.newEntry task
  { s with timers := s.timers.set task.name entry, entries := s.entries + 1 }

/-- Start all registered timers, and listen for changes of the state. -/
def start (s : Scheduler) : Scheduler :=
  if s.started then s
  else
    { s with
      started := true
      listeners := s.listeners + 1
      watchdogTimer := true
      timers := s.timers.mapValues fun _ e => e.startTimer }

/-- Stop all timers. -/
def shutdown (s : Scheduler) : Scheduler :=
  { s with
    started := false
    watchdogTimer := false
    timers := .empty
    detached := s.detached ++ s.timers.entries.map fun p => p.2.clearTimer }

/-! ## Changes of the runtime state -/

/-- One entry at a change of the state. -/
def rebalanceEntry (state : RuntimeState) (started : Bool) (e : ActiveTimer) : ActiveTimer :=
  let newInterval := computeInterval state e.task
  let wasSuspended := e.timer.isNone && started
  if newInterval = 0 ∧ wasSuspended = false then { e.clearTimer with currentIntervalMs := 0 }
  else if newInterval ≠ 0 ∧ wasSuspended = true then
    { e with currentIntervalMs := newInterval }.startTimer
  else if newInterval ≠ 0 ∧ newInterval ≠ e.currentIntervalMs then
    { e.clearTimer with currentIntervalMs := newInterval }.startTimer
  else e

/-- Recompute all intervals and restart timers that changed. -/
def rebalance (s : Scheduler) : Scheduler :=
  { s with timers := s.timers.mapValues fun _ e => rebalanceEntry s.runtime s.started e }

/-- A transition of the runtime state, which every listener hears. -/
def transition (s : Scheduler) (next : RuntimeState) : Scheduler :=
  if next = s.runtime then s else rebalance^[s.listeners] { s with runtime := next }

/-! ## Executions -/

/-- The entry with a number, registered or not. -/
def entryOf (s : Scheduler) (id : ℕ) : Option ActiveTimer :=
  (s.timers.entries.map Prod.snd ++ s.detached).find? fun e => e.id = id

/-- Write to the entry with a number. -/
def updateEntry (s : Scheduler) (id : ℕ) (f : ActiveTimer → ActiveTimer) : Scheduler :=
  { s with
    timers := s.timers.mapValues fun _ e => if e.id = id then f e else e
    detached := s.detached.map fun e => if e.id = id then f e else e }

/-- Backpressure: under an emergency only critical tasks run, under a warning low ones do not. -/
def dropsTick (pressure : Pressure) (priority : TaskPriority) : Bool :=
  if EMERGENCY_LAG_MS < pressure.lagMs ∨ pressure.memoryCritical = true then
    decide (priority ≠ .CRITICAL)
  else
    decide (THROTTLE_LAG_MS < pressure.lagMs ∨ pressure.memoryPressure = true) &&
      decide (priority = .LOW)

/-- The execution begins: the entry is running, with the time and the number of this run. -/
def beginRun (now : ℚ) (run : ℕ) (e : ActiveTimer) : ActiveTimer :=
  { e with running := true, lastRunAt := now, lastRun := some run }

/-- The execution has ended, or was released. -/
def clearRunning (e : ActiveTimer) : ActiveTimer := { e with running := false }

/-- A tick of an entry. -/
def tick (s : Scheduler) (e : ActiveTimer) (now : ℚ) (pressure : Pressure) (result : TaskResult) :
    Scheduler × List SchedulerEvent :=
  if e.running then (s, [])
  else if dropsTick pressure e.task.priority then
    ({ s with droppedTicks := s.droppedTicks + 1 }, [])
  else
    let run := s.runs
    let s := { s with runs := run + 1 }.updateEntry e.id (beginRun now run)
    match result with
    | .returned =>
      (s.updateEntry e.id clearRunning, [.started e.task.name run, .ended e.task.name run])
    | .promised =>
      ({ s with executions := s.executions ++ [⟨run, e.id, e.task.name⟩] },
        [.started e.task.name run])

/-- The promise of an execution is settled, and its entry is written to. -/
def finish (s : Scheduler) (x : Execution) : Scheduler :=
  { s with executions := s.executions.filter fun y => y.run ≠ x.run }.updateEntry x.entry
    clearRunning

/-- The watchdog takes an entry for stuck. -/
def stuck (now : ℚ) (e : ActiveTimer) : Bool :=
  e.running && decide (0 < e.lastRunAt) && decide (WATCHDOG_STUCK_THRESHOLD_MS < now - e.lastRunAt)

/-- The executions that the watchdog releases. -/
def releases (s : Scheduler) (now : ℚ) : List SchedulerEvent :=
  s.timers.entries.filterMap fun p =>
    if stuck now p.2 then p.2.lastRun.map fun run => .released p.2.task.name run else none

/-- Detect stuck tasks, and unblock their future ticks. -/
def watchdog (s : Scheduler) (now : ℚ) : Scheduler :=
  { s with timers := s.timers.mapValues fun _ e => if stuck now e then clearRunning e else e }

/-! ## Steps -/

def step (s : Scheduler) : SchedulerAction → Option (Scheduler × List SchedulerEvent)
  | .register task => some (s.register task, [])
  | .unregister name => some (s.unregister name, [])
  | .start => some (s.start, [])
  | .shutdown => some (s.shutdown, [])
  | .transition next => some (s.transition next, [])
  | .tick entry now pressure result =>
    match s.entryOf entry with
    | some e => if e.armed = [] then none else some (s.tick e now pressure result)
    | none => none
  | .finished run =>
    (s.executions.find? fun x => x.run = run).map fun x => (s.finish x, [.ended x.name x.run])
  | .watchdog now => if s.watchdogTimer then some (s.watchdog now, s.releases now) else none

end Scheduler

/-- The scheduler with what it runs, from its creation on. -/
def scheduler : Machine Scheduler SchedulerAction SchedulerEvent where
  init := {}
  step := Scheduler.step

end FlashEdge
