import FlashEdge.Theory.Machine

/-!
# A trade that has timed out goes on

The handler awaits at most one promise, so one trade is in execution at a time, and what is
reported to have failed is over (`OneTrade`), as long as every trade settles before its
timeout. A timeout settles the wrapper only: the handler returns, the next command may start
another trade beside the one that goes on, and that one may still submit its transaction.
`oneTrade_iff` says that this happens with the first trade that times out.
-/

namespace FlashEdge

/-!
## Commands and the promises they await (`cli/terminal.ts`)

A command is processed by one handler, and `processing` keeps another line from starting a
second one. The handler awaits three kinds of promises: a tool that is dispatched, the action
of its result once that is confirmed, and a tool of the magic dispatcher. The first two are
wrapped in `withTimeout`: the wrapper settles with the promise or after two minutes,
whichever comes first, and in the second case the promise goes on.

A `ToolRun` is such a promise; it is a trade if it can submit a transaction. The machine has
the runs that have not settled, whether or not they are awaited.
-/

/-- A promise that has not settled. -/
structure ToolRun where
  id : ℕ
  trade : Bool
deriving DecidableEq, Repr

namespace CommandRuns

/-- How the result of a dispatch is shown: with a prompt, by an agent, as JSON. -/
inductive OutputOf where
  | human
  | agent
  | json
deriving DecidableEq, Repr

/-- What the handler does: it waits for no promise of these; for a tool; for a tool of the
magic dispatcher; for the answer to the prompt of an action, which may be a trade; for the
action. -/
inductive Phase where
  | idle
  | preparing (output : OutputOf)
  | dispatching (output : OutputOf) (run : ℕ)
  | magic (run : ℕ)
  | confirming (trade : Bool)
  | executing (run : ℕ)
deriving DecidableEq, Repr

/-- A promise is rejected, or resolves to a result, which may hold an action to confirm. -/
inductive Outcome where
  | threw
  | result (success : Bool) (executeAction : Option Bool)
deriving DecidableEq, Repr

inductive CommandAction where
  | line (output : OutputOf)
  | returns
  | dispatches (trade : Bool)
  | executesTool (trade : Bool)
  | answered (yes walletRebuilding : Bool)
  | submits (run : ℕ)
  | settles (run : ℕ) (outcome : Outcome)
  | timesOut
deriving DecidableEq, Repr

/-- A run starts, submits a transaction, or is reported to have failed or timed out. -/
inductive CommandEvent where
  | started (run : ToolRun)
  | submitted (run : ℕ)
  | reported (run : ℕ)
deriving DecidableEq, Repr

end CommandRuns

open CommandRuns

structure CommandRuns where
  phase : Phase := .idle
  runs : ℕ := 0
  unsettled : List ToolRun := []
deriving DecidableEq, Repr

namespace CommandRuns

/-- The run that the handler awaits. -/
def Phase.awaited : Phase → Option ℕ
  | .dispatching _ run => some run
  | .magic run => some run
  | .executing run => some run
  | _ => none

/-- The run that it awaits through `withTimeout`. -/
def Phase.timed : Phase → Option ℕ
  | .dispatching _ run => some run
  | .executing run => some run
  | _ => none

/-- `this.processing`. -/
def processing (s : CommandRuns) : Bool := decide (s.phase ≠ .idle)

/-- A promise is created, and awaited. -/
def start (s : CommandRuns) (trade : Bool) (phase : ℕ → Phase) :
    CommandRuns × List CommandEvent :=
  let run : ToolRun := ⟨s.runs, trade⟩
  ({ phase := phase s.runs, runs := s.runs + 1, unsettled := run :: s.unsettled },
    [.started run])

/-- A failure is reported, and the handler returns. -/
def fail (s : CommandRuns) (run : ℕ) : CommandRuns × List CommandEvent :=
  ({ s with phase := .idle }, [.reported run])

/-- The handler returns after a result, whose indicator or message says if it has failed. -/
def finish (s : CommandRuns) (run : ℕ) (success : Bool) : CommandRuns × List CommandEvent :=
  if success then ({ s with phase := .idle }, []) else s.fail run

/-- What the handler does with the result of a dispatch. -/
def dispatched (s : CommandRuns) (run : ℕ) (success : Bool) :
    OutputOf → Option Bool → CommandRuns × List CommandEvent
  | .human, some trade => ({ s with phase := .confirming trade }, [])
  -- an agent is never prompted
  | .agent, some trade => s.start trade .executing
  | _, _ => s.finish run success

/-- A promise has settled, and the handler, if it awaits it, goes on. -/
def settled (s : CommandRuns) (run : ℕ) (outcome : Outcome) : CommandRuns × List CommandEvent :=
  let awaited := s.phase.awaited
  let s := { s with unsettled := s.unsettled.filter fun r => decide (r.id ≠ run) }
  if awaited = some run then
    match outcome with
    | .threw => s.fail run
    | .result success executeAction =>
      match s.phase with
      | .dispatching output _ => s.dispatched run success output executeAction
      | _ => s.finish run success
  else (s, [])

def step (s : CommandRuns) : CommandAction → Option (CommandRuns × List CommandEvent)
  | .line output =>
    -- while a command is being processed the line is only buffered
    if s.processing then some (s, []) else some ({ s with phase := .preparing output }, [])
  | .returns =>
    match s.phase with
    | .preparing _ => some ({ s with phase := .idle }, [])
    | _ => none
  | .dispatches trade =>
    match s.phase with
    | .preparing output => some (s.start trade (.dispatching output))
    | _ => none
  | .executesTool trade =>
    match s.phase with
    | .preparing _ => some (s.start trade .magic)
    | _ => none
  | .answered yes walletRebuilding =>
    match s.phase with
    | .confirming trade =>
      if yes && !walletRebuilding then some (s.start trade .executing)
      else some ({ s with phase := .idle }, [])
    | _ => none
  | .submits run =>
    if s.unsettled.any fun r => decide (r.id = run) && r.trade then some (s, [.submitted run])
    else none
  | .settles run outcome =>
    if s.unsettled.any fun r => decide (r.id = run) then some (s.settled run outcome) else none
  | .timesOut =>
    -- the timer rejects the wrapper; the promise goes on
    s.phase.timed.map s.fail

end CommandRuns

/-- A session, before its first line. -/
def commandRuns : Machine CommandRuns CommandAction CommandEvent where
  init := {}
  step := CommandRuns.step

namespace CommandRuns

/-! ## The property -/

/-- At most one trade is in execution; and whatever follows, a run that has been reported to
have failed or timed out submits nothing. -/
structure OneTrade (s : CommandRuns) (h : List CommandEvent) : Prop where
  one : (s.unsettled.filter ToolRun.trade).length ≤ 1
  ended : ∀ run, .reported run ∈ h → ∀ as s' later,
    commandRuns.runFrom s [] as = some (s', later) → .submitted run ∉ later

/-! ## The condition -/

/-- No timeout is that of a trade that has not settled. -/
def TradeSettles (s : CommandRuns) (_ : List CommandEvent) (a : CommandAction) : Prop :=
  a = .timesOut → ∀ run ∈ s.unsettled, s.phase.timed = some run.id → run.trade = false

/-! ## What a step does -/

/-- The runs other than one. -/
def others (runs : List ToolRun) (run : ℕ) : List ToolRun :=
  runs.filter fun r => decide (r.id ≠ run)

theorem mem_others {runs : List ToolRun} {r : ToolRun} {run : ℕ} :
    r ∈ others runs run ↔ r ∈ runs ∧ r.id ≠ run := by
  unfold others
  rw [List.mem_filter, decide_eq_true_iff]

/-- The shapes of a step: nothing is awaited, before and after; the state stays as it is,
perhaps since a trade submits its transaction; a run starts when none is awaited; a run
settles, which was awaited, and then an agent may start the action of its result, or was
not; a timeout. -/
inductive Stepped (s : CommandRuns) : CommandAction → CommandRuns → List CommandEvent → Prop where
  | waits {a : CommandAction} (phase : Phase) (before : s.phase.awaited = none)
      (after : phase.awaited = none) : Stepped s a { s with phase } []
  | stays {a : CommandAction} : Stepped s a s []
  | submits {run : ℕ} (trade : ⟨run, true⟩ ∈ s.unsettled) :
      Stepped s (.submits run) s [.submitted run]
  | starts {a : CommandAction} (trade : Bool) (phase : Phase) (before : s.phase.awaited = none)
      (after : phase.awaited = some s.runs) :
      Stepped s a ⟨phase, s.runs + 1, ⟨s.runs, trade⟩ :: s.unsettled⟩ [.started ⟨s.runs, trade⟩]
  | settles {run : ℕ} {outcome : Outcome} {es : List CommandEvent} (phase : Phase)
      (before : s.phase.awaited = some run) (after : phase.awaited = none)
      (events : es = [] ∨ es = [.reported run]) :
      Stepped s (.settles run outcome) ⟨phase, s.runs, others s.unsettled run⟩ es
  | settlesAndStarts {run : ℕ} {outcome : Outcome} (trade : Bool) (phase : Phase)
      (before : s.phase.awaited = some run) (after : phase.awaited = some s.runs) :
      Stepped s (.settles run outcome)
        ⟨phase, s.runs + 1, ⟨s.runs, trade⟩ :: others s.unsettled run⟩ [.started ⟨s.runs, trade⟩]
  | settlesLate {run : ℕ} {outcome : Outcome} (before : s.phase.awaited ≠ some run) :
      Stepped s (.settles run outcome) { s with unsettled := others s.unsettled run } []
  | timesOut {run : ℕ} (timed : s.phase.timed = some run) :
      Stepped s .timesOut { s with phase := .idle } [.reported run]

variable {s s' : CommandRuns} {h es : List CommandEvent} {a : CommandAction} {run : ℕ}

/-- The handler returns after a run it awaited. -/
theorem stepped_finish (hawaited : s.phase.awaited = some run) {outcome : Outcome} (phase : Phase)
    (success : Bool) :
    Stepped s (.settles run outcome)
      (CommandRuns.finish ⟨phase, s.runs, others s.unsettled run⟩ run success).1
      (CommandRuns.finish ⟨phase, s.runs, others s.unsettled run⟩ run success).2 := by
  cases success with
  | true => exact .settles .idle hawaited rfl (.inl rfl)
  | false => exact .settles .idle hawaited rfl (.inr rfl)

theorem stepped_settled (outcome : Outcome) :
    Stepped s (.settles run outcome) (s.settled run outcome).1 (s.settled run outcome).2 := by
  unfold settled
  dsimp only
  split
  · next hawaited =>
    cases outcome with
    | threw => exact .settles .idle hawaited rfl (.inr rfl)
    | result success executeAction =>
      dsimp only
      split
      · next output _ _ =>
        -- only a result that is shown to a user, or to an agent, has its action confirmed
        cases output with
        | human =>
          cases executeAction with
          | none => exact stepped_finish hawaited _ success
          | some trade => exact .settles (.confirming trade) hawaited rfl (.inl rfl)
        | agent =>
          cases executeAction with
          | none => exact stepped_finish hawaited _ success
          | some trade => exact .settlesAndStarts trade (.executing s.runs) hawaited rfl
        | json => exact stepped_finish hawaited _ success
      · exact stepped_finish hawaited _ success
  · next hlate => exact .settlesLate hlate

theorem stepped (hs : s.step a = some (s', es)) : Stepped s a s' es := by
  cases a with
  | line output =>
    unfold CommandRuns.step at hs
    dsimp only at hs
    split at hs
    · obtain ⟨rfl, rfl⟩ := Machine.some_pair hs
      exact .stays
    · next hprocessing =>
      obtain ⟨rfl, rfl⟩ := Machine.some_pair hs
      have hidle : s.phase = .idle := by simpa [processing] using hprocessing
      exact .waits (.preparing output) (by rw [hidle]; rfl) rfl
  | returns =>
    unfold CommandRuns.step at hs
    dsimp only at hs
    split at hs
    · next output hphase =>
      obtain ⟨rfl, rfl⟩ := Machine.some_pair hs
      exact .waits .idle (by rw [hphase]; rfl) rfl
    · cases hs
  | dispatches trade =>
    unfold CommandRuns.step at hs
    dsimp only at hs
    split at hs
    · next output hphase =>
      obtain ⟨rfl, rfl⟩ := Machine.some_pair hs
      exact .starts trade (.dispatching output s.runs) (by rw [hphase]; rfl) rfl
    · cases hs
  | executesTool trade =>
    unfold CommandRuns.step at hs
    dsimp only at hs
    split at hs
    · next output hphase =>
      obtain ⟨rfl, rfl⟩ := Machine.some_pair hs
      exact .starts trade (.magic s.runs) (by rw [hphase]; rfl) rfl
    · cases hs
  | answered yes walletRebuilding =>
    unfold CommandRuns.step at hs
    dsimp only at hs
    split at hs
    · next trade hphase =>
      have hnone : s.phase.awaited = none := by rw [hphase]; rfl
      split at hs
      · obtain ⟨rfl, rfl⟩ := Machine.some_pair hs
        exact .starts trade (.executing s.runs) hnone rfl
      · obtain ⟨rfl, rfl⟩ := Machine.some_pair hs
        exact .waits .idle hnone rfl
    · cases hs
  | submits run =>
    unfold CommandRuns.step at hs
    dsimp only at hs
    split at hs
    · next hany =>
      obtain ⟨rfl, rfl⟩ := Machine.some_pair hs
      obtain ⟨⟨id, trade⟩, hmem, hrun⟩ := List.any_eq_true.mp hany
      rw [Bool.and_eq_true, decide_eq_true_iff] at hrun
      obtain ⟨rfl, rfl⟩ : id = run ∧ trade = true := hrun
      exact .submits hmem
    · cases hs
  | settles run outcome =>
    unfold CommandRuns.step at hs
    dsimp only at hs
    split at hs
    · obtain ⟨rfl, rfl⟩ := Machine.some_pair hs
      exact stepped_settled outcome
    · cases hs
  | timesOut =>
    obtain ⟨run, htimed, hpair⟩ := Option.map_eq_some_iff.mp hs
    obtain ⟨rfl, rfl⟩ := Prod.mk.inj hpair
    exact .timesOut htimed

/-! ## A run that is over -/

/-- The run was started, and is no trade that has not settled. -/
structure Over (s : CommandRuns) (run : ℕ) : Prop where
  started : run < s.runs
  settled : ∀ r ∈ s.unsettled, r.id = run → r.trade = false

/-- A new run has another number. -/
theorem Over.cons (hO : Over s run) {runs : List ToolRun}
    (hruns : ∀ r ∈ runs, r ∈ s.unsettled) (trade : Bool) (phase : Phase) :
    Over ⟨phase, s.runs + 1, ⟨s.runs, trade⟩ :: runs⟩ run where
  started := Nat.lt_succ_of_lt hO.started
  settled := by
    intro r hr heq
    rcases List.mem_cons.mp hr with rfl | hmem
    · exact absurd heq (Nat.ne_of_gt hO.started)
    · exact hO.settled r (hruns r hmem) heq

/-- It stays over, and submits nothing. -/
theorem Over.step (hO : Over s run) (hs : s.step a = some (s', es)) :
    Over s' run ∧ .submitted run ∉ es := by
  cases stepped hs with
  | waits phase _ _ => exact ⟨⟨hO.started, hO.settled⟩, List.not_mem_nil⟩
  | stays => exact ⟨hO, List.not_mem_nil⟩
  | @submits other htrade =>
    refine ⟨hO, fun hmem => ?_⟩
    obtain rfl := CommandEvent.submitted.inj (List.mem_singleton.mp hmem)
    have hfalse : true = false := hO.settled _ htrade rfl
    cases hfalse
  | starts trade phase _ _ =>
    refine ⟨hO.cons (fun _ hr => hr) trade phase, fun hmem => ?_⟩
    cases List.mem_singleton.mp hmem
  | settles phase _ _ hes =>
    refine ⟨⟨hO.started, fun r hr => hO.settled r (mem_others.mp hr).1⟩, fun hmem => ?_⟩
    rcases hes with rfl | rfl
    · exact absurd hmem List.not_mem_nil
    · cases List.mem_singleton.mp hmem
  | settlesAndStarts trade phase _ _ =>
    refine ⟨hO.cons (fun _ hr => (mem_others.mp hr).1) trade phase, fun hmem => ?_⟩
    cases List.mem_singleton.mp hmem
  | settlesLate _ =>
    exact ⟨⟨hO.started, fun r hr => hO.settled r (mem_others.mp hr).1⟩, List.not_mem_nil⟩
  | timesOut _ =>
    refine ⟨⟨hO.started, hO.settled⟩, fun hmem => ?_⟩
    cases List.mem_singleton.mp hmem

/-- Whatever follows, good or bad. -/
theorem Over.runFrom (hO : Over s run) {as : List CommandAction} {later : List CommandEvent}
    (hquiet : .submitted run ∉ h) (hrun : commandRuns.runFrom s h as = some (s', later)) :
    .submitted run ∉ later := by
  refine (Machine.invariant_of_runFrom (I := fun s h => Over s run ∧ .submitted run ∉ h) ?_
    ⟨hO, hquiet⟩ hrun).2
  rintro s s' h es a ⟨hover, hquiet⟩ hs
  obtain ⟨hnext, hnone⟩ := hover.step hs
  refine ⟨hnext, fun hmem => ?_⟩
  rcases List.mem_append.mp hmem with hold | hnew
  · exact hquiet hold
  · exact hnone hnew

/-! ## The invariant -/

/-- The runs are numbered, a trade that has not settled is awaited, and what was reported is
over. -/
structure RunsInv (s : CommandRuns) (h : List CommandEvent) : Prop where
  below : ∀ r ∈ s.unsettled, r.id < s.runs
  nodup : (s.unsettled.map ToolRun.id).Nodup
  awaited : ∀ r ∈ s.unsettled, r.trade = true → s.phase.awaited = some r.id
  current : ∀ run, s.phase.awaited = some run → run < s.runs
  reported : ∀ run, .reported run ∈ h → Over s run

namespace RunsInv

theorem init : RunsInv commandRuns.init [] where
  below := nofun
  nodup := List.nodup_nil
  awaited := nofun
  current := nofun
  reported := nofun

/-- Two trades would have one number. -/
theorem one (hI : RunsInv s h) : (s.unsettled.filter ToolRun.trade).length ≤ 1 := by
  have hnodup : ((s.unsettled.filter ToolRun.trade).map ToolRun.id).Nodup :=
    hI.nodup.sublist (List.filter_sublist.map _)
  have hsame : ∀ r ∈ s.unsettled.filter ToolRun.trade, s.phase.awaited = some r.id := by
    intro r hr
    obtain ⟨hmem, htrade⟩ := List.mem_filter.mp hr
    exact hI.awaited r hmem htrade
  match htrades : s.unsettled.filter ToolRun.trade with
  | [] => exact Nat.zero_le _
  | [_] => exact Nat.le_refl _
  | r :: r' :: rest =>
    rw [htrades] at hnodup hsame
    have hr := hsame r List.mem_cons_self
    have hr' := hsame r' (List.mem_cons_of_mem _ List.mem_cons_self)
    have heq : r.id = r'.id := Option.some.inj (hr.symm.trans hr')
    exact absurd hnodup (by simp [heq])

theorem oneTrade (hI : RunsInv s h) : OneTrade s h where
  one := hI.one
  ended := fun run hrun _ _ _ hlater => (hI.reported run hrun).runFrom List.not_mem_nil hlater

theorem nodup_others (hI : RunsInv s h) (run : ℕ) :
    ((others s.unsettled run).map ToolRun.id).Nodup :=
  hI.nodup.sublist (List.filter_sublist.map _)

/-- While no trade is unsettled another run may start. -/
theorem starts (hI : RunsInv s h) {runs : List ToolRun} (hruns : ∀ r ∈ runs, r ∈ s.unsettled)
    (hnodup : (runs.map ToolRun.id).Nodup) (hnone : ∀ r ∈ runs, r.trade = false) (trade : Bool)
    {phase : Phase} (hafter : phase.awaited = some s.runs) :
    RunsInv ⟨phase, s.runs + 1, ⟨s.runs, trade⟩ :: runs⟩
      (h ++ [CommandEvent.started ⟨s.runs, trade⟩]) where
  below := by
    intro r hr
    rcases List.mem_cons.mp hr with rfl | hmem
    · exact Nat.lt_succ_self _
    · exact Nat.lt_succ_of_lt (hI.below r (hruns r hmem))
  nodup := by
    rw [List.map_cons, List.nodup_cons]
    refine ⟨fun hmem => ?_, hnodup⟩
    obtain ⟨r, hr, heq⟩ := List.mem_map.mp hmem
    have hlt := hI.below r (hruns r hr)
    have heq : r.id = s.runs := heq
    omega
  awaited := by
    intro r hr htrade
    rcases List.mem_cons.mp hr with rfl | hmem
    · exact hafter
    · rw [hnone r hmem] at htrade
      cases htrade
  current := by
    intro run hrun
    have heq : s.runs = run := Option.some.inj (hafter.symm.trans hrun)
    show run < s.runs + 1
    omega
  reported := by
    intro run hmem
    rcases List.mem_append.mp hmem with hold | hnew
    · exact (hI.reported run hold).cons hruns trade phase
    · cases List.mem_singleton.mp hnew

/-- What is not the awaited run is no trade. -/
theorem trade_of_others (hI : RunsInv s h) (hawaited : s.phase.awaited = some run) {r : ToolRun}
    (hr : r ∈ others s.unsettled run) : r.trade = false := by
  obtain ⟨hmem, hne⟩ := mem_others.mp hr
  rw [← Bool.not_eq_true]
  intro htrade
  have hr := hI.awaited r hmem htrade
  exact hne (Option.some.inj (hr.symm.trans hawaited))

/-- While none is awaited, none is unsettled. -/
theorem trade_of_none (hI : RunsInv s h) (hawaited : s.phase.awaited = none) :
    ∀ r ∈ s.unsettled, r.trade = false := by
  intro r hmem
  rw [← Bool.not_eq_true]
  intro htrade
  have hr := hI.awaited r hmem htrade
  rw [hawaited] at hr
  cases hr

theorem timed_awaited {phase : Phase} (htimed : phase.timed = some run) :
    phase.awaited = some run := by
  cases phase with
  | dispatching output r => exact htimed
  | executing r => exact htimed
  | _ => cases htimed

/-- What settles or times out is over. -/
theorem reports (hI : RunsInv s h) (hover : Over s' run) (hrest : ∀ other, Over s other →
    Over s' other) :
    ∀ other, .reported other ∈ h ++ [CommandEvent.reported run] → Over s' other := by
  intro other hmem
  rcases List.mem_append.mp hmem with hold | hnew
  · exact hrest other (hI.reported other hold)
  · obtain rfl := CommandEvent.reported.inj (List.mem_singleton.mp hnew)
    exact hover

theorem step (hI : RunsInv s h) (hgood : TradeSettles s h a) (hs : s.step a = some (s', es)) :
    RunsInv s' (h ++ es) := by
  have hrest : ∀ run, Over s run → Over s' run := fun run hO => (hO.step hs).1
  cases stepped hs with
  | waits phase hbefore hafter =>
    rw [List.append_nil]
    refine ⟨hI.below, hI.nodup, fun r hr htrade => ?_, fun run hrun => ?_, fun run hrun =>
      hrest run (hI.reported run hrun)⟩
    · rw [hI.trade_of_none hbefore r hr] at htrade
      cases htrade
    · have hrun : phase.awaited = some run := hrun
      rw [hafter] at hrun
      cases hrun
  | stays =>
    rw [List.append_nil]
    exact hI
  | submits _ =>
    refine ⟨hI.below, hI.nodup, hI.awaited, hI.current, fun run hmem => ?_⟩
    rcases List.mem_append.mp hmem with hold | hnew
    · exact hI.reported run hold
    · cases List.mem_singleton.mp hnew
  | starts trade phase hbefore hafter =>
    exact hI.starts (fun _ hr => hr) hI.nodup (hI.trade_of_none hbefore) trade hafter
  | @settles run _ _ phase hbefore hafter hes =>
    have hover : Over ⟨phase, s.runs, others s.unsettled run⟩ run :=
      ⟨hI.current run hbefore, fun r hr heq => absurd heq (mem_others.mp hr).2⟩
    refine ⟨fun r hr => hI.below r (mem_others.mp hr).1, hI.nodup_others run, fun r hr htrade => ?_,
      fun other hother => ?_, ?_⟩
    · rw [hI.trade_of_others hbefore hr] at htrade
      cases htrade
    · have hother : phase.awaited = some other := hother
      rw [hafter] at hother
      cases hother
    · rcases hes with rfl | rfl
      · rw [List.append_nil]
        exact fun other hmem => hrest other (hI.reported other hmem)
      · exact hI.reports hover hrest
  | @settlesAndStarts run _ trade phase hbefore hafter =>
    exact hI.starts (fun _ hr => (mem_others.mp hr).1) (hI.nodup_others run)
      (fun _ hr => hI.trade_of_others hbefore hr) trade hafter
  | @settlesLate run _ _ =>
    rw [List.append_nil]
    exact ⟨fun r hr => hI.below r (mem_others.mp hr).1, hI.nodup_others run,
      fun r hr => hI.awaited r (mem_others.mp hr).1, hI.current,
      fun other hmem => hrest other (hI.reported other hmem)⟩
  | @timesOut run htimed =>
    have hawaited := timed_awaited htimed
    -- the run that times out is no trade
    have hnone : ∀ r ∈ s.unsettled, r.trade = false := by
      intro r hr
      rw [← Bool.not_eq_true]
      intro htrade
      have hid := Option.some.inj ((hI.awaited r hr htrade).symm.trans hawaited)
      rw [hgood rfl r hr (by rw [hid]; exact htimed)] at htrade
      cases htrade
    refine ⟨hI.below, hI.nodup, fun r hr htrade => ?_, nofun, ?_⟩
    · rw [hnone r hr] at htrade
      cases htrade
    · exact hI.reports ⟨hI.current run hawaited, fun r hr _ => hnone r hr⟩ hrest

end RunsInv

/-! ## Every run -/

/-- A trade that times out may go on to submit its transaction. -/
theorem not_oneTrade_of_timeout (hbad : ¬ TradeSettles s h a) (hs : s.step a = some (s', es)) :
    ¬ OneTrade s' (h ++ es) := by
  unfold TradeSettles at hbad
  push Not at hbad
  obtain ⟨rfl, run, hmem, htimed, htrade⟩ := hbad
  have htrade : run.trade = true := by simpa using htrade
  obtain ⟨rfl, rfl⟩ : { s with phase := .idle } = s' ∧ [.reported run.id] = es := by
    have hfail : s.step .timesOut = some (s.fail run.id) := by
      unfold CommandRuns.step
      dsimp only
      rw [htimed]
      rfl
    exact Machine.some_pair (hfail.symm.trans hs)
  intro hone
  have hreported : .reported run.id ∈ h ++ [CommandEvent.reported run.id] :=
    List.mem_append_right _ List.mem_cons_self
  refine hone.ended run.id hreported [.submits run.id] { s with phase := .idle }
    [.submitted run.id] ?_ List.mem_cons_self
  have hany : (s.unsettled.any fun r => decide (r.id = run.id) && r.trade) = true :=
    List.any_eq_true.mpr ⟨run, hmem, by simp [htrade]⟩
  have hsubmits : commandRuns.step { s with phase := .idle } (.submits run.id) =
      some ({ s with phase := .idle }, [.submitted run.id]) := if_pos hany
  rw [Machine.runFrom, hsubmits]
  rfl

/-- **One trade at a time.** For every order of commands, timeouts and promises that settle
when they will, at most one trade is in execution, and what was reported to have failed or
timed out submits nothing later, exactly as long as no trade outlives its timeout. -/
theorem oneTrade_iff (as : List CommandAction) :
    commandRuns.Always OneTrade commandRuns.init [] as ↔
      commandRuns.Along TradeSettles commandRuns.init [] as :=
  Machine.always_iff_along (M := commandRuns) (I := RunsInv) (fun hI => hI.oneTrade)
    (fun hI hgood hs => hI.step hgood hs) (fun _ hbad hs => not_oneTrade_of_timeout hbad hs)
    RunsInv.init as

/-! ## Two trades at once -/

/-- A trade is dispatched, confirmed and executed, and times out; the next command executes
another one; and then the first one submits its transaction. -/
def beside : List CommandAction :=
  [.line .human, .dispatches false, .settles 0 (.result true (some true)), .answered true false,
    .timesOut, .line .human, .dispatches false, .settles 2 (.result true (some true)),
    .answered true false, .submits 1]

/-- Two trades are in execution, and the one that was reported submits. -/
theorem not_oneTrade :
    commandRuns.run beside = some (⟨.executing 3, 4, [⟨3, true⟩, ⟨1, true⟩]⟩,
        [.started ⟨0, false⟩, .started ⟨1, true⟩, .reported 1, .started ⟨2, false⟩,
          .started ⟨3, true⟩, .submitted 1]) ∧
      ¬ ∀ s h, commandRuns.Reachable s h → OneTrade s h := by
  have hrun : commandRuns.run beside = some (⟨.executing 3, 4, [⟨3, true⟩, ⟨1, true⟩]⟩,
      [.started ⟨0, false⟩, .started ⟨1, true⟩, .reported 1, .started ⟨2, false⟩,
        .started ⟨3, true⟩, .submitted 1]) := by decide
  refine ⟨hrun, fun hall => ?_⟩
  have hone := (hall _ _ (Machine.reachable_of_run hrun)).one
  exact absurd hone (by decide)

end CommandRuns

end FlashEdge
