import FlashEdge.Cli.JsonResponse
import FlashEdge.Theory.Machine

/-!
# The terminal session (`no-dna.ts`, `cli/terminal.ts`)

One exported flag, `IS_AGENT`, says both that output is structured and that trades are
executed without a prompt. `--format json` switches it on for the time that a tool runs,
and a single slot keeps what it was before.

A session is the machine of everything that can happen between two awaits: a line is
typed, a tool or the diagnostics come back, a prompt times out. Lines go to the prompt
that is pending, if there is one; while a command runs, the last one is buffered.
Prompts and results are numbered in the order in which they come.
-/

namespace FlashEdge

namespace TerminalSession

/-- Where the command that is being processed waits: for the diagnostics of `doctor`, for
what comes before a dispatch, for the answer to a question asked there, for the tool, for
the answer to the prompt of a result, for the second look at the wallet after it, or for
the action of the result. -/
inductive Phase where
  | idle
  | doctor (json : Bool)
  | preparing (json : Bool)
  | asking (json : Bool) (prompt : ℕ)
  | dispatching (json : Bool)
  | confirming (result prompt : ℕ)
  | confirmed (result : ℕ)
  | executing
  | closed
deriving DecidableEq, Repr

/-- What `handleInput` makes of a line: the `--format json` flag, and whether it is one of
the spellings of `doctor`. -/
structure Command where
  json : Bool := false
  doctor : Bool := false
deriving DecidableEq, Repr

/-- How a dispatch ends: it throws (or times out), or gives a result, which may require
confirmation of an action. -/
inductive Dispatched where
  | threw
  | result (requiresConfirmation : Bool)
deriving DecidableEq, Repr

inductive TerminalAction where
  | line (text : List CodeUnit) (command : Command)
  | doctorEnds (threw : Bool)
  | asks
  | givesUp
  | dispatches
  | dispatched (outcome : Dispatched)
  | confirmTimedOut (prompt : ℕ)
  | walletChecked (walletRebuilding : Bool)
  | executionEnds
deriving DecidableEq, Repr

/-- A prompt is shown, for a result or another question; it is answered, perhaps by a line
that was typed before; the action of a result is executed; a command has ended. -/
inductive TerminalEvent where
  | prompted (prompt : ℕ) (result : Option ℕ)
  | answered (prompt : ℕ) (yes typedAhead : Bool)
  | executed (result : ℕ)
  | ended
deriving DecidableEq, Repr

end TerminalSession

open TerminalSession

/-- The flag and its slot, and the terminal: its prompts, the one that is pending, those of
`exit` that have not been settled, the buffered line, and the command. -/
structure TerminalSession where
  simulationMode : Bool
  isAgent : Bool := false
  savedAgentState : Bool := false
  prompts : ℕ := 0
  results : ℕ := 0
  pendingConfirmation : Option ℕ := none
  exitPrompts : List ℕ := []
  bufferedLine : Option (List CodeUnit) := none
  phase : Phase := .idle
deriving DecidableEq, Repr

namespace TerminalSession

def enableStructuredOutput (s : TerminalSession) : TerminalSession :=
  { s with savedAgentState := s.isAgent, isAgent := true }

def restoreOutputMode (s : TerminalSession) : TerminalSession :=
  { s with isAgent := s.savedAgentState }

/-- `if (flags.jsonOutput) enableStructuredOutput()`. -/
def enableIf (s : TerminalSession) (json : Bool) : TerminalSession :=
  if json then s.enableStructuredOutput else s

/-- `if (flags.jsonOutput) restoreOutputMode()`. -/
def restoreIf (s : TerminalSession) (json : Bool) : TerminalSession :=
  if json then s.restoreOutputMode else s

/-- An answer that confirms. -/
def isYes (answer : List CodeUnit) : Bool :=
  decide (Cli.lowerText answer = units "yes") || decide (Cli.lowerText answer = units "y")

/-- Control characters are dropped, and blanks around the line. -/
def sanitizeLine (line : List CodeUnit) : List CodeUnit :=
  Cli.trim (line.filter fun c =>
    !(decide (c.toNat ≤ 8) || decide (c.toNat = 11) || decide (c.toNat = 12) ||
      (decide (14 ≤ c.toNat) && decide (c.toNat ≤ 31)) || decide (c.toNat = 127)))

/-- The end of a command: what was typed ahead is forgotten. -/
def ends (s : TerminalSession) : TerminalSession × List TerminalEvent :=
  ({ s with phase := .idle, bufferedLine := none }, [.ended])

/-- The answer to the prompt of a result. -/
def resultAnswered (s : TerminalSession) (result : ℕ) (yes : Bool) :
    TerminalSession × List TerminalEvent :=
  if yes then ({ s with phase := .confirmed result }, []) else s.ends

/-- `confirm` for a result: a line that was typed ahead is its answer in simulation, and
is thrown away otherwise. -/
def confirmResult (s : TerminalSession) (result : ℕ) : TerminalSession × List TerminalEvent :=
  let prompt := s.prompts
  let s := { s with prompts := prompt + 1 }
  match s.simulationMode, s.bufferedLine with
  | true, some answer =>
    let (s, events) := { s with bufferedLine := none }.resultAnswered result (isYes answer)
    (s, .prompted prompt (some result) :: .answered prompt (isYes answer) true :: events)
  | _, _ =>
    ({ s with
        bufferedLine := none
        pendingConfirmation := some prompt
        phase := .confirming result prompt },
      [.prompted prompt (some result)])

/-- `confirm` for a question before the dispatch. -/
def confirmQuestion (s : TerminalSession) (json : Bool) : TerminalSession × List TerminalEvent :=
  let prompt := s.prompts
  let s := { s with prompts := prompt + 1 }
  match s.simulationMode, s.bufferedLine with
  | true, some answer =>
    ({ s with bufferedLine := none },
      [.prompted prompt none, .answered prompt (isYes answer) true])
  | _, _ =>
    ({ s with
        bufferedLine := none
        pendingConfirmation := some prompt
        phase := .asking json prompt },
      [.prompted prompt none])

/-- `confirm` for `exit`, which asks in live mode only, so no line typed ahead counts. -/
def confirmExit (s : TerminalSession) : TerminalSession × List TerminalEvent :=
  ({ s with
      prompts := s.prompts + 1
      bufferedLine := none
      pendingConfirmation := some s.prompts
      exitPrompts := s.prompts :: s.exitPrompts },
    [.prompted s.prompts none])

/-- A prompt is settled, and whoever waits for it goes on; `none` if nobody does. -/
def settle (s : TerminalSession) (prompt : ℕ) (yes : Bool) :
    Option (TerminalSession × List TerminalEvent) :=
  match s.phase with
  | .confirming result p =>
    if prompt = p then some (s.resultAnswered result yes) else settleExit
  | .asking json p =>
    if prompt = p then some ({ s with phase := .preparing json }, []) else settleExit
  | _ => settleExit
where
  settleExit :=
    if prompt ∈ s.exitPrompts then
      some ({ s with
        exitPrompts := s.exitPrompts.erase prompt
        phase := if yes then .closed else s.phase }, [])
    else none

/-- A command starts. -/
def handleInput (s : TerminalSession) (command : Command) : TerminalSession :=
  if command.doctor then { s.enableIf command.json with phase := .doctor command.json }
  else { s with phase := .preparing command.json }

/-- The handler of lines. -/
def handleLine (s : TerminalSession) (text : List CodeUnit) (command : Command) :
    Option (TerminalSession × List TerminalEvent) :=
  match s.pendingConfirmation with
  | some prompt =>
    ({ s with pendingConfirmation := none }.settle prompt (isYes text)).map fun (s, events) =>
      (s, .answered prompt (isYes text) false :: events)
  | none =>
    let trimmed := sanitizeLine text
    if trimmed = [] ∨ 4096 < trimmed.length then some (s, [])
    else if Cli.lowerText trimmed = units "exit" ∨ Cli.lowerText trimmed = units "quit" then
      if !s.isAgent && !s.simulationMode then some s.confirmExit
      else some ({ s with phase := .closed }, [])
    -- a command is being processed
    else if s.phase ≠ .idle then some ({ s with bufferedLine := some trimmed }, [])
    else some (s.handleInput command, [])

/-- What a dispatch is followed by: the output mode is restored first. -/
def handleDispatched (s : TerminalSession) (json : Bool) (outcome : Dispatched) :
    TerminalSession × List TerminalEvent :=
  let s := s.restoreIf json
  match outcome with
  | .threw => s.ends
  | .result requiresConfirmation =>
    let result := s.results
    let s := { s with results := result + 1 }
    -- an agent is never prompted
    if s.isAgent then
      if requiresConfirmation then ({ s with phase := .executing }, [.executed result])
      else s.ends
    else if json then s.ends
    else if requiresConfirmation then s.confirmResult result
    else s.ends

def step (s : TerminalSession) (a : TerminalAction) :
    Option (TerminalSession × List TerminalEvent) :=
  match s.phase, a with
  | .closed, _ => none
  | _, .line text command => s.handleLine text command
  | _, .confirmTimedOut prompt =>
    -- the timer clears whichever prompt is pending
    { s with pendingConfirmation := none }.settle prompt false
  | .doctor json, .doctorEnds threw =>
    -- nothing is restored if the diagnostics throw
    if threw then some s.ends else some (s.restoreIf json).ends
  | .preparing json, .asks => some (s.confirmQuestion json)
  | .preparing _, .givesUp => some s.ends
  | .preparing json, .dispatches =>
    some ({ s.enableIf json with phase := .dispatching json }, [])
  | .dispatching json, .dispatched outcome => some (s.handleDispatched json outcome)
  | .confirmed result, .walletChecked walletRebuilding =>
    if walletRebuilding then some s.ends
    else some ({ s with phase := .executing }, [.executed result])
  | .executing, .executionEnds => some s.ends
  | _, _ => none

end TerminalSession

/-- A session in live or simulation mode, started without `NO_DNA`. -/
def terminalSession (simulationMode : Bool) :
    Machine TerminalSession TerminalAction TerminalEvent where
  init := { simulationMode }
  step := TerminalSession.step

end FlashEdge
