import FlashEdge.Cli.TerminalSession

/-!
# The prompts of a session

All the prompts of a session share the slot `pendingConfirmation`. The prompts of a command
come one after another, but the prompt of `exit` may be shown while a command is being
processed, and the prompt of that command then takes the slot over.

`promptSession` is the session as an observer of its prompts sees it: lines are numbered,
and each is logged with the prompt it is given to, the one that was shown last if that
still waits. What each part of a step does to the prompts is one of four shapes: nothing, a
prompt is settled, a prompt is shown, a prompt is shown and answered by what was typed before.
-/

namespace FlashEdge

/-- A prompt is shown; a line is typed, given to a prompt or to none; a line answers a
prompt; a prompt times out, and the callback of another may go with it. -/
inductive PromptEvent where
  | shown (prompt : ℕ)
  | typed (line : ℕ) (addressee : Option ℕ)
  | answered (line prompt : ℕ) (yes : Bool)
  | timedOut (prompt : ℕ) (discarded : Option ℕ)
deriving DecidableEq, Repr

/-- The session, the number of lines typed, and which of them is in the buffer, if one is. -/
structure PromptSession where
  session : TerminalSession
  lines : ℕ := 0
  bufferedBy : ℕ := 0

namespace TerminalSession

/-- The prompt of the command, while it waits. -/
def Phase.prompt : Phase → Option ℕ
  | .asking _ prompt => some prompt
  | .confirming _ prompt => some prompt
  | _ => none

/-- The prompts that wait for their answers. -/
def waiting (s : TerminalSession) : List ℕ := s.phase.prompt.toList ++ s.exitPrompts

/-- The prompt that was shown last, if it waits. -/
def awaited (s : TerminalSession) : Option ℕ :=
  s.waiting.find? fun prompt => decide (prompt + 1 = s.prompts)

/-- The callback of another prompt that is gone after a timeout. -/
def lost (s s' : TerminalSession) (prompt : ℕ) : Option ℕ :=
  if s'.pendingConfirmation = s.pendingConfirmation then none
  else s.pendingConfirmation.filter fun p => decide (p ≠ prompt)

end TerminalSession

namespace PromptSession

open TerminalSession

/-- What is seen of an event: `line` is typed, or `bufferedBy` was. -/
def seen (line bufferedBy : ℕ) : TerminalEvent → Option PromptEvent
  | .prompted prompt _ => some (.shown prompt)
  | .answered prompt yes false => some (.answered line prompt yes)
  | .answered prompt yes true => some (.answered bufferedBy prompt yes)
  | _ => none

/-- What is seen of a step. -/
def observe (s : PromptSession) (a : TerminalAction) (t : TerminalSession)
    (es : List TerminalEvent) : PromptSession × List PromptEvent :=
  let events := es.filterMap (seen s.lines s.bufferedBy)
  match a with
  | .line text _ =>
    let bufferedBy := if t.bufferedLine = some (sanitizeLine text) then s.lines else s.bufferedBy
    ({ session := t, lines := s.lines + 1, bufferedBy }, .typed s.lines s.session.awaited :: events)
  | .confirmTimedOut prompt =>
    ({ s with session := t }, .timedOut prompt (s.session.lost t prompt) :: events)
  | _ => ({ s with session := t }, events)

def step (s : PromptSession) (a : TerminalAction) : Option (PromptSession × List PromptEvent) :=
  (s.session.step a).map fun (t, es) => s.observe a t es

end PromptSession

def promptSession (simulationMode : Bool) :
    Machine PromptSession TerminalSession.TerminalAction PromptEvent where
  init := { session := { simulationMode } }
  step := PromptSession.step

namespace PromptSession

open TerminalSession

/-! ## What the parts of a step do to the prompts -/

variable {s s' : TerminalSession} {es : List TerminalEvent} {prompt : ℕ}

theorem awaited_eq_some : s.awaited = some prompt ↔
    prompt ∈ s.waiting ∧ prompt + 1 = s.prompts := by
  unfold awaited
  constructor
  · intro hfind
    exact ⟨List.mem_of_find?_eq_some hfind, by simpa using List.find?_some hfind⟩
  · rintro ⟨hmem, hlast⟩
    cases hfind : s.waiting.find? fun p => decide (p + 1 = s.prompts) with
    | none =>
      exact absurd (decide_eq_true hlast) (List.find?_eq_none.mp hfind prompt hmem)
    | some p =>
      have hp : p + 1 = s.prompts := by simpa using List.find?_some hfind
      obtain rfl : p = prompt := by omega
      rfl

/-- No prompt is shown or answered. -/
def Silent (es : List TerminalEvent) : Prop :=
  ∀ line bufferedBy, es.filterMap (seen line bufferedBy) = []

theorem silent_nil : Silent [] := fun _ _ => rfl

theorem silent_ended : Silent [.ended] := fun _ _ => rfl

theorem silent_executed (result : ℕ) : Silent [.executed result] := fun _ _ => rfl

/-- No prompt is shown; the slot, and the line in the buffer, if it stays there, are as they
were. -/
structure Keeps (s s' : TerminalSession) (es : List TerminalEvent) : Prop where
  mode : s'.simulationMode = s.simulationMode
  prompts : s'.prompts = s.prompts
  slot : s'.pendingConfirmation = s.pendingConfirmation
  exits : ∀ p ∈ s'.exitPrompts, p ∈ s.exitPrompts
  buffer : s'.bufferedLine = none ∨ s'.bufferedLine = s.bufferedLine
  silent : Silent es

/-- And nothing is settled. -/
structure Idles (s s' : TerminalSession) (es : List TerminalEvent) : Prop
    extends Keeps s s' es where
  waiting : s'.phase ≠ .closed → s'.waiting = s.waiting

/-- One prompt is settled. -/
structure Settles (s : TerminalSession) (prompt : ℕ) (s' : TerminalSession)
    (es : List TerminalEvent) : Prop extends Keeps s s' es where
  waits : prompt ∈ s.waiting
  waiting : s'.phase ≠ .closed → s'.waiting = s.waiting.erase prompt

/-- A prompt is shown, and its callback is in the slot. -/
structure Shows (s s' : TerminalSession) (es : List TerminalEvent) : Prop where
  mode : s'.simulationMode = s.simulationMode
  prompts : s'.prompts = s.prompts + 1
  slot : s'.pendingConfirmation = some s.prompts
  exits : s.simulationMode = true → s'.exitPrompts = s.exitPrompts
  buffer : s'.bufferedLine = none
  waiting : s'.waiting.Perm (s.prompts :: s.waiting)
  shown : ∃ result, es = [.prompted s.prompts result]

/-- A prompt is shown, and the line in the buffer is its answer. -/
structure ShowsAnswered (s s' : TerminalSession) (es : List TerminalEvent) : Prop where
  simulated : s.simulationMode = true
  noPrompt : s.phase.prompt = none
  mode : s'.simulationMode = s.simulationMode
  prompts : s'.prompts = s.prompts + 1
  slot : s'.pendingConfirmation = s.pendingConfirmation
  exits : s'.exitPrompts = s.exitPrompts
  buffered : s.bufferedLine ≠ none
  buffer : s'.bufferedLine = none
  waiting : s'.waiting = s.waiting
  shown : ∃ yes, ∀ line bufferedBy, es.filterMap (seen line bufferedBy) =
    [.shown s.prompts, .answered bufferedBy s.prompts yes]

theorem waiting_of_prompt {p : ℕ} (hp : s.phase.prompt = some p) :
    s.waiting = p :: s.exitPrompts := by
  unfold waiting
  rw [hp]
  rfl

theorem waiting_of_none (hp : s.phase.prompt = none) : s.waiting = s.exitPrompts := by
  unfold waiting
  rw [hp]
  rfl

/-- The end of a command whose prompt, if it had one, is settled. -/
theorem waiting_ends (s : TerminalSession) : s.ends.1.waiting = s.exitPrompts :=
  waiting_of_none rfl

/-- A prompt of `exit` is settled. -/
theorem settles_of_settleExit {yes : Bool}
    (hset : settle.settleExit s prompt yes = some (s', es))
    (hother : s.phase.prompt ≠ some prompt) : Settles s prompt s' es := by
  unfold settle.settleExit at hset
  split at hset
  · next hmem =>
    obtain ⟨rfl, rfl⟩ := Machine.some_pair hset
    refine ⟨⟨rfl, rfl, rfl, fun p hp => List.mem_of_mem_erase hp, .inr rfl, silent_nil⟩, ?_, ?_⟩
    · exact List.mem_append_right _ hmem
    · intro hopen
      cases yes with
      | true => exact absurd rfl hopen
      | false =>
        cases hphase : s.phase.prompt with
        | none =>
          rw [waiting_of_none hphase]
          exact waiting_of_none hphase
        | some p =>
          have hne : (p == prompt) = false := by
            refine beq_eq_false_iff_ne.mpr fun heq => hother ?_
            rw [hphase, heq]
          rw [waiting_of_prompt hphase, List.erase_cons_tail (Bool.eq_false_iff.mp hne)]
          exact waiting_of_prompt hphase
  · cases hset

/-- A prompt that is answered, or times out. -/
theorem settles_of_settle {yes : Bool} (hset : s.settle prompt yes = some (s', es)) :
    Settles s prompt s' es := by
  unfold TerminalSession.settle at hset
  split at hset
  · next result p hphase =>
    have hprompt : s.phase.prompt = some p := by rw [hphase]; rfl
    split at hset
    · next heq =>
      subst heq
      have herase : s.waiting.erase prompt = s.exitPrompts := by
        rw [waiting_of_prompt hprompt, List.erase_cons_head]
      have hmem : prompt ∈ s.waiting := by
        rw [waiting_of_prompt hprompt]
        exact List.mem_cons_self
      obtain ⟨rfl, rfl⟩ := Machine.some_pair hset
      cases yes with
      | true =>
        refine ⟨⟨rfl, rfl, rfl, fun _ hp => hp, .inr rfl, silent_nil⟩, hmem, fun _ => ?_⟩
        rw [herase]
        exact waiting_of_none rfl
      | false =>
        refine ⟨⟨rfl, rfl, rfl, fun _ hp => hp, .inl rfl, silent_ended⟩, hmem, fun _ => ?_⟩
        rw [herase]
        exact waiting_ends s
    · next hne =>
      refine settles_of_settleExit hset ?_
      rw [hprompt]
      exact fun heq => hne (Option.some.inj heq).symm
  · next json p hphase =>
    have hprompt : s.phase.prompt = some p := by rw [hphase]; rfl
    split at hset
    · next heq =>
      subst heq
      obtain ⟨rfl, rfl⟩ := Machine.some_pair hset
      refine ⟨⟨rfl, rfl, rfl, fun _ hp => hp, .inr rfl, silent_nil⟩, ?_, fun _ => ?_⟩
      · rw [waiting_of_prompt hprompt]
        exact List.mem_cons_self
      · rw [waiting_of_prompt hprompt, List.erase_cons_head]
        exact waiting_of_none rfl
    · next hne =>
      refine settles_of_settleExit hset ?_
      rw [hprompt]
      exact fun heq => hne (Option.some.inj heq).symm
  · next hnotConfirming hnotAsking =>
    refine settles_of_settleExit hset ?_
    cases hphase : s.phase with
    | confirming result p => exact absurd hphase (hnotConfirming result p)
    | asking json p => exact absurd hphase (hnotAsking json p)
    | _ => exact nofun

/-- What waits can be settled. -/
theorem settle_isSome (hmem : prompt ∈ s.waiting) (yes : Bool) :
    (s.settle prompt yes).isSome = true := by
  have hexit : prompt ∈ s.exitPrompts → (settle.settleExit s prompt yes).isSome = true := by
    intro hp
    unfold settle.settleExit
    rw [if_pos hp]
    rfl
  unfold TerminalSession.settle
  split
  · next result p hphase =>
    split
    · rfl
    · next hne =>
      rw [waiting_of_prompt (p := p) (by rw [hphase]; rfl)] at hmem
      exact hexit ((List.mem_cons.mp hmem).resolve_left hne)
  · next json p hphase =>
    split
    · rfl
    · next hne =>
      rw [waiting_of_prompt (p := p) (by rw [hphase]; rfl)] at hmem
      exact hexit ((List.mem_cons.mp hmem).resolve_left hne)
  · next hnotConfirming hnotAsking =>
    refine hexit ?_
    rwa [waiting_of_none] at hmem
    cases hphase : s.phase with
    | confirming result p => exact absurd hphase (hnotConfirming result p)
    | asking json p => exact absurd hphase (hnotAsking json p)
    | _ => rfl

/-- The end of a command that waits for no answer. -/
theorem idles_ends (hprompt : s.phase.prompt = none) : Idles s s.ends.1 s.ends.2 where
  mode := rfl
  prompts := rfl
  slot := rfl
  exits := fun _ hp => hp
  buffer := .inl rfl
  silent := silent_ended
  waiting := fun _ => by rw [waiting_ends, waiting_of_none hprompt]

/-- The command goes on to where it waits for no answer. -/
theorem idles_of_eq (hprompt : s.phase.prompt = none) (hnext : s'.phase.prompt = none)
    (hmode : s'.simulationMode = s.simulationMode) (hprompts : s'.prompts = s.prompts)
    (hslot : s'.pendingConfirmation = s.pendingConfirmation)
    (hexits : s'.exitPrompts = s.exitPrompts) (hbuffer : s'.bufferedLine = s.bufferedLine)
    (hsilent : Silent es) : Idles s s' es where
  mode := hmode
  prompts := hprompts
  slot := hslot
  exits := fun p hp => hexits ▸ hp
  buffer := .inr hbuffer
  silent := hsilent
  waiting := fun _ => by rw [waiting_of_none hprompt, waiting_of_none hnext, hexits]

/-- The prompt of a result. -/
theorem confirmResult_cases (hprompt : s.phase.prompt = none) (result : ℕ) :
    Shows s (s.confirmResult result).1 (s.confirmResult result).2 ∨
      ShowsAnswered s (s.confirmResult result).1 (s.confirmResult result).2 := by
  unfold TerminalSession.confirmResult
  dsimp only
  split
  · next answer hsimulation hbuffered =>
    have hfull : s.bufferedLine ≠ none := by
      show s.bufferedLine ≠ none
      rw [show s.bufferedLine = some answer from hbuffered]
      exact nofun
    right
    cases hyes : isYes answer with
    | true =>
      exact ⟨hsimulation, hprompt, rfl, rfl, rfl, rfl, hfull, rfl,
        (waiting_of_none rfl).trans (waiting_of_none hprompt).symm, true, fun _ _ => rfl⟩
    | false =>
      exact ⟨hsimulation, hprompt, rfl, rfl, rfl, rfl, hfull, rfl,
        (waiting_of_none rfl).trans (waiting_of_none hprompt).symm, false, fun _ _ => rfl⟩
  · left
    refine ⟨rfl, rfl, rfl, fun _ => rfl, rfl, ?_, some result, rfl⟩
    rw [waiting_of_none hprompt]
    exact .of_eq (waiting_of_prompt rfl)

/-- A question before the dispatch. -/
theorem confirmQuestion_cases (hprompt : s.phase.prompt = none) (json : Bool) :
    Shows s (s.confirmQuestion json).1 (s.confirmQuestion json).2 ∨
      ShowsAnswered s (s.confirmQuestion json).1 (s.confirmQuestion json).2 := by
  unfold TerminalSession.confirmQuestion
  dsimp only
  split
  · next answer hsimulation hbuffered =>
    have hfull : s.bufferedLine ≠ none := by
      rw [show s.bufferedLine = some answer from hbuffered]
      exact nofun
    exact .inr ⟨hsimulation, hprompt, rfl, rfl, rfl, rfl, hfull, rfl, rfl, _, fun _ _ => rfl⟩
  · left
    refine ⟨rfl, rfl, rfl, fun _ => rfl, rfl, ?_, none, rfl⟩
    rw [waiting_of_none hprompt]
    exact .of_eq (waiting_of_prompt rfl)

/-- The prompt of `exit`, in live mode. -/
theorem shows_confirmExit (hlive : s.simulationMode = false) :
    Shows s s.confirmExit.1 s.confirmExit.2 where
  mode := rfl
  prompts := rfl
  slot := rfl
  exits := fun hsimulation => by rw [hlive] at hsimulation; cases hsimulation
  buffer := rfl
  waiting := List.perm_middle
  shown := ⟨none, rfl⟩

/-- After a dispatch a prompt is shown, or none. -/
theorem handleDispatched_cases (hprompt : s.phase.prompt = none) (json : Bool)
    (outcome : Dispatched) :
    Idles s (s.handleDispatched json outcome).1 (s.handleDispatched json outcome).2 ∨
      Shows s (s.handleDispatched json outcome).1 (s.handleDispatched json outcome).2 ∨
      ShowsAnswered s (s.handleDispatched json outcome).1 (s.handleDispatched json outcome).2 := by
  -- the flag is the only thing that `restoreIf` writes
  have hflag : ∃ isAgent, s.restoreIf json = { s with isAgent } := by
    cases json with
    | true => exact ⟨_, rfl⟩
    | false => exact ⟨_, rfl⟩
  obtain ⟨isAgent, hrestored⟩ := hflag
  unfold TerminalSession.handleDispatched
  rw [hrestored]
  cases outcome with
  | threw => exact .inl { idles_ends hprompt with }
  | result requiresConfirmation =>
    dsimp only
    split
    · split
      · exact .inl (idles_of_eq hprompt rfl rfl rfl rfl rfl rfl (silent_executed _))
      · exact .inl { idles_ends hprompt with }
    · split
      · exact .inl { idles_ends hprompt with }
      · split
        · rcases confirmResult_cases (s := { s with isAgent, results := s.results + 1 }) hprompt
            s.results with hshows | hshows
          · exact .inr (.inl { hshows with })
          · exact .inr (.inr { hshows with })
        · exact .inl { idles_ends hprompt with }

/-- Of the steps that are neither lines nor timeouts, each shows at most one prompt. -/
theorem step_cases {a : TerminalAction} (hs : s.step a = some (s', es))
    (hline : ∀ text command, a ≠ .line text command)
    (htimer : ∀ prompt, a ≠ .confirmTimedOut prompt) :
    Idles s s' es ∨ Shows s s' es ∨ ShowsAnswered s s' es := by
  unfold TerminalSession.step at hs
  split at hs
  · cases hs
  · exact absurd rfl (hline _ _)
  · exact absurd rfl (htimer _)
  · next json threw hphase =>
    have hprompt : s.phase.prompt = none := by rw [hphase]; rfl
    split at hs
    · obtain ⟨rfl, rfl⟩ := Machine.some_pair hs
      exact .inl (idles_ends hprompt)
    · obtain ⟨rfl, rfl⟩ := Machine.some_pair hs
      cases json with
      | true => exact .inl { idles_ends hprompt with }
      | false => exact .inl (idles_ends hprompt)
  · next json hphase =>
    obtain ⟨rfl, rfl⟩ := Machine.some_pair hs
    exact .inr (confirmQuestion_cases (by rw [hphase]; rfl) json)
  · next json hphase =>
    obtain ⟨rfl, rfl⟩ := Machine.some_pair hs
    exact .inl (idles_ends (by rw [hphase]; rfl))
  · next json hphase =>
    obtain ⟨rfl, rfl⟩ := Machine.some_pair hs
    have hprompt : s.phase.prompt = none := by rw [hphase]; rfl
    cases json with
    | true => exact .inl (idles_of_eq hprompt rfl rfl rfl rfl rfl rfl silent_nil)
    | false => exact .inl (idles_of_eq hprompt rfl rfl rfl rfl rfl rfl silent_nil)
  · next json outcome hphase =>
    obtain ⟨rfl, rfl⟩ := Machine.some_pair hs
    exact handleDispatched_cases (by rw [hphase]; rfl) json outcome
  · next result walletRebuilding hphase =>
    have hprompt : s.phase.prompt = none := by rw [hphase]; rfl
    split at hs
    · obtain ⟨rfl, rfl⟩ := Machine.some_pair hs
      exact .inl (idles_ends hprompt)
    · obtain ⟨rfl, rfl⟩ := Machine.some_pair hs
      exact .inl (idles_of_eq hprompt rfl rfl rfl rfl rfl rfl (silent_executed _))
  · next hphase =>
    obtain ⟨rfl, rfl⟩ := Machine.some_pair hs
    exact .inl (idles_ends (by rw [hphase]; rfl))
  · cases hs

/-- A line goes to the prompt in the slot; otherwise it may show the prompt of `exit`, and it
may be put into the buffer. -/
theorem handleLine_cases {text : List CodeUnit} {command : Command}
    (hline : s.handleLine text command = some (s', es)) :
    (∃ prompt yes events, s.pendingConfirmation = some prompt ∧
      Settles { s with pendingConfirmation := none } prompt s' events ∧
      es = .answered prompt yes false :: events) ∨
    s.pendingConfirmation = none ∧ (Idles s s' es ∨ Shows s s' es ∨
      s' = { s with bufferedLine := some (sanitizeLine text) } ∧ es = []) := by
  unfold TerminalSession.handleLine at hline
  split at hline
  · next prompt hpending =>
    obtain ⟨⟨s₁, es₁⟩, hset, hpair⟩ := Option.map_eq_some_iff.mp hline
    obtain ⟨rfl, rfl⟩ := Prod.mk.inj hpair
    exact .inl ⟨prompt, _, es₁, hpending, settles_of_settle hset, rfl⟩
  · next hpending =>
    refine .inr ⟨hpending, ?_⟩
    dsimp only at hline
    split at hline
    · obtain ⟨rfl, rfl⟩ := Machine.some_pair hline
      exact .inl ⟨⟨rfl, rfl, rfl, fun _ hp => hp, .inr rfl, silent_nil⟩, fun _ => rfl⟩
    · split at hline
      · split at hline
        · next hasks =>
          obtain ⟨rfl, rfl⟩ := Machine.some_pair hline
          have hlive : s.simulationMode = false := by
            rw [Bool.and_eq_true] at hasks
            exact Bool.not_eq_true' _ ▸ hasks.2
          exact .inr (.inl (shows_confirmExit hlive))
        · obtain ⟨rfl, rfl⟩ := Machine.some_pair hline
          exact .inl ⟨⟨rfl, rfl, rfl, fun _ hp => hp, .inr rfl, silent_nil⟩,
            fun hopen => absurd rfl hopen⟩
      · split at hline
        · obtain ⟨rfl, rfl⟩ := Machine.some_pair hline
          exact .inr (.inr ⟨rfl, rfl⟩)
        · next hidle =>
          obtain ⟨rfl, rfl⟩ := Machine.some_pair hline
          have hphase : s.phase = .idle := not_not.mp hidle
          have hprompt : s.phase.prompt = none := by rw [hphase]; rfl
          left
          unfold TerminalSession.handleInput
          cases command.doctor with
          | true =>
            cases command.json with
            | true => exact idles_of_eq hprompt rfl rfl rfl rfl rfl rfl silent_nil
            | false => exact idles_of_eq hprompt rfl rfl rfl rfl rfl rfl silent_nil
          | false => exact idles_of_eq hprompt rfl rfl rfl rfl rfl rfl silent_nil

theorem open_of_step {a : TerminalAction} (hs : s.step a = some (s', es)) :
    s.phase ≠ .closed := by
  intro hclosed
  unfold TerminalSession.step at hs
  rw [hclosed] at hs
  cases hs

theorem step_line (hopen : s.phase ≠ .closed) (text : List CodeUnit) (command : Command) :
    s.step (.line text command) = s.handleLine text command := by
  unfold TerminalSession.step
  cases hphase : s.phase with
  | closed => exact absurd hphase hopen
  | _ => rfl

theorem step_timer (hopen : s.phase ≠ .closed) (prompt : ℕ) :
    s.step (.confirmTimedOut prompt) =
      { s with pendingConfirmation := none }.settle prompt false := by
  unfold TerminalSession.step
  cases hphase : s.phase with
  | closed => exact absurd hphase hopen
  | _ => rfl

end PromptSession

end FlashEdge
