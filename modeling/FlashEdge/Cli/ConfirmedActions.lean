import FlashEdge.Cli.TerminalSession
import FlashEdge.Theory.Machine

/-!
# After a command the output mode is the human one, and actions were confirmed

In a session that was started without `NO_DNA` the flag is off whenever no command is
running, and the action of a result is executed after a yes to the prompt of that result
(`HumanAgain`). A dispatch restores the flag on every path. The `doctor` command restores
it after its diagnostics, but not if they throw: the flag stays on, and the next command
that gives a trade has it executed without a prompt. `humanAgain_iff` says that this is
the only way.
-/

namespace FlashEdge

namespace TerminalSession

/-! ## The property -/

/-- The prompt of this result was answered with yes. A line typed before the prompt was
shown is an answer in simulation only. -/
def Approved (simulationMode : Bool) (h : List TerminalEvent) (result : ℕ) : Prop :=
  ∃ prompt ahead pre post, h = pre ++ .prompted prompt (some result) :: post ∧
    .answered prompt true ahead ∈ post ∧ (ahead = true → simulationMode = true)

/-- Only the action of an approved result is executed. -/
def Asked (simulationMode : Bool) (h : List TerminalEvent) : TerminalEvent → Prop
  | .executed result => Approved simulationMode h result
  | _ => True

structure HumanAgain (simulationMode : Bool) (s : TerminalSession) (h : List TerminalEvent) :
    Prop where
  human : s.phase = .idle → s.isAgent = false
  asked : Each (Asked simulationMode) h

/-! ## The condition -/

/-- The diagnostics of `doctor --format json` do not end in an exception. -/
def DoctorReturns (s : TerminalSession) (_ : List TerminalEvent) (a : TerminalAction) : Prop :=
  ¬ (s.phase = .doctor true ∧ a = .doctorEnds true)

/-! ## The invariant -/

/-- The phases in which the output may be structured. -/
def Phase.structured : Phase → Bool
  | .doctor json => json
  | .dispatching json => json
  | .closed => true
  | _ => false

/-- The flag is on in these phases only, and in `doctor`; its slot keeps the human mode;
and what the command waits for is on record. -/
structure SessionInv (simulationMode : Bool) (s : TerminalSession) (h : List TerminalEvent) :
    Prop where
  mode : s.simulationMode = simulationMode
  saved : s.savedAgentState = false
  flag : s.isAgent = true → s.phase.structured = true
  doctor : s.phase = .doctor true → s.isAgent = true
  confirming : ∀ result prompt, s.phase = .confirming result prompt →
    .prompted prompt (some result) ∈ h
  confirmed : ∀ result, s.phase = .confirmed result → Approved simulationMode h result
  asked : Each (Asked simulationMode) h

variable {simulationMode : Bool} {s s' : TerminalSession} {h es : List TerminalEvent}

theorem Approved.append {result : ℕ} (ha : Approved simulationMode h result) :
    Approved simulationMode (h ++ es) result := by
  obtain ⟨prompt, ahead, pre, post, rfl, hmem, hsim⟩ := ha
  refine ⟨prompt, ahead, pre, post ++ es, ?_, List.mem_append_left _ hmem, hsim⟩
  rw [List.append_assoc, List.cons_append]

/-- A yes to a prompt that was shown for the result. -/
theorem Approved.of_answer {prompt result : ℕ} {ahead : Bool}
    (hp : .prompted prompt (some result) ∈ h) (hmem : .answered prompt true ahead ∈ es)
    (hsim : ahead = true → simulationMode = true) :
    Approved simulationMode (h ++ es) result := by
  obtain ⟨pre, post, rfl⟩ := List.append_of_mem hp
  refine ⟨prompt, ahead, pre, post ++ es, ?_, List.mem_append_right _ hmem, hsim⟩
  rw [List.append_assoc, List.cons_append]

/-- An event that is not an execution. -/
def TerminalEvent.silent : TerminalEvent → Bool
  | .executed _ => false
  | _ => true

theorem asked_silent (hasked : Each (Asked simulationMode) h)
    (hes : ∀ e ∈ es, e.silent = true) : Each (Asked simulationMode) (h ++ es) := by
  refine hasked.append_of_forall fun pre e he => ?_
  have hsilent := hes e he
  cases e with
  | executed result => cases hsilent
  | prompted prompt result => trivial
  | answered prompt yes typedAhead => trivial
  | ended => trivial

namespace SessionInv

/-- The flag is off in any other phase. -/
theorem human (hI : SessionInv simulationMode s h) (hp : s.phase.structured = false) :
    s.isAgent = false := by
  rw [← Bool.not_eq_true]
  intro hagent
  have hstructured := hI.flag hagent
  rw [hp] at hstructured
  cases hstructured

/-- Prompts and the buffered line say nothing about the flag and the command. -/
theorem frame (hI : SessionInv simulationMode s h) (hmode : s'.simulationMode = s.simulationMode)
    (hsaved : s'.savedAgentState = s.savedAgentState) (hagent : s'.isAgent = s.isAgent)
    (hphase : s'.phase = s.phase) (hes : ∀ e ∈ es, e.silent = true) :
    SessionInv simulationMode s' (h ++ es) where
  mode := hmode.trans hI.mode
  saved := hsaved.trans hI.saved
  flag := by rw [hagent, hphase]; exact hI.flag
  doctor := by rw [hagent, hphase]; exact hI.doctor
  confirming := by
    intro result prompt hp
    rw [hphase] at hp
    exact List.mem_append_left _ (hI.confirming result prompt hp)
  confirmed := by
    intro result hp
    rw [hphase] at hp
    exact (hI.confirmed result hp).append
  asked := asked_silent hI.asked hes

/-- The session ends. -/
theorem close (hI : SessionInv simulationMode s h) (hmode : s'.simulationMode = s.simulationMode)
    (hsaved : s'.savedAgentState = s.savedAgentState) (hphase : s'.phase = .closed)
    (hes : ∀ e ∈ es, e.silent = true) : SessionInv simulationMode s' (h ++ es) where
  mode := hmode.trans hI.mode
  saved := hsaved.trans hI.saved
  flag := fun _ => by rw [hphase]; rfl
  doctor := fun hp => by rw [hphase] at hp; cases hp
  confirming := fun _ _ hp => by rw [hphase] at hp; cases hp
  confirmed := fun _ hp => by rw [hphase] at hp; cases hp
  asked := asked_silent hI.asked hes

/-- A command goes on, or ends, in the human mode. -/
theorem proceed (hmode : s'.simulationMode = simulationMode) (hsaved : s'.savedAgentState = false)
    (hagent : s'.isAgent = false) (hdoctor : s'.phase ≠ .doctor true)
    (hconfirming : ∀ result prompt, s'.phase = .confirming result prompt →
      .prompted prompt (some result) ∈ h)
    (hconfirmed : ∀ result, s'.phase = .confirmed result → Approved simulationMode h result)
    (hasked : Each (Asked simulationMode) h) : SessionInv simulationMode s' h where
  mode := hmode
  saved := hsaved
  flag := fun hon => by rw [hagent] at hon; cases hon
  doctor := fun hp => absurd hp hdoctor
  confirming := hconfirming
  confirmed := hconfirmed
  asked := hasked

end SessionInv

/-! ## What each part keeps -/

/-- The human mode, with nothing said about the command. -/
structure Human (simulationMode : Bool) (s : TerminalSession) : Prop where
  mode : s.simulationMode = simulationMode
  saved : s.savedAgentState = false
  flag : s.isAgent = false

theorem SessionInv.toHuman (hI : SessionInv simulationMode s h)
    (hp : s.phase.structured = false) : Human simulationMode s :=
  ⟨hI.mode, hI.saved, hI.human hp⟩

/-- From the human mode into a phase that waits for no answer. -/
theorem Human.inv (hs : Human simulationMode s) (hasked : Each (Asked simulationMode) h)
    (hdoctor : s.phase ≠ .doctor true) (hconfirming : ∀ result prompt, s.phase ≠
      .confirming result prompt) (hconfirmed : ∀ result, s.phase ≠ .confirmed result) :
    SessionInv simulationMode s h := by
  apply SessionInv.proceed hs.mode hs.saved hs.flag hdoctor
  · intro result prompt hp
    exact absurd hp (hconfirming result prompt)
  · intro result hp
    exact absurd hp (hconfirmed result)
  · exact hasked

/-- The end of a command. -/
theorem Human.ends (hs : Human simulationMode s) (hasked : Each (Asked simulationMode) h) :
    SessionInv simulationMode s.ends.1 (h ++ s.ends.2) := by
  refine Human.inv ⟨hs.mode, hs.saved, hs.flag⟩ ?_ ?_ ?_ ?_
  · exact asked_silent hasked (by simp [TerminalSession.ends, TerminalEvent.silent])
  · exact fun hp => nomatch hp
  · exact fun _ _ hp => nomatch hp
  · exact fun _ hp => nomatch hp

/-- The action of a result is executed if the result was approved. -/
theorem Human.executes (hs : Human simulationMode s) (hasked : Each (Asked simulationMode) h)
    {result : ℕ} (happroved : Approved simulationMode h result) :
    SessionInv simulationMode { s with phase := .executing }
      (h ++ [TerminalEvent.executed result]) := by
  refine Human.inv ⟨hs.mode, hs.saved, hs.flag⟩ ?_ ?_ ?_ ?_
  · exact hasked.snoc happroved
  · exact fun hp => nomatch hp
  · exact fun _ _ hp => nomatch hp
  · exact fun _ hp => nomatch hp

/-- The answer to a prompt that was shown for the result. -/
theorem Human.resultAnswered (hs : Human simulationMode s)
    (hasked : Each (Asked simulationMode) h) {result prompt : ℕ} {yes ahead : Bool}
    (hp : .prompted prompt (some result) ∈ h) (hsim : ahead = true → simulationMode = true) :
    SessionInv simulationMode (s.resultAnswered result yes).1
      (h ++ .answered prompt yes ahead :: (s.resultAnswered result yes).2) := by
  have hanswered : Each (Asked simulationMode) (h ++ [TerminalEvent.answered prompt yes ahead]) :=
    asked_silent hasked (by simp [TerminalEvent.silent])
  cases yes with
  | true =>
    have happroved : Approved simulationMode
        (h ++ [TerminalEvent.answered prompt true ahead]) result :=
      Approved.of_answer hp List.mem_cons_self hsim
    refine SessionInv.proceed hs.mode hs.saved hs.flag ?_ ?_ ?_ ?_
    · exact fun hphase => nomatch hphase
    · exact fun _ _ hphase => nomatch hphase
    · rintro r hphase
      obtain rfl : result = r := Phase.confirmed.inj hphase
      exact happroved
    · exact hanswered
  | false =>
    have hends := hs.ends hanswered
    rw [List.append_assoc, List.singleton_append] at hends
    exact hends

/-- The prompt of a result. -/
theorem Human.confirmResult (hs : Human simulationMode s)
    (hasked : Each (Asked simulationMode) h) (result : ℕ) :
    SessionInv simulationMode (s.confirmResult result).1 (h ++ (s.confirmResult result).2) := by
  have hprompted : Each (Asked simulationMode)
      (h ++ [TerminalEvent.prompted s.prompts (some result)]) :=
    asked_silent hasked (by simp [TerminalEvent.silent])
  have hshown : .prompted s.prompts (some result) ∈
      h ++ [TerminalEvent.prompted s.prompts (some result)] :=
    List.mem_append_right _ List.mem_cons_self
  unfold TerminalSession.confirmResult
  dsimp only
  split
  · next answer hsimulation hbuffered =>
    -- a line typed ahead is the answer
    have hsim : simulationMode = true := hs.mode.symm.trans hsimulation
    have hnext : Human simulationMode { s with prompts := s.prompts + 1, bufferedLine := none } :=
      ⟨hs.mode, hs.saved, hs.flag⟩
    have hanswered : SessionInv simulationMode _
        (_ ++ .answered s.prompts (isYes answer) true :: _) :=
      hnext.resultAnswered hprompted hshown fun _ => hsim
    rw [List.append_assoc, List.singleton_append] at hanswered
    exact hanswered
  · refine SessionInv.proceed hs.mode hs.saved hs.flag ?_ ?_ ?_ ?_
    · exact fun hphase => nomatch hphase
    · rintro r p hphase
      obtain ⟨rfl, rfl⟩ := Phase.confirming.inj hphase
      exact hshown
    · exact fun _ hphase => nomatch hphase
    · exact hprompted

/-- A question before the dispatch. -/
theorem Human.confirmQuestion (hs : Human simulationMode s)
    (hasked : Each (Asked simulationMode) h) {json : Bool} (hphase : s.phase = .preparing json) :
    SessionInv simulationMode (s.confirmQuestion json).1 (h ++ (s.confirmQuestion json).2) := by
  unfold TerminalSession.confirmQuestion
  dsimp only
  split
  · refine Human.inv ⟨hs.mode, hs.saved, hs.flag⟩ ?_ ?_ ?_ ?_
    · exact asked_silent hasked (by simp [TerminalEvent.silent])
    all_goals simp [hphase]
  · refine Human.inv ⟨hs.mode, hs.saved, hs.flag⟩ ?_ ?_ ?_ ?_
    · exact asked_silent hasked (by simp [TerminalEvent.silent])
    all_goals simp

/-- `handleInput` starts a command in the human mode. -/
theorem Human.handleInput (hs : Human simulationMode s) (hasked : Each (Asked simulationMode) h)
    (command : Command) : SessionInv simulationMode (s.handleInput command) h := by
  unfold TerminalSession.handleInput
  by_cases hdoctor : command.doctor = true
  · rw [if_pos hdoctor]
    cases hjson : command.json with
    | true =>
      -- the slot keeps the human mode
      exact {
        mode := hs.mode
        saved := hs.flag
        flag := fun _ => rfl
        doctor := fun _ => rfl
        confirming := fun _ _ hp => nomatch hp
        confirmed := fun _ hp => nomatch hp
        asked := hasked }
    | false =>
      refine Human.inv ⟨hs.mode, hs.saved, hs.flag⟩ hasked ?_ ?_ ?_
      all_goals simp
  · rw [if_neg hdoctor]
    refine Human.inv ⟨hs.mode, hs.saved, hs.flag⟩ hasked ?_ ?_ ?_
    all_goals simp

/-- The tool runs in the mode that the command asks for. -/
theorem Human.dispatches (hs : Human simulationMode s) (hasked : Each (Asked simulationMode) h)
    (json : Bool) :
    SessionInv simulationMode { s.enableIf json with phase := .dispatching json } h := by
  cases json with
  | true =>
    exact {
      mode := hs.mode
      saved := hs.flag
      flag := fun _ => rfl
      doctor := fun hp => nomatch hp
      confirming := fun _ _ hp => nomatch hp
      confirmed := fun _ hp => nomatch hp
      asked := hasked }
  | false =>
    refine Human.inv ⟨hs.mode, hs.saved, hs.flag⟩ hasked ?_ ?_ ?_
    all_goals simp

/-- What was switched on is switched off again. -/
theorem SessionInv.restores (hI : SessionInv simulationMode s h) {json : Bool}
    (hphase : s.phase = .doctor json ∨ s.phase = .dispatching json) :
    Human simulationMode (s.restoreIf json) := by
  cases json with
  | true => exact ⟨hI.mode, hI.saved, hI.saved⟩
  | false =>
    have hoff : s.phase.structured = false := by
      rcases hphase with hp | hp
      · rw [hp]; rfl
      · rw [hp]; rfl
    exact hI.toHuman hoff

/-- After a dispatch nobody but the user confirms. -/
theorem SessionInv.handleDispatched (hI : SessionInv simulationMode s h) {json : Bool}
    (hphase : s.phase = .dispatching json) (outcome : Dispatched) :
    SessionInv simulationMode (s.handleDispatched json outcome).1
      (h ++ (s.handleDispatched json outcome).2) := by
  have hs := hI.restores (.inr hphase)
  cases outcome with
  | threw => exact hs.ends hI.asked
  | result requiresConfirmation =>
    unfold TerminalSession.handleDispatched
    generalize s.restoreIf json = r at hs
    have hnext : Human simulationMode { r with results := r.results + 1 } :=
      ⟨hs.mode, hs.saved, hs.flag⟩
    have hnotAgent : ¬ r.isAgent = true := by rw [hs.flag]; decide
    dsimp only
    rw [if_neg hnotAgent]
    by_cases hjson : json = true
    · rw [if_pos hjson]
      exact hnext.ends hI.asked
    · rw [if_neg hjson]
      by_cases hrequires : requiresConfirmation = true
      · rw [if_pos hrequires]
        exact hnext.confirmResult hI.asked _
      · rw [if_neg hrequires]
        exact hnext.ends hI.asked

/-- A prompt of `exit` ends the session or nothing. -/
theorem SessionInv.settleExit (hI : SessionInv simulationMode s h) {prompt : ℕ} {yes : Bool}
    (hset : settle.settleExit s prompt yes = some (s', es)) {before : List TerminalEvent}
    (hbefore : ∀ e ∈ before, e.silent = true) :
    SessionInv simulationMode s' (h ++ (before ++ es)) := by
  unfold settle.settleExit at hset
  split at hset
  · obtain ⟨rfl, rfl⟩ := Machine.some_pair hset
    rw [List.append_nil]
    cases yes with
    | true => exact hI.close rfl rfl rfl hbefore
    | false => exact hI.frame rfl rfl rfl rfl hbefore
  · cases hset

/-- A prompt that is answered, or times out. -/
theorem SessionInv.settle (hI : SessionInv simulationMode s h) {prompt : ℕ} {yes : Bool}
    (hset : s.settle prompt yes = some (s', es)) {before : List TerminalEvent}
    (hbefore : before = [.answered prompt yes false] ∨ before = [] ∧ yes = false) :
    SessionInv simulationMode s' (h ++ (before ++ es)) := by
  have hsilent : ∀ e ∈ before, e.silent = true := by
    rcases hbefore with rfl | ⟨rfl, -⟩
    · simp [TerminalEvent.silent]
    · simp
  unfold TerminalSession.settle at hset
  split at hset
  · next result p hphase =>
    split at hset
    · next heq =>
      subst heq
      have hs := hI.toHuman (by rw [hphase]; rfl)
      obtain ⟨rfl, rfl⟩ := Machine.some_pair hset
      rcases hbefore with rfl | ⟨rfl, rfl⟩
      · have hshown := hI.confirming result prompt hphase
        exact hs.resultAnswered hI.asked hshown fun hahead => nomatch hahead
      · exact hs.ends hI.asked
    · exact hI.settleExit hset hsilent
  · next json p hphase =>
    split at hset
    · have hs := hI.toHuman (by rw [hphase]; rfl)
      obtain ⟨rfl, rfl⟩ := Machine.some_pair hset
      rw [List.append_nil]
      refine Human.inv ⟨hs.mode, hs.saved, hs.flag⟩ (asked_silent hI.asked hsilent) ?_ ?_ ?_
      all_goals simp
    · exact hI.settleExit hset hsilent
  · exact hI.settleExit hset hsilent

/-- A line. -/
theorem SessionInv.handleLine (hI : SessionInv simulationMode s h) {text : List CodeUnit}
    {command : Command} (hline : s.handleLine text command = some (s', es)) :
    SessionInv simulationMode s' (h ++ es) := by
  unfold TerminalSession.handleLine at hline
  split at hline
  · next prompt hpending =>
    -- to the prompt that is pending
    obtain ⟨⟨s₁, es₁⟩, hset, hpair⟩ := Option.map_eq_some_iff.mp hline
    obtain ⟨rfl, rfl⟩ := Prod.mk.inj hpair
    have hopen : SessionInv simulationMode { s with pendingConfirmation := none } (h ++ []) :=
      hI.frame rfl rfl rfl rfl (by simp)
    rw [List.append_nil] at hopen
    exact hopen.settle hset (.inl rfl)
  · dsimp only at hline
    split at hline
    · obtain ⟨rfl, rfl⟩ := Machine.some_pair hline
      exact hI.frame rfl rfl rfl rfl (by simp)
    · split at hline
      · split at hline
        · obtain ⟨rfl, rfl⟩ := Machine.some_pair hline
          exact hI.frame rfl rfl rfl rfl (by simp [confirmExit, TerminalEvent.silent])
        · obtain ⟨rfl, rfl⟩ := Machine.some_pair hline
          exact hI.close rfl rfl rfl (by simp)
      · split at hline
        · obtain ⟨rfl, rfl⟩ := Machine.some_pair hline
          exact hI.frame rfl rfl rfl rfl (by simp)
        · next hidle =>
          obtain ⟨rfl, rfl⟩ := Machine.some_pair hline
          rw [List.append_nil]
          have hphase : s.phase = .idle := not_not.mp hidle
          exact (hI.toHuman (by rw [hphase]; rfl)).handleInput hI.asked command

/-! ## Every run -/

theorem SessionInv.init (simulationMode : Bool) :
    SessionInv simulationMode (terminalSession simulationMode).init [] where
  mode := rfl
  saved := rfl
  flag := fun hon => nomatch hon
  doctor := fun hp => nomatch hp
  confirming := fun _ _ hp => nomatch hp
  confirmed := fun _ hp => nomatch hp
  asked := Each.nil

theorem SessionInv.humanAgain (hI : SessionInv simulationMode s h) :
    HumanAgain simulationMode s h where
  human := fun hidle => hI.human (by rw [hidle]; rfl)
  asked := hI.asked

/-- Every step but the exception of `doctor` keeps the invariant. -/
theorem SessionInv.step (hI : SessionInv simulationMode s h) {a : TerminalAction}
    (hgood : DoctorReturns s h a) (hs : s.step a = some (s', es)) :
    SessionInv simulationMode s' (h ++ es) := by
  unfold TerminalSession.step at hs
  split at hs
  · cases hs
  · exact hI.handleLine hs
  · have hopen : SessionInv simulationMode { s with pendingConfirmation := none } (h ++ []) :=
      hI.frame rfl rfl rfl rfl (by simp)
    rw [List.append_nil] at hopen
    exact hopen.settle hs (.inr ⟨rfl, rfl⟩)
  · next json threw hphase =>
    split at hs
    · next hthrew =>
      -- without `--format json` nothing was switched on
      have hjson : json = false := by
        cases json with
        | true => exact absurd ⟨hphase, by rw [hthrew]⟩ hgood
        | false => rfl
      subst hjson
      obtain ⟨rfl, rfl⟩ := Machine.some_pair hs
      exact (hI.toHuman (by rw [hphase]; rfl)).ends hI.asked
    · obtain ⟨rfl, rfl⟩ := Machine.some_pair hs
      exact (hI.restores (.inl hphase)).ends hI.asked
  · next json hphase =>
    obtain ⟨rfl, rfl⟩ := Machine.some_pair hs
    exact (hI.toHuman (by rw [hphase]; rfl)).confirmQuestion hI.asked hphase
  · next json hphase =>
    obtain ⟨rfl, rfl⟩ := Machine.some_pair hs
    exact (hI.toHuman (by rw [hphase]; rfl)).ends hI.asked
  · next json hphase =>
    obtain ⟨rfl, rfl⟩ := Machine.some_pair hs
    rw [List.append_nil]
    exact (hI.toHuman (by rw [hphase]; rfl)).dispatches hI.asked json
  · next json outcome hphase =>
    obtain ⟨rfl, rfl⟩ := Machine.some_pair hs
    exact hI.handleDispatched hphase outcome
  · next result walletRebuilding hphase =>
    have hhuman := hI.toHuman (by rw [hphase]; rfl)
    split at hs
    · obtain ⟨rfl, rfl⟩ := Machine.some_pair hs
      exact hhuman.ends hI.asked
    · obtain ⟨rfl, rfl⟩ := Machine.some_pair hs
      exact hhuman.executes hI.asked (hI.confirmed result hphase)
  · next hphase =>
    obtain ⟨rfl, rfl⟩ := Machine.some_pair hs
    exact (hI.toHuman (by rw [hphase]; rfl)).ends hI.asked
  · cases hs

/-- The exception leaves the structured mode on. -/
theorem not_humanAgain_of_throw (hI : SessionInv simulationMode s h) {a : TerminalAction}
    (hbad : ¬ DoctorReturns s h a) (hs : s.step a = some (s', es)) :
    ¬ HumanAgain simulationMode s' (h ++ es) := by
  obtain ⟨hphase, rfl⟩ := not_not.mp hbad
  have hon := hI.doctor hphase
  have hends : s.step (.doctorEnds true) = some s.ends := by
    unfold TerminalSession.step
    rw [hphase]
    rfl
  obtain ⟨rfl, -⟩ := Machine.some_pair (hends.symm.trans hs)
  intro hagain
  exact absurd (hagain.human rfl) (by rw [TerminalSession.ends, hon]; decide)

/-- **The human mode and the prompts.** In every session, live or simulated, the output is
the human one after each command and every executed action was approved exactly as long
as no `doctor --format json` ends in an exception. -/
theorem humanAgain_iff (simulationMode : Bool) (as : List TerminalAction) :
    (terminalSession simulationMode).Always (HumanAgain simulationMode)
        (terminalSession simulationMode).init [] as ↔
      (terminalSession simulationMode).Along DoctorReturns
        (terminalSession simulationMode).init [] as :=
  Machine.always_iff_along (M := terminalSession simulationMode) (P := HumanAgain simulationMode)
    (fun hI => SessionInv.humanAgain hI) (fun hI hgood hs => SessionInv.step hI hgood hs)
    (fun hI hbad hs => not_humanAgain_of_throw hI hbad hs) (SessionInv.init simulationMode) as

/-! ## The diagnostics throw -/

/-- `doctor --format json` in a live session throws, and then `close sol long` is
dispatched and gives a result to confirm. -/
def afterDoctor : List TerminalAction :=
  [.line (units "doctor --format json") { json := true, doctor := true }, .doctorEnds true,
    .line (units "close sol long") {}, .dispatches, .dispatched (.result true)]

/-- The mode stays structured, and the action is executed without a prompt. -/
theorem not_humanAgain :
    ∃ s s', (terminalSession false).run (afterDoctor.take 2) = some (s, [.ended]) ∧
      (terminalSession false).run afterDoctor = some (s', [.ended, .executed 0]) ∧
      ¬ HumanAgain false s [.ended] ∧ ¬ HumanAgain false s' [.ended, .executed 0] := by
  refine ⟨_, _, rfl, rfl, ?_, ?_⟩
  · intro hagain
    exact absurd (hagain.human rfl) (by decide)
  · intro hagain
    obtain ⟨prompt, ahead, pre, post, hsplit, -⟩ :=
      hagain.asked [.ended] (.executed 0) [] rfl
    have hmem : .prompted prompt (some 0) ∈ [TerminalEvent.ended] := by
      rw [hsplit]
      exact List.mem_append_right _ List.mem_cons_self
    simp at hmem

end TerminalSession

end FlashEdge
