import FlashEdge.Core.Submission
import FlashEdge.Theory.Machine

/-!
# Whether a transaction is simulated before it is sent

The engine simulates a transaction before its broadcast, so that a transaction
the program would reject is never sent (`SimulatedFirst`). The simulation is tied
to the number of the attempt, though, not to what the first attempt got done: when
that attempt fails before its simulation, the second one sends what nobody has
simulated (`not_simulatedFirst`). The same happens after a simulation that *throws*
a failure: `simulationCatch` takes it for a program error, and the loop does not.

`simulatedFirst_iff` is the exact condition: no transaction of a retry is built
after a first attempt that failed before its broadcast.
-/

namespace FlashEdge

/-- What is seen of a submission and its simulation. -/
inductive PipelineEvent where
  | simulationRequested
  | simulationReported (programError : Option String)
  | attemptFailed (attempt : ℕ) (phase : SubmissionPhase)
  | transaction (e : SubmissionEvent)
deriving DecidableEq, Repr

/-- The wallet the engine has when the answer arrives, and the answer. -/
structure PipelineAction where
  wallet : String
  reply : Reply

/-- A phase of an attempt before its broadcast. -/
def SubmissionPhase.beforeBroadcast : SubmissionPhase → Bool
  | .lateStatus _ => true
  | .blockhash => true
  | .priorityFee _ => true
  | .simulation _ _ => true
  | _ => false

/-- A phase of an attempt from its broadcast on. -/
def SubmissionPhase.underway : SubmissionPhase → Bool
  | .broadcast _ => true
  | .confirmation _ => true
  | _ => false

def SubmissionPhase.isSimulation : SubmissionPhase → Bool
  | .simulation _ _ => true
  | _ => false

/-- The program error of a simulation's result. -/
def programError : Except String (Option ℕ) → Option String
  | .error eMsg => some eMsg
  | .ok _ => none

namespace Submission

/-- What the simulation says, if it is its answer that arrives. -/
def simulationReport (s : Submission) (r : Reply) : List PipelineEvent :=
  match s.phase, r with
  | .simulation _ _, .simulation value =>
    [.simulationReported (programError (simulateTransaction value))]
  | .simulation _ _, .throws simMsg =>
    [.simulationReported (programError (simulationCatch simMsg))]
  | _, _ => []

/-- One answer, with what is seen of it. -/
def pipelineStep (config : TxEngineConfig) (s : Submission) (a : PipelineAction) :
    Option (Submission × List PipelineEvent) :=
  (s.step config a.wallet a.reply).map fun p =>
    (p.1, s.simulationReport a.reply ++
      (if p.1.attempt = s.attempt then [] else [.attemptFailed s.attempt s.phase]) ++
      p.2.map .transaction ++
      (if p.1.phase.isSimulation then [.simulationRequested] else []))

end Submission

/-- One submission with its simulation, from its start. -/
def pipeline (config : TxEngineConfig) (instructions : List TransactionInstruction)
    (computeUnitLimitOverride : Option ℕ) : Machine Submission PipelineAction PipelineEvent where
  init := { instructions, computeUnitLimitOverride }
  step := Submission.pipelineStep config

namespace Pipeline

/-- A simulation has been attempted before the event, if it is a broadcast. -/
def SimulationAttempted (h : List PipelineEvent) : PipelineEvent → Prop
  | .transaction (.broadcast _ _) => .simulationRequested ∈ h
  | _ => True

/-- A simulation has reported a program error. -/
def Rejected (h : List PipelineEvent) : Prop :=
  ∃ eMsg, .simulationReported (some eMsg) ∈ h

/-- Something was sent. -/
def Sent (h : List PipelineEvent) : Prop :=
  ∃ attempt tx, .transaction (.broadcast attempt tx) ∈ h

/-- Nothing is sent before a simulation was attempted, and nothing at all if the
simulation reports a program error. -/
structure SimulatedFirst (h : List PipelineEvent) : Prop where
  attempted : Each SimulationAttempted h
  rejected : Rejected h → ¬ Sent h

/-- The first attempt has failed before its broadcast. -/
def FailedUnsent (h : List PipelineEvent) : Prop :=
  ∃ phase : SubmissionPhase, phase.beforeBroadcast = true ∧ .attemptFailed 1 phase ∈ h

/-- The fee for a retry does not arrive after a first attempt that failed before
its broadcast. -/
def RetriesSent (s : Submission) (h : List PipelineEvent) (a : PipelineAction) : Prop :=
  ∀ fee, a.reply = .priorityFee fee → s.attempt ≠ 1 → ¬ FailedUnsent h

/-! ## A transaction nobody has simulated -/

/-- The first blockhash request fails, and the second attempt goes through. -/
def lostBlockhash : List PipelineAction :=
  [⟨"wallet", .throws "fetch failed"⟩,
    ⟨"wallet", .blockhash { blockhash := "A", lastValidBlockHeight := 150 }⟩,
    ⟨"wallet", .priorityFee 100000⟩]

/-- A submission is sent without a simulation. -/
theorem not_simulatedFirst :
    ¬ ∀ s h, (pipeline {} [] none).Reachable s h → SimulatedFirst h := by
  intro hall
  let tx : SignedTransaction :=
    { signature := buildTransaction "wallet" [] 220000 100000 "A", lastValidBlockHeight := 150 }
  have hrun : ((pipeline {} [] none).run lostBlockhash).map (fun r => r.2) =
      some [.attemptFailed 1 .blockhash, .transaction (.signed 2 tx),
        .transaction (.broadcast 2 tx)] := by
    decide +kernel
  obtain ⟨⟨s, h⟩, hs, rfl⟩ := Option.map_eq_some_iff.mp hrun
  have hfirst := (hall s _ (Machine.reachable_of_run hs)).attempted
  have hattempted : SimulationAttempted [.attemptFailed 1 .blockhash, .transaction (.signed 2 tx)]
      (.transaction (.broadcast 2 tx)) :=
    hfirst _ _ [] rfl
  exact absurd hattempted (by simp [SimulationAttempted])

/-! ## Errors that end the submission -/

/-! ## What one answer does -/

variable {config : TxEngineConfig} {s s' : Submission} {h es : List PipelineEvent}

/-- The report of a failed attempt: an error, if it failed in its simulation. -/
def FailureReport (s : Submission) (report : List PipelineEvent) : Prop :=
  (s.phase.isSimulation = false ∧ report = []) ∨
    (s.phase.isSimulation = true ∧ ∃ eMsg, report = [.simulationReported (some eMsg)])

/-- What the step of an answer is. -/
inductive AnswerEffect (s s' : Submission) (r : Reply) : List PipelineEvent → Prop where
  /-- The attempt goes on, or the submission ends, with nothing to see. -/
  | waits (attempt : s'.attempt = s.attempt) (phase : s'.phase.isSimulation = false)
      (before : s'.phase.beforeBroadcast = true →
        s.phase.beforeBroadcast = true ∧ s.phase.isSimulation = false)
      (underway : s'.phase.underway = true → s.phase.underway = true) :
      AnswerEffect s s' r []
  /-- The attempt fails, and the submission with it. -/
  | ends (attempt : s'.attempt = s.attempt) (before : s'.phase.beforeBroadcast = false)
      (underway : s'.phase.underway = false) {report : List PipelineEvent}
      (failure : FailureReport s report) :
      AnswerEffect s s' r report
  /-- The attempt fails, and the next one begins. -/
  | retries (attempt : s'.attempt = s.attempt + 1) (phase : s'.phase.isSimulation = false)
      (before : s.phase.beforeBroadcast = true ∨ s.phase.underway = true)
      {report : List PipelineEvent} (failure : FailureReport s report) :
      AnswerEffect s s' r (report ++ [.attemptFailed s.attempt s.phase])
  /-- The first attempt is simulated. -/
  | simulates (first : s.attempt = 1) (attempt : s'.attempt = s.attempt)
      (before : s.phase.beforeBroadcast = true) (phase' : s'.phase.isSimulation = true)
      (before' : s'.phase.beforeBroadcast = true) (tx : SignedTransaction) :
      AnswerEffect s s' r [.transaction (.signed s.attempt tx), .simulationRequested]
  /-- A retry is sent. -/
  | resends (fee : ℕ) (reply : r = .priorityFee fee) (retry : s.attempt ≠ 1)
      (attempt : s'.attempt = s.attempt) (phase : s.phase.isSimulation = false)
      (underway : s'.phase.underway = true) (tx : SignedTransaction) :
      AnswerEffect s s' r
        [.transaction (.signed s.attempt tx), .transaction (.broadcast s.attempt tx)]
  /-- The simulation has nothing against the transaction. -/
  | passes (attempt : s'.attempt = s.attempt) (phase : s.phase.isSimulation = true)
      (underway : s'.phase.underway = true) (resigned : Bool) (tx : SignedTransaction) :
      AnswerEffect s s' r
        ([.simulationReported none] ++
          (if resigned then [.transaction (.signed s.attempt tx)] else []) ++
          [.transaction (.broadcast s.attempt tx)])

/-- No phase is a simulation, or before a broadcast, and from a broadcast on. -/
theorem underway_excludes {phase : SubmissionPhase} (hu : phase.underway = true) :
    phase.beforeBroadcast = false ∧ phase.isSimulation = false := by
  cases phase with
  | broadcast tx => exact ⟨rfl, rfl⟩
  | confirmation tx => exact ⟨rfl, rfl⟩
  | _ => cases hu

theorem isSimulation_beforeBroadcast {phase : SubmissionPhase}
    (hs : phase.isSimulation = true) : phase.beforeBroadcast = true := by
  cases phase with
  | simulation bh fee => rfl
  | _ => cases hs

/-- Everything seen of an answer that leads to these events. -/
def seen (s s' : Submission) (r : Reply) (out : List SubmissionEvent) : List PipelineEvent :=
  s.simulationReport r ++
    (if s'.attempt = s.attempt then [] else [.attemptFailed s.attempt s.phase])
    ++ out.map .transaction ++ (if s'.phase.isSimulation then [.simulationRequested] else [])

theorem simulationReport_nil (r : Reply) (hsim : s.phase.isSimulation = false) :
    s.simulationReport r = [] := by
  unfold Submission.simulationReport
  split
  · next hphase =>
    rw [hphase] at hsim
    cases hsim
  · next hphase =>
    rw [hphase] at hsim
    cases hsim
  · rfl

/-- A failed attempt ends the submission or begins the next attempt. -/
theorem failAttempt_cases (s : Submission) (eMsg : String) :
    (s.failAttempt eMsg).phase.isSimulation = false ∧
      (((s.failAttempt eMsg).attempt = s.attempt ∧
          (s.failAttempt eMsg).phase.beforeBroadcast = false ∧
          (s.failAttempt eMsg).phase.underway = false) ∨
        (s.failAttempt eMsg).attempt = s.attempt + 1) := by
  unfold Submission.failAttempt
  split
  · exact ⟨rfl, .inl ⟨rfl, rfl, rfl⟩⟩
  split
  · refine ⟨?_, .inr rfl⟩
    cases s.lastSignature <;> rfl
  · exact ⟨rfl, .inl ⟨rfl, rfl, rfl⟩⟩

/-- The step of a failed attempt, whatever it failed with. -/
theorem answerEffect_failAttempt (s : Submission) (r : Reply) (eMsg : String)
    (hphase : s.phase.beforeBroadcast = true ∨ s.phase.underway = true)
    {report : List PipelineEvent} (hreport : FailureReport s report) :
    AnswerEffect s (s.failAttempt eMsg) r
      (report ++ (if (s.failAttempt eMsg).attempt = s.attempt then []
        else [.attemptFailed s.attempt s.phase])) := by
  obtain ⟨hsim, ⟨hattempt, hbefore, hunderway⟩ | hattempt⟩ := failAttempt_cases s eMsg
  · rw [if_pos hattempt, List.append_nil]
    exact .ends hattempt hbefore hunderway hreport
  · rw [if_neg (by omega)]
    exact .retries hattempt hsim hphase hreport

theorem answerEffect_feeArrived (s : Submission) (wallet : String) {bh : LatestBlockhash}
    {fee : ℕ} (hphase : s.phase = .priorityFee bh) :
    AnswerEffect s (s.feeArrived config wallet bh fee).1 (.priorityFee fee)
      (seen s (s.feeArrived config wallet bh fee).1 (.priorityFee fee)
        (s.feeArrived config wallet bh fee).2) := by
  have hbefore : s.phase.beforeBroadcast = true := by rw [hphase]; rfl
  have hsim : s.phase.isSimulation = false := by rw [hphase]; rfl
  let tx := s.sign wallet (s.effectiveCuLimit config) bh fee
  by_cases hfirst : s.attempt = 1
  · have harrived : s.feeArrived config wallet bh fee =
        ({ s with phase := .simulation bh fee }, [.signed s.attempt tx]) := if_pos hfirst
    rw [harrived]
    have hseen : seen s { s with phase := .simulation bh fee } (.priorityFee fee)
        [.signed s.attempt tx] =
        [.transaction (.signed s.attempt tx), .simulationRequested] := by
      simp [seen, simulationReport_nil _ hsim, SubmissionPhase.isSimulation]
    rw [hseen]
    refine .simulates hfirst ?_ hbefore ?_ ?_ _ <;> rfl
  · have harrived : s.feeArrived config wallet bh fee =
        ({ s with phase := .broadcast tx }, [.signed s.attempt tx, .broadcast s.attempt tx]) :=
      if_neg hfirst
    rw [harrived]
    have hseen : seen s { s with phase := .broadcast tx } (.priorityFee fee)
        [.signed s.attempt tx, .broadcast s.attempt tx] =
        [.transaction (.signed s.attempt tx), .transaction (.broadcast s.attempt tx)] := by
      simp [seen, simulationReport_nil _ hsim, SubmissionPhase.isSimulation]
    rw [hseen]
    refine .resends fee rfl hfirst ?_ hsim ?_ _ <;> rfl

/-- The simulation answers, or throws what `simulationCatch` takes for an answer. -/
theorem answerEffect_simulated (s : Submission) (wallet : String) {r : Reply}
    {bh : LatestBlockhash} {fee : ℕ} (hphase : s.phase = .simulation bh fee)
    {result : Except String (Option ℕ)}
    (hreport : s.simulationReport r = [.simulationReported (programError result)]) :
    AnswerEffect s (s.simulated config wallet bh fee result).1 r
      (seen s (s.simulated config wallet bh fee result).1 r
        (s.simulated config wallet bh fee result).2) := by
  have hsim : s.phase.isSimulation = true := by rw [hphase]; rfl
  cases result with
  | error eMsg =>
    have heffect := answerEffect_failAttempt s r eMsg
      (.inl (isSimulation_beforeBroadcast hsim)) (.inr ⟨hsim, eMsg, rfl⟩)
    show AnswerEffect s (s.failAttempt eMsg) r (seen s (s.failAttempt eMsg) r [])
    unfold seen
    rw [hreport, (failAttempt_cases s eMsg).1, List.map_nil, List.append_nil]
    exact (List.append_nil _).symm ▸ heffect
  | ok simUnitsConsumed =>
    let cuLimit := finalCuLimit config (s.effectiveCuLimit config) simUnitsConsumed
    let tx := s.sign wallet cuLimit bh fee
    have hsimulated : s.simulated config wallet bh fee (.ok simUnitsConsumed) =
        ({ s with phase := .broadcast tx },
          (if cuLimit = s.effectiveCuLimit config then [] else [.signed s.attempt tx]) ++
            [.broadcast s.attempt tx]) := rfl
    rw [hsimulated]
    -- signed again when the simulation has tightened the limit
    let resigned : Bool := !decide (cuLimit = s.effectiveCuLimit config)
    have hseen : seen s { s with phase := .broadcast tx } r
        ((if cuLimit = s.effectiveCuLimit config then [] else [.signed s.attempt tx]) ++
          [.broadcast s.attempt tx]) =
        [.simulationReported none] ++
          (if resigned then [.transaction (.signed s.attempt tx)] else []) ++
          [.transaction (.broadcast s.attempt tx)] := by
      by_cases hlimit : cuLimit = s.effectiveCuLimit config <;>
        simp [seen, hreport, programError, hlimit, resigned, SubmissionPhase.isSimulation]
    rw [hseen]
    refine .passes ?_ hsim ?_ resigned _ <;> rfl

/-- A step that changes the phase only, and no simulation, shows nothing. -/
theorem answerEffect_phase {phase : SubmissionPhase} {r : Reply} {lastSignature : Option Signature}
    (hsim : s.phase.isSimulation = false) (hsim' : phase.isSimulation = false)
    (hbefore : phase.beforeBroadcast = true → s.phase.beforeBroadcast = true)
    (hunderway : phase.underway = true → s.phase.underway = true) :
    AnswerEffect s { s with phase, lastSignature } r
      (seen s { s with phase, lastSignature } r []) := by
  have hseen : seen s { s with phase, lastSignature } r [] = [] := by
    simp [seen, simulationReport_nil r hsim, hsim']
  rw [hseen]
  exact .waits rfl hsim' (fun hb => ⟨hbefore hb, hsim⟩) hunderway

/-- A step that fails outside the simulation. -/
theorem answerEffect_thrown (s : Submission) (r : Reply) (eMsg : String)
    (hsim : s.phase.isSimulation = false)
    (hphase : s.phase.beforeBroadcast = true ∨ s.phase.underway = true) :
    AnswerEffect s (s.failAttempt eMsg) r (seen s (s.failAttempt eMsg) r []) := by
  have heffect := answerEffect_failAttempt s r eMsg hphase (.inl ⟨hsim, rfl⟩)
  unfold seen
  rw [simulationReport_nil r hsim, (failAttempt_cases s eMsg).1, List.map_nil, List.append_nil]
  exact (List.append_nil _).symm ▸ heffect

/-- The possible steps. -/
theorem pipelineStep_cases {a : PipelineAction} (hs : s.pipelineStep config a = some (s', es)) :
    AnswerEffect s s' a.reply es := by
  obtain ⟨⟨t, out⟩, hstep, heq⟩ := Option.map_eq_some_iff.mp hs
  obtain ⟨rfl, rfl⟩ : t = s' ∧ seen s t a.reply out = es := Prod.mk.inj heq
  obtain ⟨wallet, reply⟩ := a
  dsimp only at hstep ⊢
  unfold Submission.step at hstep
  split at hstep
  case h_1 lastSignature status hphase =>
    split at hstep
    · cases hstep
      exact answerEffect_phase (by rw [hphase]; rfl) rfl (fun hb => by cases hb)
        (fun hu => by cases hu)
    · cases hstep
      exact answerEffect_phase (by rw [hphase]; rfl) rfl (fun _ => by rw [hphase]; rfl)
        (fun hu => by cases hu)
  case h_2 lastSignature hphase =>
    cases hstep
    exact answerEffect_phase (by rw [hphase]; rfl) rfl (fun _ => by rw [hphase]; rfl)
      (fun hu => by cases hu)
  case h_3 lastSignature msg hphase =>
    cases hstep
    exact answerEffect_phase (by rw [hphase]; rfl) rfl (fun _ => by rw [hphase]; rfl)
      (fun hu => by cases hu)
  case h_4 bh hphase =>
    cases hstep
    exact answerEffect_phase (by rw [hphase]; rfl) rfl (fun _ => by rw [hphase]; rfl)
      (fun hu => by cases hu)
  case h_5 eMsg hphase =>
    cases hstep
    exact answerEffect_thrown s _ eMsg (by rw [hphase]; rfl) (.inl (by rw [hphase]; rfl))
  case h_6 bh fee hphase =>
    obtain ⟨rfl, rfl⟩ := Machine.some_pair hstep
    exact answerEffect_feeArrived s wallet hphase
  case h_7 bh eMsg hphase =>
    cases hstep
    exact answerEffect_thrown s _ eMsg (by rw [hphase]; rfl) (.inl (by rw [hphase]; rfl))
  case h_8 bh fee value hphase =>
    obtain ⟨rfl, rfl⟩ := Machine.some_pair hstep
    have hreport : s.simulationReport (.simulation value) =
        [.simulationReported (programError (simulateTransaction value))] := by
      unfold Submission.simulationReport
      rw [hphase]
    exact answerEffect_simulated s wallet hphase hreport
  case h_9 bh fee msg hphase =>
    obtain ⟨rfl, rfl⟩ := Machine.some_pair hstep
    have hreport : s.simulationReport (.throws msg) =
        [.simulationReported (programError (simulationCatch msg))] := by
      unfold Submission.simulationReport
      rw [hphase]
    exact answerEffect_simulated s wallet hphase hreport
  case h_10 tx hphase =>
    cases hstep
    exact answerEffect_phase (by rw [hphase]; rfl) rfl (fun hb => by cases hb)
      (fun _ => by rw [hphase]; rfl)
  case h_11 tx eMsg hphase =>
    cases hstep
    exact answerEffect_thrown s _ eMsg (by rw [hphase]; rfl) (.inr (by rw [hphase]; rfl))
  case h_12 tx hphase =>
    cases hstep
    exact answerEffect_phase (by rw [hphase]; rfl) rfl (fun hb => by cases hb)
      (fun hu => by cases hu)
  case h_13 tx eMsg hphase =>
    cases hstep
    exact answerEffect_thrown s _ eMsg (by rw [hphase]; rfl) (.inr (by rw [hphase]; rfl))
  case h_14 => cases hstep

/-! ## The exact condition -/

theorem sent_append : Sent (h ++ es) ↔ Sent h ∨ Sent es := by
  simp only [Sent, List.mem_append, exists_or]

theorem rejected_append : Rejected (h ++ es) ↔ Rejected h ∨ Rejected es := by
  simp only [Rejected, List.mem_append, exists_or]

theorem failedUnsent_append : FailedUnsent (h ++ es) ↔ FailedUnsent h ∨ FailedUnsent es := by
  simp only [FailedUnsent, List.mem_append, and_or_left, exists_or]

/-- What a run keeps under the condition. -/
structure Progress (s : Submission) (h : List PipelineEvent) : Prop where
  simulatedFirst : SimulatedFirst h
  started : s.attempt ≠ 0
  first : s.attempt = 1 → ∀ phase, .attemptFailed 1 phase ∉ h
  unsent : s.attempt = 1 → s.phase.beforeBroadcast = true → ¬ Sent h ∧ ¬ Rejected h
  untried : s.attempt = 1 → s.phase.beforeBroadcast = true → s.phase.isSimulation = false →
    .simulationRequested ∉ h
  simulating : s.phase.isSimulation = true → s.attempt = 1 ∧ .simulationRequested ∈ h
  /-- Past a broadcast of the first attempt, its simulation had nothing against it. -/
  passed : s.phase.underway = true ∨ s.attempt ≠ 1 → ¬ FailedUnsent h →
    .simulationRequested ∈ h ∧ ¬ Rejected h
  /-- A first attempt that sends nothing was not simulated, or rejected. -/
  failed : FailedUnsent h → .simulationRequested ∉ h ∨ Rejected h

theorem progress_init (instructions : List TransactionInstruction)
    (computeUnitLimitOverride : Option ℕ) :
    Progress { instructions, computeUnitLimitOverride } [] where
  simulatedFirst := ⟨.nil, fun ⟨_, hmem⟩ => by cases hmem⟩
  started := one_ne_zero
  first _ _ hmem := by cases hmem
  unsent _ _ := ⟨fun ⟨_, _, hmem⟩ => (by cases hmem), fun ⟨_, hmem⟩ => (by cases hmem)⟩
  untried _ _ _ hmem := by cases hmem
  simulating hsim := by cases hsim
  passed hlate := by
    rcases hlate with hunderway | hretry
    · cases hunderway
    · exact absurd rfl hretry
  failed := fun ⟨_, _, hmem⟩ => by cases hmem

/-- The report of a failed attempt: nothing is sent, and no attempt has failed yet. -/
theorem Progress.report (hp : Progress s h) {report : List PipelineEvent}
    (hreport : FailureReport s report) :
    SimulatedFirst (h ++ report) ∧ (FailedUnsent (h ++ report) ↔ FailedUnsent h) ∧
      (.simulationRequested ∈ h ++ report ↔ .simulationRequested ∈ h) := by
  obtain ⟨-, rfl⟩ | ⟨hsim, eMsg, rfl⟩ := hreport
  · simp [hp.simulatedFirst]
  · obtain ⟨hfirst, -⟩ := hp.simulating hsim
    obtain ⟨hunsent, -⟩ := hp.unsent hfirst (isSimulation_beforeBroadcast hsim)
    refine ⟨⟨hp.simulatedFirst.attempted.snoc trivial, fun _ hsent => ?_⟩, ?_, ?_⟩
    · rcases sent_append.mp hsent with hsent | hsent
      · exact hunsent hsent
      · simp [Sent] at hsent
    · rw [failedUnsent_append, or_iff_left (by simp [FailedUnsent])]
    · simp

theorem Progress.ends (hp : Progress s h) (hattempt : s'.attempt = s.attempt)
    (hbefore : s'.phase.beforeBroadcast = false) (hunderway : s'.phase.underway = false)
    {report : List PipelineEvent} (hreport : FailureReport s report) :
    Progress s' (h ++ report) := by
  obtain ⟨hfirst, hfailed, hrequested⟩ := hp.report hreport
  refine ⟨hfirst, hattempt ▸ hp.started, ?_, ?_, ?_, ?_, ?_, ?_⟩
  · intro hone phase hmem
    rcases List.mem_append.mp hmem with hmem | hmem
    · exact hp.first (hattempt ▸ hone) phase hmem
    · obtain ⟨-, rfl⟩ | ⟨-, eMsg, rfl⟩ := hreport
      · cases hmem
      · simp at hmem
  · intro _ hb
    rw [hbefore] at hb
    cases hb
  · intro _ hb
    rw [hbefore] at hb
    cases hb
  · intro hsim
    rw [isSimulation_beforeBroadcast hsim] at hbefore
    cases hbefore
  · intro hlate hn
    rcases hlate with hu | hretry
    · rw [hunderway] at hu
      cases hu
    · obtain ⟨-, rfl⟩ | ⟨hsim, -⟩ := hreport
      · rw [List.append_nil] at hn ⊢
        exact hp.passed (.inr (hattempt ▸ hretry)) hn
      · exact absurd (hp.simulating hsim).1 (hattempt ▸ hretry)
  · intro hf
    rw [hrequested, rejected_append]
    exact (hp.failed (hfailed.mp hf)).imp id .inl

theorem Progress.retries (hp : Progress s h) (hattempt : s'.attempt = s.attempt + 1)
    (hsim' : s'.phase.isSimulation = false)
    (hphase : s.phase.beforeBroadcast = true ∨ s.phase.underway = true)
    {report : List PipelineEvent} (hreport : FailureReport s report) :
    Progress s' (h ++ (report ++ [PipelineEvent.attemptFailed s.attempt s.phase])) := by
  obtain ⟨hfirst, hfailed, hrequested⟩ := hp.report hreport
  have hstarted := hp.started
  rw [← List.append_assoc]
  refine ⟨⟨hfirst.attempted.snoc trivial, ?_⟩, by omega, by omega, by omega, by omega, ?_, ?_, ?_⟩
  · rw [rejected_append, sent_append]
    have hrejected : ¬ Rejected [.attemptFailed s.attempt s.phase] := by simp [Rejected]
    have hsent : ¬ Sent [.attemptFailed s.attempt s.phase] := by simp [Sent]
    rw [or_iff_left hrejected, or_iff_left hsent]
    exact hfirst.rejected
  · intro hsim
    rw [hsim'] at hsim
    cases hsim
  · intro _ hn
    rw [failedUnsent_append, hfailed, not_or] at hn
    obtain ⟨hn, hphase'⟩ := hn
    -- the attempt that has failed was not the first one, or was sent
    have hlate : s.phase.underway = true ∨ s.attempt ≠ 1 := by
      by_cases hone : s.attempt = 1
      · refine .inl (hphase.resolve_left fun hb => hphase' ⟨s.phase, hb, ?_⟩)
        rw [hone]
        exact List.mem_singleton_self _
      · exact .inr hone
    obtain ⟨hreq, hrej⟩ := hp.passed hlate hn
    obtain ⟨-, rfl⟩ | ⟨hsim, -⟩ := hreport
    · rw [List.append_nil, rejected_append, or_iff_left (by simp [Rejected])]
      exact ⟨List.mem_append_left _ hreq, hrej⟩
    · rcases hlate with hu | hretry
      · rw [(underway_excludes hu).2] at hsim
        cases hsim
      · exact absurd (hp.simulating hsim).1 hretry
  · intro hf
    rw [failedUnsent_append, hfailed] at hf
    rw [List.mem_append, hrequested, rejected_append, rejected_append]
    rcases hf with hf | ⟨phase, hb, hmem⟩
    · rcases hp.failed hf with hreq | hrej
      · exact .inl (by simp [hreq])
      · exact .inr (.inl (.inl hrej))
    · obtain ⟨hone, rfl⟩ : 1 = s.attempt ∧ phase = s.phase := by simpa using hmem
      obtain ⟨hsim, -⟩ | ⟨-, eMsg, rfl⟩ := hreport
      · exact .inl (by simp [hp.untried hone.symm hb hsim])
      · exact .inr (.inl (.inr ⟨eMsg, List.mem_singleton_self _⟩))

theorem Progress.simulates (hp : Progress s h) (hone : s.attempt = 1)
    (hattempt : s'.attempt = s.attempt) (hbefore : s.phase.beforeBroadcast = true)
    (hsim' : s'.phase.isSimulation = true) (tx : SignedTransaction) :
    Progress s'
      (h ++ [PipelineEvent.transaction (.signed s.attempt tx), .simulationRequested]) := by
  obtain ⟨hunsent, hunrejected⟩ := hp.unsent hone hbefore
  have hsent : ¬ Sent
      (h ++ [PipelineEvent.transaction (.signed s.attempt tx), .simulationRequested]) := by
    rw [sent_append, not_or]
    exact ⟨hunsent, by simp [Sent]⟩
  have hrejected :
      ¬ Rejected
        (h ++ [PipelineEvent.transaction (.signed s.attempt tx), .simulationRequested]) := by
    rw [rejected_append, not_or]
    exact ⟨hunrejected, by simp [Rejected]⟩
  have hfirst : ∀ phase, .attemptFailed 1 phase ∉
      h ++ [PipelineEvent.transaction (.signed s.attempt tx), .simulationRequested] := by
    intro phase hmem
    exact hp.first hone phase (by simpa using hmem)
  refine ⟨⟨?_, fun hr => absurd hr hrejected⟩, hattempt ▸ hp.started, fun _ => hfirst,
    fun _ _ => ⟨hsent, hrejected⟩, ?_, fun _ => ⟨hattempt.trans hone, by simp⟩, ?_, ?_⟩
  · exact hp.simulatedFirst.attempted.append_of_forall (by simp [SimulationAttempted])
  · intro _ _ hn
    rw [hsim'] at hn
    cases hn
  · rintro (hu | hretry)
    · rw [(underway_excludes hu).2] at hsim'
      cases hsim'
    · exact absurd (hattempt.trans hone) hretry
  · rintro ⟨phase, -, hmem⟩
    exact absurd hmem (hfirst phase)

/-- A retry is sent after a first attempt that was sent. -/
theorem Progress.resends (hp : Progress s h) (hretry : s.attempt ≠ 1)
    (hn : ¬ FailedUnsent h) (hattempt : s'.attempt = s.attempt)
    (hunderway : s'.phase.underway = true) (tx : SignedTransaction) :
    Progress s' (h ++ [PipelineEvent.transaction (.signed s.attempt tx),
      .transaction (.broadcast s.attempt tx)]) := by
  obtain ⟨hreq, hrej⟩ := hp.passed (.inr hretry) hn
  have hretry' : s'.attempt ≠ 1 := hattempt ▸ hretry
  have hrejected : ¬ Rejected (h ++ [PipelineEvent.transaction (.signed s.attempt tx),
      .transaction (.broadcast s.attempt tx)]) := by
    rw [rejected_append, not_or]
    exact ⟨hrej, by simp [Rejected]⟩
  refine ⟨⟨?_, fun hr => absurd hr hrejected⟩, hattempt ▸ hp.started,
    fun hone => absurd hone hretry', fun hone => absurd hone hretry',
    fun hone => absurd hone hretry', ?_, fun _ _ => ⟨by simp [hreq], hrejected⟩, ?_⟩
  · rw [List.append_cons]
    have hsigned : Each SimulationAttempted
        (h ++ [PipelineEvent.transaction (.signed s.attempt tx)]) :=
      hp.simulatedFirst.attempted.snoc trivial
    exact hsigned.snoc (List.mem_append_left _ hreq)
  · intro hsim
    rw [(underway_excludes hunderway).2] at hsim
    cases hsim
  · rw [failedUnsent_append, or_iff_left (by simp [FailedUnsent])]
    exact fun hf => absurd hf hn

theorem Progress.passes (hp : Progress s h) (hattempt : s'.attempt = s.attempt)
    (hsim : s.phase.isSimulation = true) (hunderway : s'.phase.underway = true)
    (resigned : Bool) (tx : SignedTransaction) :
    Progress s' (h ++ ([.simulationReported none] ++
      (if resigned then [.transaction (.signed s.attempt tx)] else []) ++
      [.transaction (.broadcast s.attempt tx)])) := by
  obtain ⟨hone, hreq⟩ := hp.simulating hsim
  obtain ⟨hunsent, hunrejected⟩ := hp.unsent hone (isSimulation_beforeBroadcast hsim)
  obtain ⟨hbefore', hsim'⟩ := underway_excludes hunderway
  let es : List PipelineEvent := [.simulationReported none] ++
    (if resigned then [.transaction (.signed s.attempt tx)] else []) ++
    [.transaction (.broadcast s.attempt tx)]
  have hrejected : ¬ Rejected (h ++ es) := by
    rw [rejected_append, not_or]
    refine ⟨hunrejected, ?_⟩
    cases resigned <;> simp [Rejected, es]
  have hfirst : ∀ phase, .attemptFailed 1 phase ∉ h ++ es := by
    intro phase hmem
    refine hp.first hone phase ?_
    cases resigned <;> simpa [es] using hmem
  have hattempted : Each SimulationAttempted (h ++ es) := by
    rw [← List.append_assoc]
    -- neither the report nor the signing is a broadcast
    have hbefore : Each SimulationAttempted (h ++ ([.simulationReported none] ++
        (if resigned then [.transaction (.signed s.attempt tx)] else []))) := by
      refine hp.simulatedFirst.attempted.append_of_forall fun pre e he => ?_
      rcases List.mem_append.mp he with he | he
      · obtain rfl := List.mem_singleton.mp he
        trivial
      · cases resigned with
        | false => cases he
        | true =>
          obtain rfl := List.mem_singleton.mp he
          trivial
    exact hbefore.snoc (List.mem_append_left _ hreq)
  refine ⟨⟨hattempted, fun hr => absurd hr hrejected⟩, hattempt ▸ hp.started, fun _ => hfirst, ?_,
    ?_, ?_, fun _ _ => ⟨List.mem_append_left _ hreq, hrejected⟩, ?_⟩
  · intro _ hb
    rw [hbefore'] at hb
    cases hb
  · intro _ hb
    rw [hbefore'] at hb
    cases hb
  · intro hs
    rw [hsim'] at hs
    cases hs
  · rintro ⟨phase, -, hmem⟩
    exact absurd hmem (hfirst phase)

/-- An answer that meets the condition keeps the invariant. -/
theorem progress_step {a : PipelineAction} (hp : Progress s h) (hC : RetriesSent s h a)
    (hs : s.pipelineStep config a = some (s', es)) : Progress s' (h ++ es) := by
  cases pipelineStep_cases hs with
  | waits hattempt hsim' hbefore hunderway =>
    rw [List.append_nil]
    refine ⟨hp.simulatedFirst, hattempt ▸ hp.started, hattempt ▸ hp.first, fun hone hb => ?_,
      fun hone hb _ => ?_, fun hsim => ?_, fun hlate => ?_, hp.failed⟩
    · exact hp.unsent (hattempt ▸ hone) (hbefore hb).1
    · exact hp.untried (hattempt ▸ hone) (hbefore hb).1 (hbefore hb).2
    · rw [hsim'] at hsim
      cases hsim
    · exact hp.passed (hlate.imp hunderway fun hretry => hattempt ▸ hretry)
  | ends hattempt hbefore hunderway hreport => exact hp.ends hattempt hbefore hunderway hreport
  | retries hattempt hsim' hphase hreport => exact hp.retries hattempt hsim' hphase hreport
  | simulates hone hattempt hbefore hsim' _ tx =>
    exact hp.simulates hone hattempt hbefore hsim' tx
  | resends fee hreply hretry hattempt _ hunderway tx =>
    exact hp.resends hretry (hC fee hreply hretry) hattempt hunderway tx
  | passes hattempt hsim hunderway resigned tx =>
    exact hp.passes hattempt hsim hunderway resigned tx

/-- The fee of a retry arrives: its transaction is sent at once. -/
theorem pipelineStep_fee {a : PipelineAction} {fee : ℕ} (hreply : a.reply = .priorityFee fee)
    (hretry : s.attempt ≠ 1) (hs : s.pipelineStep config a = some (s', es)) :
    ∃ tx, es = [.transaction (.signed s.attempt tx), .transaction (.broadcast s.attempt tx)] := by
  obtain ⟨⟨t, out⟩, hstep, heq⟩ := Option.map_eq_some_iff.mp hs
  obtain ⟨rfl, rfl⟩ : t = s' ∧ seen s t a.reply out = es := Prod.mk.inj heq
  rw [hreply] at hstep ⊢
  cases hphase : s.phase with
  | priorityFee bh =>
    simp only [Submission.step, hphase, Option.some.injEq] at hstep
    have hsim : s.phase.isSimulation = false := by rw [hphase]; rfl
    rw [Submission.feeArrived, if_neg hretry] at hstep
    cases hstep
    refine ⟨s.sign a.wallet (s.effectiveCuLimit config) bh fee, ?_⟩
    simp [seen, simulationReport_nil _ hsim, SubmissionPhase.isSimulation]
  | _ => simp [Submission.step, hphase] at hstep

/-- An answer that does not meet the condition sends what was not simulated, or was
rejected. -/
theorem not_simulatedFirst_step {a : PipelineAction} (hp : Progress s h)
    (hC : ¬ RetriesSent s h a) (hs : s.pipelineStep config a = some (s', es)) :
    ¬ SimulatedFirst (h ++ es) := by
  unfold RetriesSent at hC
  push Not at hC
  obtain ⟨fee, hreply, hretry, hfailed⟩ := hC
  obtain ⟨tx, rfl⟩ := pipelineStep_fee hreply hretry hs
  intro hfirst
  rcases hp.failed hfailed with hreq | hrej
  · have hattempted : SimulationAttempted (h ++ [PipelineEvent.transaction (.signed s.attempt tx)])
        (.transaction (.broadcast s.attempt tx)) :=
      hfirst.attempted _ _ [] (by simp)
    refine hreq ?_
    simpa [SimulationAttempted] using hattempted
  · refine hfirst.rejected (rejected_append.mpr (.inl hrej)) ⟨s.attempt, tx, ?_⟩
    simp

/-- **Simulated before sent, exactly.** In a run of a submission, nothing is sent
before a simulation of it was attempted, and nothing at all when the simulation
reports a program error, if and only if no transaction of a retry is built after a
first attempt that failed before its broadcast. -/
theorem simulatedFirst_iff (config : TxEngineConfig)
    (instructions : List TransactionInstruction) (computeUnitLimitOverride : Option ℕ)
    (as : List PipelineAction) :
    (pipeline config instructions computeUnitLimitOverride).Always (fun _ h => SimulatedFirst h)
        (pipeline config instructions computeUnitLimitOverride).init [] as ↔
      (pipeline config instructions computeUnitLimitOverride).Along RetriesSent
        (pipeline config instructions computeUnitLimitOverride).init [] as :=
  Machine.always_iff_along (fun hp => hp.simulatedFirst) progress_step not_simulatedFirst_step
    (progress_init instructions computeUnitLimitOverride) as

end Pipeline

end FlashEdge
