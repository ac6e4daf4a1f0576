import FlashEdge.Core.UltraTxEngine
import FlashEdge.Theory.Machine

/-!
# Whose transaction a caller of the engine is told about

A caller that submits instructions takes the signature it gets for that of a
transaction with these instructions (`AnsweredOwn`). The guard against double
submission hands every caller the promise in flight, though, without comparing
what the two asked for: `not_answeredOwn` is a run in which a second caller
reports success with the first caller's signature.

`answeredOwn_of_joinsOwn` says when callers are told the truth: when those who
join a submission in flight ask for the same transaction. `answered_foreign`
shows that nothing less will do.
-/

namespace FlashEdge

/-- Two lists make the same transactions: the same signature verifications, and
the same other instructions, in the same orders. -/
def Interchangeable (a b : List TransactionInstruction) : Prop :=
  a.filter (·.programId = ED25519_PROGRAM) = b.filter (·.programId = ED25519_PROGRAM) ∧
    a.filter (·.programId ≠ ED25519_PROGRAM) = b.filter (·.programId ≠ ED25519_PROGRAM)

instance (a b : List TransactionInstruction) : Decidable (Interchangeable a b) := by
  unfold Interchangeable
  infer_instance

/-- The signature of a transaction built from these instructions, with any wallet,
compute budget and blockhash. -/
def BuiltFrom (instructions : List TransactionInstruction) (signature : Signature) : Prop :=
  ∃ wallet cuLimit priorityFee blockhash,
    signature = buildTransaction wallet instructions cuLimit priorityFee blockhash

theorem Interchangeable.refl (a : List TransactionInstruction) : Interchangeable a a := ⟨rfl, rfl⟩

theorem BuiltFrom.of_interchangeable {a b : List TransactionInstruction} {signature : Signature}
    (hb : BuiltFrom b signature) (hab : Interchangeable a b) : BuiltFrom a signature := by
  obtain ⟨wallet, cuLimit, priorityFee, blockhash, rfl⟩ := hb
  refine ⟨wallet, cuLimit, priorityFee, blockhash, ?_⟩
  unfold buildTransaction buildOrderedIxs
  rw [hab.1, hab.2]

/-- The verifications are the instructions in front of the compute budget. -/
theorem takeWhile_buildOrderedIxs (limit fee : ℕ) (l : List TransactionInstruction) :
    (buildOrderedIxs (setComputeUnitLimit limit) (setComputeUnitPrice fee) l).takeWhile
        (·.programId = ED25519_PROGRAM) =
      l.filter (·.programId = ED25519_PROGRAM) := by
  unfold buildOrderedIxs
  have hbudget : ¬ (setComputeUnitLimit limit).programId = ED25519_PROGRAM := by
    show ¬ COMPUTE_BUDGET_PROGRAM = ED25519_PROGRAM
    decide
  rw [List.append_assoc, List.takeWhile_append_of_pos fun ix hix => (List.mem_filter.mp hix).2]
  simp [hbudget]

/-- So a transaction tells what it was built from. -/
theorem BuiltFrom.interchangeable {a b : List TransactionInstruction} {signature : Signature}
    (ha : BuiltFrom a signature) (hb : BuiltFrom b signature) : Interchangeable a b := by
  obtain ⟨_, cuLimit, priorityFee, _, rfl⟩ := ha
  obtain ⟨_, cuLimit', priorityFee', _, heq⟩ := hb
  have hixs : buildOrderedIxs (setComputeUnitLimit cuLimit) (setComputeUnitPrice priorityFee) a =
      buildOrderedIxs (setComputeUnitLimit cuLimit') (setComputeUnitPrice priorityFee') b :=
    congrArg (fun signature => signature.message.instructions) heq
  -- the signature verifications are in front of the budget, the rest behind it
  have hfront := congrArg (List.takeWhile (·.programId = ED25519_PROGRAM)) hixs
  rw [takeWhile_buildOrderedIxs, takeWhile_buildOrderedIxs] at hfront
  refine ⟨hfront, ?_⟩
  unfold buildOrderedIxs at hixs
  rw [hfront, List.append_assoc, List.append_assoc] at hixs
  have hrest := List.append_cancel_left hixs
  exact (List.cons.inj (List.cons.inj hrest).2).2

/-! ## A submission and its own instructions -/

/-- The signature a phase speaks of. -/
def SubmissionPhase.signature? : SubmissionPhase → Option Signature
  | .lateStatus signature => some signature
  | .broadcast tx => some tx.signature
  | .confirmation tx => some tx.signature
  | .resolved signature _ => some signature
  | _ => none

/-- Every signature a submission holds was built from its instructions. -/
structure Submission.Own (s : Submission) : Prop where
  phase : ∀ signature, s.phase.signature? = some signature → BuiltFrom s.instructions signature
  last : ∀ signature, s.lastSignature = some signature → BuiltFrom s.instructions signature

theorem Submission.builtFrom_sign (s : Submission) (wallet : String) (cuLimit : ℕ)
    (bh : LatestBlockhash) (fee : ℕ) :
    BuiltFrom s.instructions (s.sign wallet cuLimit bh fee).signature :=
  ⟨wallet, cuLimit, fee, bh.blockhash, rfl⟩

theorem Submission.Own.failAttempt {s : Submission} (ho : s.Own) (eMsg : String) :
    (s.failAttempt eMsg).Own ∧ (s.failAttempt eMsg).instructions = s.instructions := by
  unfold Submission.failAttempt
  split
  · exact ⟨⟨fun _ hsig => (by cases hsig), ho.last⟩, rfl⟩
  split
  · refine ⟨⟨fun signature hsig => ?_, ho.last⟩, rfl⟩
    dsimp only at hsig
    split at hsig
    · next last hlast =>
      cases hsig
      exact ho.last _ hlast
    · cases hsig
  · exact ⟨⟨fun _ hsig => (by cases hsig), ho.last⟩, rfl⟩

theorem Submission.Own.feeArrived {s : Submission} (ho : s.Own) (config : TxEngineConfig)
    (wallet : String) (bh : LatestBlockhash) (fee : ℕ) :
    (s.feeArrived config wallet bh fee).1.Own ∧
      (s.feeArrived config wallet bh fee).1.instructions = s.instructions := by
  unfold Submission.feeArrived
  dsimp only
  split
  · exact ⟨⟨fun _ hsig => (by cases hsig), ho.last⟩, rfl⟩
  · refine ⟨⟨fun signature hsig => ?_, ho.last⟩, rfl⟩
    cases hsig
    exact s.builtFrom_sign wallet _ bh fee

theorem Submission.Own.simulated {s : Submission} (ho : s.Own) (config : TxEngineConfig)
    (wallet : String) (bh : LatestBlockhash) (fee : ℕ) (result : Except String (Option ℕ)) :
    (s.simulated config wallet bh fee result).1.Own ∧
      (s.simulated config wallet bh fee result).1.instructions = s.instructions := by
  unfold Submission.simulated
  split
  · exact ho.failAttempt _
  · refine ⟨⟨fun signature hsig => ?_, ho.last⟩, rfl⟩
    cases hsig
    exact s.builtFrom_sign wallet _ bh fee

/-- An answer brings no signature of other instructions. -/
theorem Submission.Own.step {s s' : Submission} (ho : s.Own) {config : TxEngineConfig}
    {wallet : String} {r : Reply} {es : List SubmissionEvent}
    (hs : s.step config wallet r = some (s', es)) :
    s'.Own ∧ s'.instructions = s.instructions := by
  have hphase : ∀ signature, s.phase.signature? = some signature →
      BuiltFrom s.instructions signature := ho.phase
  unfold Submission.step at hs
  split at hs
  case h_1 signature status hlate =>
    split at hs
    · cases hs
      refine ⟨⟨fun signature' hsig => ?_, ho.last⟩, rfl⟩
      cases hsig
      exact hphase _ (by rw [hlate]; rfl)
    · cases hs
      exact ⟨⟨fun _ hsig => (by cases hsig), ho.last⟩, rfl⟩
  case h_2 =>
    cases hs
    exact ⟨⟨fun _ hsig => (by cases hsig), ho.last⟩, rfl⟩
  case h_3 =>
    cases hs
    exact ⟨⟨fun _ hsig => (by cases hsig), ho.last⟩, rfl⟩
  case h_4 =>
    cases hs
    exact ⟨⟨fun _ hsig => (by cases hsig), ho.last⟩, rfl⟩
  case h_5 =>
    cases hs
    exact ho.failAttempt _
  case h_6 bh fee hfee =>
    obtain ⟨rfl, -⟩ := Machine.some_pair hs
    exact ho.feeArrived config wallet bh fee
  case h_7 =>
    cases hs
    exact ho.failAttempt _
  case h_8 bh fee value hsim =>
    obtain ⟨rfl, -⟩ := Machine.some_pair hs
    exact ho.simulated config wallet bh fee _
  case h_9 bh fee simMsg hsim =>
    obtain ⟨rfl, -⟩ := Machine.some_pair hs
    exact ho.simulated config wallet bh fee _
  case h_10 tx hsent =>
    cases hs
    -- sent: the signature becomes the last one
    have hown : BuiltFrom s.instructions tx.signature := hphase _ (by rw [hsent]; rfl)
    refine ⟨⟨fun _ hsig => ?_, fun _ hsig => ?_⟩, rfl⟩
    · cases hsig
      exact hown
    · cases hsig
      exact hown
  case h_11 =>
    cases hs
    exact ho.failAttempt _
  case h_12 tx hconfirmed =>
    cases hs
    refine ⟨⟨fun _ hsig => ?_, ho.last⟩, rfl⟩
    cases hsig
    exact hphase _ (by rw [hconfirmed]; rfl)
  case h_13 =>
    cases hs
    exact ho.failAttempt _
  case h_14 => cases hs

/-! ## A job and its own instructions -/

namespace Job

/-- Every signature a job may end with was built from its instructions. -/
def Own : Job → Prop
  | submission s => s.Own
  | prebuilt p _ => BuiltFrom p.instructions p.tx.signature

theorem Own.outcome {job : Job} (ho : job.Own) {signature : Signature}
    (hout : job.outcome = some (.ok signature)) : BuiltFrom job.instructions signature := by
  cases job with
  | submission s =>
    unfold Job.outcome at hout
    dsimp only at hout
    split at hout
    · next signature' attempts hphase =>
      cases hout
      exact Submission.Own.phase ho _ (by rw [hphase]; rfl)
    · cases hout
    · cases hout
  | prebuilt p phase =>
    cases phase with
    | resolved =>
      cases hout
      exact ho
    | broadcast => cases hout
    | confirmation => cases hout
    | rejected message => cases hout

theorem Own.step {job job' : Job} (ho : job.Own) {config : TxEngineConfig} {wallet : String}
    {r : Reply} {es : List SubmissionEvent}
    (hs : job.step config wallet r = some (job', es)) :
    job'.Own ∧ job'.instructions = job.instructions := by
  cases job with
  | submission s =>
    obtain ⟨⟨s', es'⟩, hstep, heq⟩ := Option.map_eq_some_iff.mp hs
    cases heq
    exact Submission.Own.step ho hstep
  | prebuilt p phase =>
    unfold Job.step at hs
    dsimp only at hs
    split at hs <;> cases hs <;> exact ⟨ho, rfl⟩

end Job

/-! ## Callers and promises -/

namespace UltraTxEngine

/-- Every call that has resolved did so with a transaction of its own instructions. -/
def AnsweredOwn (h : List Event) : Prop :=
  ∀ call instructions signature, .resolved call instructions signature ∈ h →
    BuiltFrom instructions signature

/-- Whoever is handed the promise in flight asks for the transaction it is for. -/
def Joins (s : UltraTxEngine) (instructions : List TransactionInstruction) : Prop :=
  ∀ p ∈ s.submitInProgressPromise.bind (s.promises[·]?),
    Interchangeable instructions p.job.instructions

/-- The condition on a step: a call made while a submission is in flight has the
instructions of that submission. -/
def JoinsOwn (s : UltraTxEngine) (_ : List Event) : Action → Prop
  | .submitTransaction instructions _ => s.Joins instructions
  | .submitPrebuilt index _ => ∀ p ∈ s.prebuilt[index]?, s.Joins p.instructions
  | _ => True

instance (s : UltraTxEngine) (instructions : List TransactionInstruction) :
    Decidable (s.Joins instructions) := by
  unfold Joins
  infer_instance

instance (s : UltraTxEngine) (h : List Event) : (a : Action) → Decidable (JoinsOwn s h a)
  | .submitTransaction instructions _ => inferInstanceAs (Decidable (s.Joins instructions))
  | .submitPrebuilt index _ =>
    inferInstanceAs (Decidable (∀ p ∈ s.prebuilt[index]?, s.Joins p.instructions))
  | .prebuildTransaction _ _ _ _ _ => .isTrue trivial
  | .reply _ _ => .isTrue trivial
  | .settle _ => .isTrue trivial
  | .answer _ => .isTrue trivial
  | .updateWallet _ => .isTrue trivial

/-! ## A caller that is told of another's transaction -/

/-- Two callers, with different instructions. The second call comes while the
first one waits for its confirmation. -/
def twoCallers (a b : TransactionInstruction) : List Action :=
  [.submitTransaction [a] none,
    .reply 0 (.blockhash { blockhash := "A", lastValidBlockHeight := 150 }),
    .reply 0 (.priorityFee 100000),
    .reply 0 (.simulation { err := none, unitsConsumed := none }), .reply 0 .sent,
    .submitTransaction [b] none,
    .reply 0 .confirmed, .settle 0, .answer 0, .answer 1]

def openIx : TransactionInstruction := { programId := "Flash", keys := [], data := [0] }
def closeIx : TransactionInstruction := { programId := "Flash", keys := [], data := [1] }

/-- The second caller reports success with the signature of the first. -/
theorem not_answeredOwn :
    ¬ ∀ s h, (ultraTxEngine {} "wallet").Reachable s h → AnsweredOwn h := by
  intro hall
  have hrun : ((ultraTxEngine {} "wallet").run (twoCallers openIx closeIx)).map
      (fun r => r.2.getLast?) = some (some (.resolved 1 [closeIx]
        (buildTransaction "wallet" [openIx] 220000 100000 "A"))) := by
    decide +kernel
  obtain ⟨⟨s, h⟩, hs, hlast⟩ := Option.map_eq_some_iff.mp hrun
  have hclose : BuiltFrom [closeIx] (buildTransaction "wallet" [openIx] 220000 100000 "A") :=
    hall s h (Machine.reachable_of_run hs) 1 _ _ (List.mem_of_getLast? hlast)
  have hopen : BuiltFrom [openIx] (buildTransaction "wallet" [openIx] 220000 100000 "A") :=
    ⟨"wallet", 220000, 100000, "A", rfl⟩
  exact absurd (hclose.interchangeable hopen) (by decide)

/-! ## The invariant -/

variable {s s' : UltraTxEngine} {h es : List Event}

/-- Every job, and every prebuilt transaction, holds signatures of its own
instructions only. This needs no condition. -/
structure Working (s : UltraTxEngine) : Prop where
  jobs : ∀ p ∈ s.promises, p.job.Own
  prebuilt : ∀ p ∈ s.prebuilt, BuiltFrom p.instructions p.tx.signature

theorem working_init (config : TxEngineConfig) (wallet : String) :
    Working (ultraTxEngine config wallet).init where
  jobs _ hp := by cases hp
  prebuilt _ hp := by cases hp

/-- A new job. -/
theorem Working.start (hw : Working s) {job : Job} (ho : job.Own) (guard : Option ℕ)
    (calls : List SubmitCall) :
    Working
      { s with
        promises := s.promises ++ [{ job := job }]
        submitInProgressPromise := guard
        calls } where
  jobs p hp := by
    rcases List.mem_append.mp hp with hp | hp
    · exact hw.jobs p hp
    · obtain rfl := List.mem_singleton.mp hp
      exact ho
  prebuilt := hw.prebuilt

/-- A promise goes on. -/
theorem Working.setPromise (hw : Working s) (i : ℕ) {p : EnginePromise} (ho : p.job.Own)
    (guard : Option ℕ) :
    Working { s with promises := s.promises.set i p, submitInProgressPromise := guard } where
  jobs q hq := by
    rcases List.mem_or_eq_of_mem_set hq with hq | rfl
    · exact hw.jobs q hq
    · exact ho
  prebuilt := hw.prebuilt

theorem own_submission (instructions : List TransactionInstruction)
    (computeUnitLimitOverride : Option ℕ) :
    (Job.submission { instructions, computeUnitLimitOverride }).Own :=
  ⟨fun _ hsig => (by cases hsig), fun _ hsig => (by cases hsig)⟩

theorem Working.submitTransaction (hw : Working s) (instructions : List TransactionInstruction)
    (computeUnitLimitOverride : Option ℕ) :
    Working (s.submitTransaction instructions computeUnitLimitOverride) := by
  unfold UltraTxEngine.submitTransaction
  split
  · exact ⟨hw.jobs, hw.prebuilt⟩
  · exact hw.start (own_submission instructions computeUnitLimitOverride) _ _

theorem Working.submitPrebuilt (hw : Working s) {p : PrebuiltTransaction} (hp : p ∈ s.prebuilt)
    (now : ℚ) : Working (s.submitPrebuilt p now).1 := by
  unfold UltraTxEngine.submitPrebuilt
  split
  · exact hw.submitTransaction p.instructions none
  · split
    · exact ⟨hw.jobs, hw.prebuilt⟩
    · have ho : (Job.prebuilt p .broadcast).Own := hw.prebuilt p hp
      exact hw.start ho _ _

theorem working_step {a : Action} (hw : Working s) (hs : step s a = some (s', es)) :
    Working s' := by
  cases a with
  | submitTransaction instructions computeUnitLimitOverride =>
    obtain ⟨rfl, -⟩ := Machine.some_pair hs
    exact hw.submitTransaction instructions computeUnitLimitOverride
  | prebuildTransaction instructions computeUnitLimitOverride bh priorityFee now =>
    obtain ⟨rfl, -⟩ := Machine.some_pair hs
    refine ⟨hw.jobs, fun p hp => ?_⟩
    rcases List.mem_append.mp hp with hp | hp
    · exact hw.prebuilt p hp
    · obtain rfl := List.mem_singleton.mp hp
      exact ⟨s.wallet, _, priorityFee, bh.blockhash, rfl⟩
  | submitPrebuilt index now =>
    obtain ⟨p, hp, heq⟩ := Option.map_eq_some_iff.mp hs
    have hpre := hw.submitPrebuilt (List.mem_of_getElem? hp) now
    rwa [heq] at hpre
  | reply promise r =>
    change s.reply promise r = _ at hs
    unfold UltraTxEngine.reply at hs
    split at hs
    · cases hs
    next p hp =>
    obtain ⟨⟨job, out⟩, hstep, heq⟩ := Option.map_eq_some_iff.mp hs
    cases heq
    exact hw.setPromise promise ((hw.jobs p (List.mem_of_getElem? hp)).step hstep).1 _
  | settle promise =>
    change s.settle promise = _ at hs
    unfold UltraTxEngine.settle at hs
    split at hs
    · cases hs
    next p hp =>
    split at hs
    · cases hs
    · cases hs
      have ho : ({ p with settled := true } : EnginePromise).job.Own :=
        hw.jobs p (List.mem_of_getElem? hp)
      exact hw.setPromise promise ho _
  | answer call =>
    obtain ⟨c, p, outcome, -, -, -, rfl, -⟩ := answer_cases hs
    exact ⟨hw.jobs, hw.prebuilt⟩
  | updateWallet wallet =>
    obtain ⟨rfl, -⟩ := Machine.some_pair hs
    exact ⟨hw.jobs, hw.prebuilt⟩

theorem working_of_reachable {config : TxEngineConfig} {wallet : String}
    (hr : (ultraTxEngine config wallet).Reachable s h) : Working s :=
  Machine.Reachable.invariant (I := fun s _ => Working s) (working_init config wallet)
    working_step hr

/-- What a run keeps under the condition: every call waits for a promise whose
job is for its own instructions. -/
structure Handed (s : UltraTxEngine) (h : List Event) : Prop where
  guard : ∀ i, s.submitInProgressPromise = some i → i < s.promises.length
  calls : ∀ c ∈ s.calls, ∃ p, s.promises[c.promise]? = some p ∧
    Interchangeable c.instructions p.job.instructions
  answered : AnsweredOwn h

theorem handed_init (config : TxEngineConfig) (wallet : String) :
    Handed (ultraTxEngine config wallet).init [] where
  guard _ hi := by cases hi
  calls _ hc := by cases hc
  answered _ _ _ hmem := by cases hmem

/-- A call is handed the promise of a job for its own instructions. -/
theorem Handed.handOut (hh : Handed s h) {instructions : List TransactionInstruction}
    {promise : ℕ} {p : EnginePromise} (hp : s.promises[promise]? = some p)
    (hown : Interchangeable instructions p.job.instructions) :
    Handed (s.handOut instructions promise) h where
  guard := hh.guard
  calls c hc := by
    rcases List.mem_append.mp hc with hc | hc
    · exact hh.calls c hc
    · obtain rfl := List.mem_singleton.mp hc
      exact ⟨p, hp, hown⟩
  answered := hh.answered

/-- A call that asks for what is in flight is handed its promise. -/
theorem Handed.join (hh : Handed s h) {instructions : List TransactionInstruction}
    (hjoins : s.Joins instructions) {i : ℕ} (hguard : s.submitInProgressPromise = some i) :
    Handed (s.handOut instructions i) h := by
  have hlt := hh.guard i hguard
  have hp : s.promises[i]? = some s.promises[i] := List.getElem?_eq_getElem hlt
  refine hh.handOut hp (hjoins _ ?_)
  rw [hguard]
  exact hp

/-- A call starts a job of its own. -/
theorem Handed.start (hh : Handed s h) (job : Job) {guard : Option ℕ}
    (hguard : ∀ i, guard = some i → i ≤ s.promises.length) :
    Handed
      (({ s with
          promises := s.promises ++ [{ job := job }]
          submitInProgressPromise := guard } : UltraTxEngine).handOut
        job.instructions s.promises.length) h := by
  have hlen : (s.promises ++ [({ job := job } : EnginePromise)]).length =
      s.promises.length + 1 := by simp
  have hnew : (s.promises ++ [{ job := job }])[s.promises.length]? = some { job := job } := by simp
  have hstarted : Handed
      { s with
        promises := s.promises ++ [{ job := job }]
        submitInProgressPromise := guard } h := by
    refine ⟨fun i hi => ?_, fun c hc => ?_, hh.answered⟩
    · have hle := hguard i hi
      dsimp only
      omega
    · obtain ⟨p, hp, hown⟩ := hh.calls c hc
      -- earlier calls keep their promises, as a new one is appended
      have hlt : c.promise < s.promises.length := (List.getElem?_eq_some_iff.mp hp).1
      exact ⟨p, (List.getElem?_append_left hlt).trans hp, hown⟩
  exact hstarted.handOut hnew (.refl _)

/-- Events of transactions say nothing about calls. -/
theorem Handed.transactions (hh : Handed s h)
    (hes : ∀ e ∈ es, ∃ i e', e = .transaction i e') : Handed s (h ++ es) := by
  refine ⟨hh.guard, hh.calls, fun call ins sig hmem => ?_⟩
  rcases List.mem_append.mp hmem with hmem | hmem
  · exact hh.answered call ins sig hmem
  · obtain ⟨i, e', he⟩ := hes _ hmem
    cases he

theorem Handed.submitTransaction (hh : Handed s h) {instructions : List TransactionInstruction}
    (hjoins : s.Joins instructions) (computeUnitLimitOverride : Option ℕ) :
    Handed (s.submitTransaction instructions computeUnitLimitOverride) h := by
  unfold UltraTxEngine.submitTransaction
  split
  · next i hguard => exact hh.join hjoins hguard
  · refine hh.start (.submission { instructions, computeUnitLimitOverride }) fun i hi => ?_
    cases hi
    exact le_refl _

theorem Handed.submitPrebuilt (hh : Handed s h) {p : PrebuiltTransaction}
    (hjoins : s.Joins p.instructions) (now : ℚ) :
    Handed (s.submitPrebuilt p now).1 (h ++ (s.submitPrebuilt p now).2) := by
  unfold UltraTxEngine.submitPrebuilt
  split
  · exact (hh.submitTransaction hjoins none).transactions fun e he => by cases he
  · split
    · next i hguard => exact (hh.join hjoins hguard).transactions fun e he => by cases he
    · have hstarted := hh.start (.prebuilt p .broadcast) fun i hi => le_of_lt (hh.guard i hi)
      exact hstarted.transactions fun e he => ⟨_, _, List.mem_singleton.mp he⟩

/-- A promise goes on, with the same instructions. -/
theorem Handed.setPromise (hh : Handed s h) {i : ℕ} {p : EnginePromise}
    (hp : s.promises[i]? = some p) (p' : EnginePromise)
    (hsame : p'.job.instructions = p.job.instructions) {guard : Option ℕ}
    (hguard : ∀ j, guard = some j → j < s.promises.length) :
    Handed { s with promises := s.promises.set i p', submitInProgressPromise := guard } h := by
  refine ⟨fun j hj => ?_, fun c hc => ?_, hh.answered⟩
  · show j < (s.promises.set i p').length
    rw [List.length_set]
    exact hguard j hj
  · obtain ⟨q, hq, hown⟩ := hh.calls c hc
    show ∃ p, (s.promises.set i p')[c.promise]? = some p ∧ _
    rw [List.getElem?_set]
    split
    · next hi =>
      rw [← hi, hp] at hq
      cases hq
      rw [if_pos (List.getElem?_eq_some_iff.mp hp).1]
      exact ⟨p', rfl, hsame ▸ hown⟩
    · exact ⟨q, hq, hown⟩

theorem Handed.reply (hh : Handed s h) (hw : Working s) {promise : ℕ} {r : Reply}
    (hs : s.reply promise r = some (s', es)) : Handed s' (h ++ es) := by
  unfold UltraTxEngine.reply at hs
  split at hs
  · cases hs
  next p hp =>
  obtain ⟨⟨job, out⟩, hstep, heq⟩ := Option.map_eq_some_iff.mp hs
  cases heq
  obtain ⟨-, hsame⟩ := (hw.jobs p (List.mem_of_getElem? hp)).step hstep
  refine (hh.setPromise hp _ hsame hh.guard).transactions fun e he => ?_
  obtain ⟨e', -, rfl⟩ := List.mem_map.mp he
  exact ⟨promise, e', rfl⟩

theorem Handed.settle (hh : Handed s h) {promise : ℕ}
    (hs : s.settle promise = some (s', es)) : Handed s' (h ++ es) := by
  unfold UltraTxEngine.settle at hs
  split at hs
  · cases hs
  next p hp =>
  split at hs
  · cases hs
  · cases hs
    rw [List.append_nil]
    exact hh.setPromise hp { p with settled := true } rfl
      fun j (hj : none = some j) => by cases hj

theorem Handed.answer (hh : Handed s h) (hw : Working s) {call : ℕ}
    (hs : s.answer call = some (s', es)) : Handed s' (h ++ es) := by
  obtain ⟨c, p, outcome, hc, hp, hout, rfl, rfl⟩ := answer_cases hs
  obtain ⟨p', hp', hown⟩ := hh.calls c (List.mem_of_getElem? hc)
  obtain rfl : p = p' := Option.some.inj (hp.symm.trans hp')
  refine ⟨hh.guard, fun c' hc' => ?_, fun call' ins sig hmem => ?_⟩
  · rcases List.mem_or_eq_of_mem_set hc' with hc' | rfl
    · exact hh.calls c' hc'
    · exact ⟨p, hp, hown⟩
  · rcases List.mem_append.mp hmem with hmem | hmem
    · exact hh.answered call' ins sig hmem
    · cases outcome with
      | error error => cases List.mem_singleton.mp hmem
      | ok signature =>
        cases List.mem_singleton.mp hmem
        -- the job signed for its own instructions, which are the caller's
        have hbuilt := (hw.jobs p (List.mem_of_getElem? hp)).outcome hout
        exact hbuilt.of_interchangeable hown

/-- One step that meets the condition keeps the invariant. -/
theorem handed_step {a : Action} (hh : Handed s h) (hw : Working s) (hC : JoinsOwn s h a)
    (hs : step s a = some (s', es)) : Handed s' (h ++ es) := by
  cases a with
  | submitTransaction instructions computeUnitLimitOverride =>
    obtain ⟨rfl, rfl⟩ := Machine.some_pair hs
    rw [List.append_nil]
    exact hh.submitTransaction hC computeUnitLimitOverride
  | prebuildTransaction instructions computeUnitLimitOverride bh priorityFee now =>
    obtain ⟨rfl, rfl⟩ := Machine.some_pair hs
    rw [List.append_nil]
    exact ⟨hh.guard, hh.calls, hh.answered⟩
  | submitPrebuilt index now =>
    obtain ⟨p, hp, heq⟩ := Option.map_eq_some_iff.mp hs
    have hpre := hh.submitPrebuilt (hC p hp) now
    rwa [heq] at hpre
  | reply promise r => exact hh.reply hw hs
  | settle promise => exact hh.settle hs
  | answer call => exact hh.answer hw hs
  | updateWallet wallet =>
    obtain ⟨rfl, rfl⟩ := Machine.some_pair hs
    rw [List.append_nil]
    exact ⟨hh.guard, hh.calls, hh.answered⟩

/-- **Callers are told the truth.** In every interleaving of calls and answers in
which a call made while a submission is in flight has the instructions of that
submission, every call that resolves does so with the signature of a transaction
built from its own instructions. -/
theorem answeredOwn_of_joinsOwn {config : TxEngineConfig} {wallet : String}
    (hr : (ultraTxEngine config wallet).Reaches JoinsOwn s h) : AnsweredOwn h := by
  have hh : Handed s h :=
    Machine.Reaches.invariant (handed_init config wallet)
      (fun hr hI hC hs => handed_step hI (working_of_reachable hr.reachable) hC hs) hr
  exact hh.answered

/-- A second call with the same instructions joins the first one's submission. -/
theorem answeredOwn_of_joinsOwn_twoCallers :
    ∃ s h, (ultraTxEngine {} "wallet").Reachable s h ∧
      .resolved 1 [openIx] (buildTransaction "wallet" [openIx] 220000 100000 "A") ∈ h ∧
      AnsweredOwn h := by
  have hrun : ((ultraTxEngine {} "wallet").runUnder JoinsOwn (ultraTxEngine {} "wallet").init []
      (twoCallers openIx openIx)).map (fun r => r.2.getLast?) = some (some (.resolved 1 [openIx]
        (buildTransaction "wallet" [openIx] 220000 100000 "A"))) := by
    decide +kernel
  obtain ⟨⟨s, h⟩, hs, hlast⟩ := Option.map_eq_some_iff.mp hrun
  have hreaches : (ultraTxEngine {} "wallet").Reaches JoinsOwn s h :=
    Machine.reaches_of_runUnder .init hs
  exact ⟨s, h, hreaches.reachable, List.mem_of_getLast? hlast, answeredOwn_of_joinsOwn hreaches⟩

/-! ## Why the condition is needed -/

/-- A caller that was handed the promise of another job is not told the truth
when that job succeeds. -/
theorem answered_foreign {config : TxEngineConfig} {wallet : String}
    (hr : (ultraTxEngine config wallet).Reachable s h) {call : ℕ} {c : SubmitCall}
    {p : EnginePromise} {signature : Signature} (hc : s.calls[call]? = some c)
    (hp : s.promises[c.promise]? = some p) (hout : p.job.outcome = some (.ok signature))
    (hforeign : ¬ Interchangeable c.instructions p.job.instructions)
    (hs : s.answer call = some (s', es)) : ¬ AnsweredOwn (h ++ es) := by
  obtain ⟨c', p', outcome, hc', hp', hout', -, rfl⟩ := answer_cases hs
  obtain rfl : c = c' := Option.some.inj (hc.symm.trans hc')
  obtain rfl : p = p' := Option.some.inj (hp.symm.trans hp')
  obtain rfl : .ok signature = outcome := Option.some.inj (hout.symm.trans hout')
  intro hall
  have hcaller : BuiltFrom c.instructions signature :=
    hall call _ _ (List.mem_append_right _ (List.mem_singleton_self _))
  have hjob : BuiltFrom p.job.instructions signature :=
    ((working_of_reachable hr).jobs p (List.mem_of_getElem? hp)).outcome hout
  exact hforeign (hcaller.interchangeable hjob)

end UltraTxEngine

end FlashEdge
