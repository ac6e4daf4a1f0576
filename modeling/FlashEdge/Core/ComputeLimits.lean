import Mathlib.Data.Multiset.AddSub
import Mathlib.Data.Rat.Floor
import Mathlib.Tactic.Linarith
import FlashEdge.Core.SimulatedFirst

/-!
# The compute-unit limit of what is broadcast

The options for the compute-unit limit are passed to the engine, and the code that sends a
transaction reads them from the engine's configuration. The constructor builds that
configuration field by field, and leaves out the switch `dynamicCompute` and the buffer: the
limit is always tightened, and always with a buffer of 20 %. The order of the instructions
does not depend on any of this.

- `TxEngineOptions.config`: what the constructor keeps of its options.
- `submission`: one submission of such an engine, with the transactions it broadcasts.
- `AsConfigured`: a transaction has the limit that the options ask for, and its instructions
  are those of the request with the compute budget, in order.
- `asConfigured_iff`: along a run that is so exactly when the options that are lost make no
  difference for the simulated units.
-/

namespace FlashEdge

/-- `Partial<TxEngineConfig>`, what the constructor is given. -/
structure TxEngineOptions where
  computeUnitPrice : Option ℕ := none
  computeUnitLimit : Option ℕ := none
  dynamicCompute : Option Bool := none
  computeBufferPercent : Option ℚ := none
deriving DecidableEq, Repr

/-- The configuration the constructor builds; the last two options are not copied. -/
def TxEngineOptions.config (options : TxEngineOptions) : TxEngineConfig :=
  { computeUnitPrice := options.computeUnitPrice.getD 100000
    computeUnitLimit := options.computeUnitLimit.getD 220000 }

namespace ComputeLimits

/-- A transaction that is broadcast, with the units that the simulation of its attempt has
reported. -/
structure Sending where
  units : Option ℕ
  tx : SignedTransaction
deriving DecidableEq, Repr

/-- The units that an answer reports, if it is the simulation's. -/
def reportedUnits (s : Submission) (r : Reply) : Option ℕ :=
  match s.phase, r with
  | .simulation _ _, .simulation value =>
    match simulateTransaction value with
    | .ok units => units
    | .error _ => none
  | _, _ => none

/-- The broadcasts among what is seen of a step. -/
def sendings (units : Option ℕ) (es : List SubmissionEvent) : List Sending :=
  es.filterMap fun e =>
    match e with
    | .signed _ _ => none
    | .broadcast _ tx => some ⟨units, tx⟩

/-- One submission, from its start. -/
def submission (options : TxEngineOptions) (instructions : List TransactionInstruction)
    (computeUnitLimitOverride : Option ℕ) : Machine Submission PipelineAction Sending where
  init := { instructions, computeUnitLimitOverride }
  step s a :=
    (s.step options.config a.wallet a.reply).map fun p =>
      (p.1, sendings (reportedUnits s a.reply) p.2)

/-! ## What is promised -/

/-- The limit before any tightening. -/
def configuredLimit (options : TxEngineOptions) (computeUnitLimitOverride : Option ℕ) : ℕ :=
  computeUnitLimitOverride.getD (options.computeUnitLimit.getD 220000)

/-- Units with a buffer, rounded up to a multiple of ten thousand. -/
def bufferedUnits (percent : ℚ) (units : ℕ) : ℕ :=
  ⌈units * (1 + percent / 100) / 10000⌉.toNat * 10000

/-- The limit that the options ask for: the configured one, or what was simulated with the
buffer, at least 120 000 and what was simulated, and at most the configured one. -/
def promisedLimit (options : TxEngineOptions) (limit : ℕ) : Option ℕ → ℕ
  | none => limit
  | some units =>
    if options.dynamicCompute = some false then limit
    else
      min limit (max units (max 120000
        (bufferedUnits (options.computeBufferPercent.getD 20) units)))

/-- The instructions of a request and the compute budget, as a transaction carries them. -/
structure Ordered (instructions budget all : List TransactionInstruction) : Prop where
  perm : all.Perm (budget ++ instructions)
  ed25519First : ∃ rest, all = instructions.filter (·.programId = ED25519_PROGRAM) ++ rest ∧
    ∀ ix ∈ rest, ix.programId ≠ ED25519_PROGRAM
  others : (instructions.filter (·.programId ≠ ED25519_PROGRAM)).Sublist all

/-- A transaction has the limit that the options ask for, and its instructions in order. -/
def AsConfigured (options : TxEngineOptions) (instructions : List TransactionInstruction)
    (limit : ℕ) (o : Sending) : Prop :=
  ∃ price, Ordered instructions
    [setComputeUnitLimit (promisedLimit options limit o.units), setComputeUnitPrice price]
    o.tx.signature.message.instructions

/-- The options that are lost make no difference: with the switch off, there is nothing to
tighten; with it on, the buffer of 20 % leads where the configured one does. -/
def Harmless (options : TxEngineOptions) (limit units : ℕ) : Prop :=
  limit ≤ 120000 ∨
    if options.dynamicCompute = some false then units = 0 ∨ limit ≤ bufferedUnits 20 units
    else
      units ≠ 0 ∧
        let percent := options.computeBufferPercent.getD 20
        (bufferedUnits percent units = bufferedUnits 20 units ∨
          bufferedUnits percent units ≤ 120000 ∧ bufferedUnits 20 units ≤ 120000 ∨
          limit ≤ max units (bufferedUnits percent units) ∧ limit ≤ bufferedUnits 20 units)

/-- The options make no difference for the units that an answer reports. -/
def KeepsOptions (options : TxEngineOptions) (limit : ℕ) (s : Submission) (_ : List Sending)
    (a : PipelineAction) : Prop :=
  ∀ units, reportedUnits s a.reply = some units → Harmless options limit units

/-! ## The limit that is used -/

theorem lt_bufferedUnits {units : ℕ} (hpos : units ≠ 0) : units < bufferedUnits 20 units := by
  have hceil : (units : ℚ) * (1 + 20 / 100) / 10000 ≤ ⌈(units : ℚ) * (1 + 20 / 100) / 10000⌉ :=
    Int.le_ceil _
  have hnat : (⌈(units : ℚ) * (1 + 20 / 100) / 10000⌉ : ℤ) ≤
      (⌈(units : ℚ) * (1 + 20 / 100) / 10000⌉.toNat : ℤ) := Int.self_le_toNat _
  have hnat' : (⌈(units : ℚ) * (1 + 20 / 100) / 10000⌉ : ℚ) ≤
      (⌈(units : ℚ) * (1 + 20 / 100) / 10000⌉.toNat : ℚ) := by exact_mod_cast hnat
  have hunits : (0 : ℚ) < units := by exact_mod_cast Nat.pos_of_ne_zero hpos
  have hlt : (units : ℚ) < (bufferedUnits 20 units : ℕ) := by
    unfold bufferedUnits
    push_cast
    linarith
  exact_mod_cast hlt

/-- The limit that is used for simulated units, whatever the options are. -/
theorem finalCuLimit_config (options : TxEngineOptions) (limit : ℕ) {units : ℕ}
    (hunits : units ≠ 0) :
    finalCuLimit options.config limit (some units) =
      min limit (max 120000 (bufferedUnits 20 units)) := by
  have hlt := lt_bufferedUnits hunits
  have hfinal : finalCuLimit options.config limit (some units) =
      if max 120000 (min (bufferedUnits 20 units) limit) < limit ∧
          units ≤ max 120000 (min (bufferedUnits 20 units) limit) then
        max 120000 (min (bufferedUnits 20 units) limit)
      else limit := by
    unfold finalCuLimit
    dsimp only
    rw [if_pos ⟨Nat.pos_of_ne_zero hunits, (by decide : (none : Option Bool) ≠ some false)⟩]
    rfl
  rw [hfinal]
  split
  · omega
  · omega

theorem finalCuLimit_zero (options : TxEngineOptions) (limit : ℕ) :
    finalCuLimit options.config limit (some 0) = limit := by
  unfold finalCuLimit
  dsimp only
  rw [if_neg fun h => absurd h.1 (lt_irrefl 0)]

/-- **The limit**: it is the promised one exactly when the options that are lost make no
difference. -/
theorem finalCuLimit_eq_iff (options : TxEngineOptions) (limit units : ℕ) :
    finalCuLimit options.config limit (some units) = promisedLimit options limit (some units) ↔
      Harmless options limit units := by
  unfold promisedLimit Harmless
  dsimp only
  by_cases hzero : units = 0
  · rw [hzero, finalCuLimit_zero]
    have hbuffered : ∀ percent, bufferedUnits percent 0 = 0 := by
      intro percent
      unfold bufferedUnits
      simp
    rw [hbuffered]
    split
    · exact ⟨fun _ => .inr (.inl rfl), fun _ => rfl⟩
    · omega
  · rw [finalCuLimit_config options limit hzero]
    have hlt := lt_bufferedUnits hzero
    split
    · omega
    · have hcases : ∀ other : ℕ, min limit (max 120000 (bufferedUnits 20 units)) =
          min limit (max units (max 120000 other)) ↔
          limit ≤ 120000 ∨ units ≠ 0 ∧ (other = bufferedUnits 20 units ∨
            other ≤ 120000 ∧ bufferedUnits 20 units ≤ 120000 ∨
            limit ≤ max units other ∧ limit ≤ bufferedUnits 20 units) := by
        intro other
        omega
      exact hcases _

theorem finalCuLimit_le (options : TxEngineOptions) (limit : ℕ) (units : Option ℕ) :
    finalCuLimit options.config limit units ≤ limit := by
  cases units with
  | none => exact le_rfl
  | some units =>
    by_cases hzero : units = 0
    · rw [hzero, finalCuLimit_zero]
    · rw [finalCuLimit_config options limit hzero]
      exact min_le_left _ _

theorem promisedLimit_le (options : TxEngineOptions) (limit : ℕ) (units : Option ℕ) :
    promisedLimit options limit units ≤ limit := by
  cases units with
  | none => exact le_rfl
  | some units =>
    unfold promisedLimit
    dsimp only
    split
    · exact le_rfl
    · exact min_le_left _ _

/-! ## The instructions -/

/-- The order in which a transaction carries its instructions. -/
theorem ordered_buildOrderedIxs (limit price : ℕ) (instructions : List TransactionInstruction) :
    Ordered instructions [setComputeUnitLimit limit, setComputeUnitPrice price]
      (buildOrderedIxs (setComputeUnitLimit limit) (setComputeUnitPrice price) instructions) := by
  unfold buildOrderedIxs
  refine ⟨?_, ⟨[setComputeUnitLimit limit, setComputeUnitPrice price] ++
    instructions.filter (·.programId ≠ ED25519_PROGRAM), List.append_assoc _ _ _,
    fun ix hix => ?_⟩, List.sublist_append_right _ _⟩
  · have hsplit : (instructions.filter (·.programId = ED25519_PROGRAM) ++
        instructions.filter (·.programId ≠ ED25519_PROGRAM)).Perm instructions := by
      simpa using List.filter_append_perm (fun ix => decide (ix.programId = ED25519_PROGRAM))
        instructions
    refine (List.Perm.append_right _ List.perm_append_comm).trans ?_
    rw [List.append_assoc]
    exact List.Perm.append_left _ hsplit
  · rcases List.mem_append.mp hix with hbudget | hrest
    · have hother : COMPUTE_BUDGET_PROGRAM ≠ ED25519_PROGRAM := by decide
      rcases List.mem_cons.mp hbudget with rfl | hbudget
      · exact hother
      · rw [List.mem_singleton.mp hbudget]
        exact hother
    · exact of_decide_eq_true (List.mem_filter.mp hrest).2

/-- The four bytes of a limit give it back. -/
theorem setComputeUnitLimit_inj {limit limit' : ℕ} (hlimit : limit < 2 ^ 32)
    (hlimit' : limit' < 2 ^ 32) (heq : setComputeUnitLimit limit = setComputeUnitLimit limit') :
    limit = limit' := by
  have hdata : 2 :: littleEndian 4 limit = 2 :: littleEndian 4 limit' :=
    congrArg TransactionInstruction.data heq
  simp only [littleEndian, List.range_succ, List.range_zero, List.nil_append, List.map_cons,
    List.map_nil, List.cons_append, List.cons.injEq, true_and, and_true] at hdata
  omega

/-- Of two budgets for the same instructions, the limits are the same. -/
theorem limit_of_perm {limit limit' price price' : ℕ} {instructions : List TransactionInstruction}
    (hperm : ([setComputeUnitLimit limit, setComputeUnitPrice price] ++ instructions).Perm
      ([setComputeUnitLimit limit', setComputeUnitPrice price'] ++ instructions)) :
    setComputeUnitLimit limit = setComputeUnitLimit limit' := by
  have hbudget := (List.perm_append_right_iff instructions).mp hperm
  have hmem : setComputeUnitLimit limit ∈
      [setComputeUnitLimit limit', setComputeUnitPrice price'] :=
    hbudget.subset List.mem_cons_self
  rcases List.mem_cons.mp hmem with heq | hprice
  · exact heq
  · -- the first byte tells a limit from a price
    have hdata := congrArg (fun ix => ix.data.head?) (List.mem_singleton.mp hprice)
    exact absurd (Option.some.inj hdata) (by decide)

/-- A transaction that was built with a limit is as promised exactly if it is the promised
limit. -/
theorem asConfigured_built_iff (options : TxEngineOptions)
    {instructions : List TransactionInstruction} {limit limit' price : ℕ} {wallet hash : String}
    {o : Sending} (hlimit : limit < 2 ^ 32) (hle : limit' ≤ limit)
    (hbuilt : o.tx.signature = buildTransaction wallet instructions limit' price hash) :
    AsConfigured options instructions limit o ↔ limit' = promisedLimit options limit o.units := by
  have hall : o.tx.signature.message.instructions =
      buildOrderedIxs (setComputeUnitLimit limit') (setComputeUnitPrice price) instructions := by
    rw [hbuilt]
    rfl
  have hordered := ordered_buildOrderedIxs limit' price instructions
  constructor
  · rintro ⟨price', hpromised⟩
    rw [hall] at hpromised
    have hsame := limit_of_perm (hordered.perm.symm.trans hpromised.perm)
    have hple := promisedLimit_le options limit o.units
    exact setComputeUnitLimit_inj (by omega) (by omega) hsame
  · rintro rfl
    refine ⟨price, ?_⟩
    rw [hall]
    exact hordered

/-! ## One answer -/

theorem failAttempt_request (s : Submission) (eMsg : String) :
    (s.failAttempt eMsg).instructions = s.instructions ∧
      (s.failAttempt eMsg).computeUnitLimitOverride = s.computeUnitLimitOverride := by
  unfold Submission.failAttempt
  split
  · exact ⟨rfl, rfl⟩
  · split
    · exact ⟨rfl, rfl⟩
    · exact ⟨rfl, rfl⟩

variable {config : TxEngineConfig} {wallet : String} {s s' : Submission} {r : Reply}
  {es : List SubmissionEvent}

/-- What a step keeps of the request, and what it broadcasts: nothing, and then no units have
been reported, or one transaction with the limit for the reported units. -/
structure StepEffect (config : TxEngineConfig) (wallet : String) (s : Submission)
    (units : Option ℕ) (s' : Submission) (es : List SubmissionEvent) : Prop where
  instructions : s'.instructions = s.instructions
  override : s'.computeUnitLimitOverride = s.computeUnitLimitOverride
  sent : (units = none ∧ sendings units es = []) ∨
    ∃ o price hash, sendings units es = [o] ∧ o.units = units ∧
      o.tx.signature = buildTransaction wallet s.instructions
        (finalCuLimit config (s.effectiveCuLimit config) units) price hash

/-- A failed attempt broadcasts nothing. -/
theorem failed_effect (s : Submission) (eMsg : String) :
    StepEffect config wallet s none (s.failAttempt eMsg) [] :=
  ⟨(failAttempt_request s eMsg).1, (failAttempt_request s eMsg).2, .inl ⟨rfl, rfl⟩⟩

/-- The fee has arrived: a retry is broadcast with the configured limit. -/
theorem feeArrived_effect (s : Submission) (bh : LatestBlockhash) (fee : ℕ) :
    StepEffect config wallet s none (s.feeArrived config wallet bh fee).1
      (s.feeArrived config wallet bh fee).2 := by
  unfold Submission.feeArrived
  dsimp only
  split
  · exact ⟨rfl, rfl, .inl ⟨rfl, rfl⟩⟩
  · exact ⟨rfl, rfl, .inr ⟨_, fee, bh.blockhash, rfl, rfl, rfl⟩⟩

/-- The simulation has answered: the transaction is broadcast with the limit for its units. -/
theorem simulated_effect (s : Submission) (bh : LatestBlockhash) (fee : ℕ) (units : Option ℕ) :
    StepEffect config wallet s units (s.simulated config wallet bh fee (.ok units)).1
      (s.simulated config wallet bh fee (.ok units)).2 := by
  refine ⟨rfl, rfl, .inr ⟨⟨units, s.sign wallet
    (finalCuLimit config (s.effectiveCuLimit config) units) bh fee⟩, fee, bh.blockhash, ?_, rfl,
    rfl⟩⟩
  unfold Submission.simulated
  dsimp only
  split
  · rfl
  · rfl

/-- What the catch of the simulation makes of an exception reports no units. -/
theorem simulationCatch_units {simMsg : String} {units : Option ℕ}
    (hc : simulationCatch simMsg = .ok units) : units = none := by
  unfold simulationCatch at hc
  split at hc
  · cases hc
  · exact (Except.ok.inj hc).symm

/-- Only the answer to a simulation reports units. -/
theorem reportedUnits_none (hsim : s.phase.isSimulation = false) : reportedUnits s r = none := by
  unfold reportedUnits
  split
  · next hphase =>
    rw [hphase] at hsim
    cases hsim
  · rfl

/-- The submission goes on, or ends, with nothing to broadcast. -/
theorem passes_effect {lastSignature : Option Signature} {phase : SubmissionPhase}
    (hsim : s.phase.isSimulation = false) :
    StepEffect config wallet s (reportedUnits s r) { s with lastSignature, phase } [] := by
  rw [reportedUnits_none hsim]
  exact ⟨rfl, rfl, .inl ⟨rfl, rfl⟩⟩

/-- The attempt fails on an exception. -/
theorem thrown_effect {eMsg : String} (hsim : s.phase.isSimulation = false) :
    StepEffect config wallet s (reportedUnits s r) (s.failAttempt eMsg) [] := by
  rw [reportedUnits_none hsim]
  exact failed_effect s eMsg

theorem step_effect (hs : s.step config wallet r = some (s', es)) :
    StepEffect config wallet s (reportedUnits s r) s' es := by
  unfold Submission.step at hs
  split at hs
  case h_1 hphase =>
    split at hs
    · cases hs
      exact passes_effect (by rw [hphase]; rfl)
    · cases hs
      exact passes_effect (by rw [hphase]; rfl)
  case h_2 hphase =>
    cases hs
    exact passes_effect (by rw [hphase]; rfl)
  case h_3 hphase =>
    cases hs
    exact passes_effect (by rw [hphase]; rfl)
  case h_4 hphase =>
    cases hs
    exact passes_effect (by rw [hphase]; rfl)
  case h_5 hphase =>
    cases hs
    exact thrown_effect (by rw [hphase]; rfl)
  case h_6 bh fee hphase =>
    obtain ⟨rfl, rfl⟩ := Machine.some_pair hs
    rw [reportedUnits_none (by rw [hphase]; rfl)]
    exact feeArrived_effect s bh fee
  case h_7 hphase =>
    cases hs
    exact thrown_effect (by rw [hphase]; rfl)
  case h_8 bh fee value hphase =>
    obtain ⟨rfl, rfl⟩ := Machine.some_pair hs
    cases hsim : simulateTransaction value with
    | error eMsg =>
      have hunits : reportedUnits s (.simulation value) = none := by
        unfold reportedUnits
        simp only [hphase, hsim]
      rw [hunits]
      exact failed_effect s eMsg
    | ok units =>
      have hunits : reportedUnits s (.simulation value) = units := by
        unfold reportedUnits
        simp only [hphase, hsim]
      rw [hunits]
      exact simulated_effect s bh fee units
  case h_9 bh fee simMsg hphase =>
    obtain ⟨rfl, rfl⟩ := Machine.some_pair hs
    have hunits : reportedUnits s (.throws simMsg) = none := by
      unfold reportedUnits
      simp only [hphase]
    rw [hunits]
    cases hcatch : simulationCatch simMsg with
    | error eMsg => exact failed_effect s eMsg
    | ok units =>
      obtain rfl := simulationCatch_units hcatch
      exact simulated_effect s bh fee none
  case h_10 hphase =>
    cases hs
    exact passes_effect (by rw [hphase]; rfl)
  case h_11 hphase =>
    cases hs
    exact thrown_effect (by rw [hphase]; rfl)
  case h_12 hphase =>
    cases hs
    exact passes_effect (by rw [hphase]; rfl)
  case h_13 hphase =>
    cases hs
    exact thrown_effect (by rw [hphase]; rfl)
  case h_14 => cases hs

/-! ## Runs -/

/-- The request is unchanged, and everything broadcast so far was as the options ask for. -/
structure RequestInv (options : TxEngineOptions) (instructions : List TransactionInstruction)
    (computeUnitLimitOverride : Option ℕ) (s : Submission) (h : List Sending) : Prop where
  request : s.instructions = instructions
  override : s.computeUnitLimitOverride = computeUnitLimitOverride
  sent : ∀ o ∈ h, AsConfigured options instructions
    (configuredLimit options computeUnitLimitOverride) o

variable {options : TxEngineOptions} {instructions : List TransactionInstruction}
  {computeUnitLimitOverride : Option ℕ}

theorem RequestInv.step {a : PipelineAction} {h es : List Sending}
    (hlimit : configuredLimit options computeUnitLimitOverride < 2 ^ 32)
    (hI : RequestInv options instructions computeUnitLimitOverride s h)
    (hs : (submission options instructions computeUnitLimitOverride).step s a = some (s', es)) :
    (KeepsOptions options (configuredLimit options computeUnitLimitOverride) s h a ∧
        RequestInv options instructions computeUnitLimitOverride s' (h ++ es)) ∨
      (¬ KeepsOptions options (configuredLimit options computeUnitLimitOverride) s h a ∧
        ¬ ∀ o ∈ h ++ es, AsConfigured options instructions
          (configuredLimit options computeUnitLimitOverride) o) := by
  obtain ⟨⟨t, out⟩, hstep, heq⟩ := Option.map_eq_some_iff.mp hs
  obtain ⟨rfl, rfl⟩ := Prod.mk.inj heq
  obtain ⟨hixs, hover, hsent⟩ := step_effect hstep
  have hixs' : t.instructions = instructions := hixs.trans hI.request
  have hover' : t.computeUnitLimitOverride = computeUnitLimitOverride := hover.trans hI.override
  have heffective : s.effectiveCuLimit options.config =
      configuredLimit options computeUnitLimitOverride := by
    unfold Submission.effectiveCuLimit
    rw [hI.override]
    rfl
  rcases hsent with ⟨hunits, hnone⟩ | ⟨o, price, hash, hone, hunits, hbuilt⟩
  · refine .inl ⟨fun units hsome => ?_, hixs', hover', ?_⟩
    · rw [hunits] at hsome
      cases hsome
    · dsimp only
      rw [hnone, List.append_nil]
      exact hI.sent
  · rw [heffective, hI.request] at hbuilt
    have hright := asConfigured_built_iff options hlimit
      (finalCuLimit_le options _ _) hbuilt
    have hkeeps : KeepsOptions options (configuredLimit options computeUnitLimitOverride) s h a ↔
        AsConfigured options instructions (configuredLimit options computeUnitLimitOverride) o := by
      rw [hright, hunits]
      unfold KeepsOptions
      cases hreported : reportedUnits s a.reply with
      | none => exact ⟨fun _ => rfl, fun _ _ hsome => (by cases hsome)⟩
      | some units =>
        rw [finalCuLimit_eq_iff]
        constructor
        · exact fun hall => hall units rfl
        · intro hgood units' hsome
          obtain rfl := Option.some.inj hsome
          exact hgood
    dsimp only
    rw [hone]
    by_cases hgood : AsConfigured options instructions
        (configuredLimit options computeUnitLimitOverride) o
    · refine .inl ⟨hkeeps.mpr hgood, hixs', hover', fun o' hmem => ?_⟩
      rcases List.mem_append.mp hmem with hold | hnew
      · exact hI.sent o' hold
      · rw [List.mem_singleton.mp hnew]
        exact hgood
    · exact .inr ⟨fun hk => hgood (hkeeps.mp hk), fun hall =>
        hgood (hall o (List.mem_append_right h (List.mem_singleton_self o)))⟩

/-- **The limit and the order of what is broadcast.** Along every run of a submission,
everything broadcast has the compute-unit limit that the options ask for and the instructions of
the request in order exactly when the options that the constructor loses make no difference
for the units that the simulation reports. The library refuses limits of more than 32 bits. -/
theorem asConfigured_iff (options : TxEngineOptions) (instructions : List TransactionInstruction)
    (computeUnitLimitOverride : Option ℕ)
    (hlimit : configuredLimit options computeUnitLimitOverride < 2 ^ 32)
    (as : List PipelineAction) :
    (submission options instructions computeUnitLimitOverride).Always
        (fun _ h => ∀ o ∈ h, AsConfigured options instructions
          (configuredLimit options computeUnitLimitOverride) o)
        (submission options instructions computeUnitLimitOverride).init [] as ↔
      (submission options instructions computeUnitLimitOverride).Along
        (KeepsOptions options (configuredLimit options computeUnitLimitOverride))
        (submission options instructions computeUnitLimitOverride).init [] as :=
  Machine.always_iff_along_of_step
    (I := RequestInv options instructions computeUnitLimitOverride)
    (fun hI => hI.sent) (fun hI hs => hI.step hlimit hs)
    ⟨rfl, rfl, fun _ hmem => absurd hmem List.not_mem_nil⟩ as

/-- The switch is off. -/
def switchedOff : TxEngineOptions := { dynamicCompute := some false }

/-- A first attempt whose simulation reports 50 000 units. -/
def simulatedAttempt : List PipelineAction :=
  [⟨"wallet", .blockhash ⟨"hash", 1⟩⟩, ⟨"wallet", .priorityFee 0⟩,
    ⟨"wallet", .simulation ⟨none, some 50000⟩⟩]

/-- What is broadcast then has a limit of 120 000 instead of the configured 220 000. -/
theorem tightened_although_off :
    ∃ s o, (submission switchedOff [] none).run simulatedAttempt = some (s, [o]) ∧
      o.tx.signature = buildTransaction "wallet" [] 120000 0 "hash" ∧
      ¬ AsConfigured switchedOff [] (configuredLimit switchedOff none) o := by
  have hrun : ((submission switchedOff [] none).run simulatedAttempt).map Prod.snd =
      some [⟨some 50000, ⟨buildTransaction "wallet" [] 120000 0 "hash", 1⟩⟩] := by
    decide +kernel
  obtain ⟨⟨s, h⟩, hsh, rfl⟩ := Option.map_eq_some_iff.mp hrun
  refine ⟨s, _, hsh, rfl, fun hconfigured => ?_⟩
  have hlimit := (asConfigured_built_iff switchedOff (by decide) (by decide) rfl).mp hconfigured
  revert hlimit
  decide

theorem asConfigured_iff_switchedOff :
    (submission switchedOff [] none).Always
        (fun _ h => ∀ o ∈ h, AsConfigured switchedOff [] (configuredLimit switchedOff none) o)
        (submission switchedOff [] none).init [] simulatedAttempt ↔
      (submission switchedOff [] none).Along
        (KeepsOptions switchedOff (configuredLimit switchedOff none))
        (submission switchedOff [] none).init [] simulatedAttempt :=
  asConfigured_iff switchedOff [] none (by decide) simulatedAttempt

end ComputeLimits

end FlashEdge
