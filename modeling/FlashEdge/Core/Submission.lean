import Mathlib.Data.Rat.Floor
import FlashEdge.Js
import FlashEdge.Solana

/-!
# One submission of the transaction engine (`core/ultra-tx-engine.ts`)

`_submitTransactionInner` is a loop of up to three attempts, each with several
waits: for the status of the last signature (retries only), a blockhash, the
priority fee, the simulation (first attempt only), the broadcast, and the
confirmation. A `Submission` is the state of the loop at one of its waits, and
`Submission.step` what happens when the answer arrives.

What the network answers is arbitrary, and any wait may throw. Broadcasting
starts in the step that ends the wait before it: the transaction may reach a
leader although the answer is an error. Left out are the metrics, the log, the
pauses for partitions and for a failover, and what additional signers sign:
none of them is read by the code modelled here.
-/

namespace FlashEdge

/-- Maximum transaction attempts before failure. -/
def MAX_ATTEMPTS : ℕ := 3

structure TxEngineConfig where
  computeUnitPrice : ℕ := 100000
  computeUnitLimit : ℕ := 220000
  dynamicCompute : Option Bool := none
  computeBufferPercent : Option ℚ := none
deriving DecidableEq, Repr

structure LatestBlockhash where
  blockhash : String
  lastValidBlockHeight : ℕ
deriving DecidableEq, Repr

inductive ConfirmationStatus where
  | processed
  | confirmed
  | finalized
deriving DecidableEq, Repr

/-- A signature status as the network reports it; `err` is its JSON text. -/
structure SignatureStatus where
  err : Option String
  confirmationStatus : Option ConfirmationStatus
deriving DecidableEq, Repr

/-- No error, and confirmed or finalized. -/
def SignatureStatus.landed (status : SignatureStatus) : Bool :=
  status.err.isNone && (status.confirmationStatus = some .confirmed ||
    status.confirmationStatus = some .finalized)

/-- The value of a simulation; `err` is its JSON text. -/
structure SimulationValue where
  err : Option String
  unitsConsumed : Option ℕ
deriving DecidableEq, Repr

/-! ## Errors of programs -/

/-- The digits after `custom`, in any case, with or without a bracket, at the
first place where there are some. -/
def customCode : List Char → Option (List Char)
  | [] => none
  | c :: cs =>
    let rest := (c :: cs).drop 6
    let digits := match rest with
      -- the bracket is optional
      | '(' :: rest => rest.takeWhile Char.isDigit
      | rest => rest.takeWhile Char.isDigit
    if ((c :: cs).take 6).map Char.toLower = "custom".toList ∧ digits ≠ [] then some digits
    else customCode cs

def mapProgramError (rawError : String) : String :=
  if includes rawError "Custom(3012)" || includes rawError "\"Custom\":3012" then
    "Trade rejected by Flash protocol.\n" ++
    "\n" ++
    "  Possible reasons:\n" ++
    "  • Market is currently closed (virtual markets follow real-world trading sessions)\n" ++
    "  • Oracle price is stale or unavailable\n" ++
    "  • Insufficient pool liquidity\n" ++
    "  • Position below minimum size\n" ++
    "\n" ++
    "  If this is a commodity or FX market, try again during trading hours."
  else
    match customCode rawError.toList with
    | some digits =>
      "Trade rejected by Flash protocol (error " ++ String.ofList digits ++
        "). The transaction did not execute."
    | none =>
      "Transaction rejected by program: " ++ String.ofList (rawError.toList.take 300)

/-- The `catch` of `simulateTransaction`: rejections go on, other failures of the
simulation count as no result. -/
def simulationCatch (simMsg : String) : Except String (Option ℕ) :=
  if includes simMsg "simulation failed" || includes simMsg "Trade rejected" ||
      includes simMsg "Transaction rejected" then .error simMsg
  else .ok none

/-- The units a simulation consumed, if it says so, or the error it ends in. -/
def simulateTransaction (value : SimulationValue) : Except String (Option ℕ) :=
  match value.err with
  | some simErr =>
    if includes simErr "InstructionError" || includes simErr "Custom" then
      simulationCatch (mapProgramError simErr)
    else .ok none
  | none => .ok value.unitsConsumed

/-- Whether an error ends the loop at once. -/
def isTerminal (eMsg : String) : Bool :=
  includes eMsg "failed on-chain" || includes eMsg "Trade rejected" ||
    includes eMsg "Transaction rejected"

/-! ## Building a transaction -/

/-- Compile and sign: the compute budget, and the instructions. -/
def buildTransaction (wallet : String) (instructions : List TransactionInstruction)
    (cuLimit priorityFee : ℕ) (blockhash : String) : Signature :=
  { message :=
      { payerKey := wallet
        instructions := buildOrderedIxs (setComputeUnitLimit cuLimit)
          (setComputeUnitPrice priorityFee) instructions
        recentBlockhash := blockhash } }

/-- The tighter limit for what a simulation consumed: with the buffer, in steps of
ten thousand, at least 120 000 and at most the limit. -/
def dynamicLimit (config : TxEngineConfig) (effectiveCuLimit simUnitsConsumed : ℕ) : ℕ :=
  let bufferPct := config.computeBufferPercent.getD 20
  -- `Math.ceil(… / 10_000) * 10_000`
  let rawLimit := ⌈simUnitsConsumed * (1 + bufferPct / 100) / 10000⌉.toNat * 10000
  max 120000 (min rawLimit effectiveCuLimit)

/-- The limit of the transaction that is broadcast. -/
def finalCuLimit (config : TxEngineConfig) (effectiveCuLimit : ℕ) (simUnitsConsumed : Option ℕ) :
    ℕ :=
  match simUnitsConsumed with
  | none => effectiveCuLimit
  | some units =>
    if 0 < units ∧ config.dynamicCompute ≠ some false then
      let limit := dynamicLimit config effectiveCuLimit units
      if limit < effectiveCuLimit ∧ units ≤ limit then limit else effectiveCuLimit
    else effectiveCuLimit

/-! ## The loop -/

/-- A signed transaction, and how long the network takes it. -/
structure SignedTransaction where
  signature : Signature
  lastValidBlockHeight : ℕ
deriving DecidableEq, Repr

/-- What the promise of a submission rejects with. -/
inductive SubmissionError where
  | thrown (message : String)
  | attemptsExhausted (lastError : String) (lastSignature : Option Signature)
deriving DecidableEq, Repr

/-- What a submission waits for, or how it has ended. -/
inductive SubmissionPhase where
  | lateStatus (lastSignature : Signature)
  | blockhash
  | priorityFee (bh : LatestBlockhash)
  | simulation (bh : LatestBlockhash) (priorityFee : ℕ)
  | broadcast (tx : SignedTransaction)
  | confirmation (tx : SignedTransaction)
  | resolved (signature : Signature) (attempts : ℕ)
  | rejected (error : SubmissionError)
deriving DecidableEq, Repr

structure Submission where
  instructions : List TransactionInstruction
  computeUnitLimitOverride : Option ℕ := none
  attempt : ℕ := 1
  lastError : String := ""
  lastSignature : Option Signature := none
  phase : SubmissionPhase := .blockhash
deriving DecidableEq, Repr

/-- The answer to a wait. -/
inductive Reply where
  | status (status : Option SignatureStatus)
  | blockhash (bh : LatestBlockhash)
  | priorityFee (fee : ℕ)
  | simulation (value : SimulationValue)
  | sent
  | confirmed
  | throws (message : String)
deriving DecidableEq, Repr

/-- What a submission does that others see. -/
inductive SubmissionEvent where
  | signed (attempt : ℕ) (tx : SignedTransaction)
  | broadcast (attempt : ℕ) (tx : SignedTransaction)
deriving DecidableEq, Repr

namespace Submission

variable (config : TxEngineConfig) (wallet : String)

def effectiveCuLimit (s : Submission) : ℕ :=
  s.computeUnitLimitOverride.getD config.computeUnitLimit

/-- The transaction of these instructions with a compute-unit limit. -/
def sign (s : Submission) (cuLimit : ℕ) (bh : LatestBlockhash) (fee : ℕ) : SignedTransaction :=
  { signature := buildTransaction wallet s.instructions cuLimit fee bh.blockhash
    lastValidBlockHeight := bh.lastValidBlockHeight }

/-- The `catch` of an attempt: the end, or the beginning of the next attempt,
which looks first whether the last signature has landed late. -/
def failAttempt (s : Submission) (eMsg : String) : Submission :=
  if isTerminal eMsg then { s with phase := .rejected (.thrown eMsg) }
  else if s.attempt < MAX_ATTEMPTS then
    { s with
      lastError := eMsg
      attempt := s.attempt + 1
      phase := match s.lastSignature with
        | some signature => .lateStatus signature
        | none => .blockhash }
  else
    { s with
      lastError := eMsg
      phase := .rejected (.attemptsExhausted eMsg s.lastSignature) }

/-- The priority fee has arrived: sign, and simulate in the first attempt. -/
def feeArrived (s : Submission) (bh : LatestBlockhash) (fee : ℕ) :
    Submission × List SubmissionEvent :=
  let tx := s.sign wallet (s.effectiveCuLimit config) bh fee
  if s.attempt = 1 then
    ({ s with phase := .simulation bh fee }, [.signed s.attempt tx])
  else
    ({ s with phase := .broadcast tx }, [.signed s.attempt tx, .broadcast s.attempt tx])

/-- The simulation has answered: give up, or sign again with the tighter limit if
there is one, and broadcast. -/
def simulated (s : Submission) (bh : LatestBlockhash) (fee : ℕ)
    (result : Except String (Option ℕ)) : Submission × List SubmissionEvent :=
  match result with
  | .error eMsg => (s.failAttempt eMsg, [])
  | .ok simUnitsConsumed =>
    let cuLimit := finalCuLimit config (s.effectiveCuLimit config) simUnitsConsumed
    let tx := s.sign wallet cuLimit bh fee
    -- the transaction of the simulation is sent unless the limit has changed
    let resigned := if cuLimit = s.effectiveCuLimit config then [] else [.signed s.attempt tx]
    ({ s with phase := .broadcast tx }, resigned ++ [.broadcast s.attempt tx])

/-- One answer. An exception is swallowed while the last signature is looked up,
taken for an answer while simulating, and ends the attempt everywhere else. -/
def step (s : Submission) (r : Reply) : Option (Submission × List SubmissionEvent) :=
  match s.phase, r with
  | .lateStatus lastSignature, .status (some status) =>
    if status.landed then
      some ({ s with phase := .resolved lastSignature (s.attempt - 1) }, [])
    else some ({ s with phase := .blockhash }, [])
  | .lateStatus _, .status none => some ({ s with phase := .blockhash }, [])
  | .lateStatus _, .throws _ => some ({ s with phase := .blockhash }, [])
  | .blockhash, .blockhash bh => some ({ s with phase := .priorityFee bh }, [])
  | .blockhash, .throws eMsg => some (s.failAttempt eMsg, [])
  | .priorityFee bh, .priorityFee fee => some (s.feeArrived config wallet bh fee)
  | .priorityFee _, .throws eMsg => some (s.failAttempt eMsg, [])
  | .simulation bh fee, .simulation value =>
    some (s.simulated config wallet bh fee (simulateTransaction value))
  | .simulation bh fee, .throws simMsg =>
    some (s.simulated config wallet bh fee (simulationCatch simMsg))
  | .broadcast tx, .sent =>
    some ({ s with lastSignature := some tx.signature, phase := .confirmation tx }, [])
  | .broadcast _, .throws eMsg => some (s.failAttempt eMsg, [])
  | .confirmation tx, .confirmed =>
    some ({ s with phase := .resolved tx.signature s.attempt }, [])
  | .confirmation _, .throws eMsg => some (s.failAttempt eMsg, [])
  | _, _ => none

end Submission

end FlashEdge
