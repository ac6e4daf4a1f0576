import FlashEdge.Core.Submission
import FlashEdge.Theory.Machine

/-!
# The transaction engine and its callers (`core/ultra-tx-engine.ts`)

`submitTransaction` starts a submission and keeps its promise in
`submitInProgressPromise` until it has settled; a call made meanwhile is handed
that promise. A prebuilt transaction is sent by its own `submit`, which looks at
the guard in the same way, does not set it, and clears it when it is done.

A promise is an index into `promises`. When its work has ended, its `finally`
runs (`settle`), and only then are the calls that wait for it answered, in any
order and with anything in between (`answer`).

The checks that `prebuildTransaction` makes first, and its two waits, are left
out: it changes nothing until it returns.
-/

namespace FlashEdge

/-- What `prebuildTransaction` returns. -/
structure PrebuiltTransaction where
  instructions : List TransactionInstruction
  tx : SignedTransaction
  builtAt : ℚ
deriving DecidableEq, Repr

/-- Whether a prebuilt transaction is too old to be sent. -/
def PrebuiltTransaction.isExpired (p : PrebuiltTransaction) (now : ℚ) : Bool :=
  decide (30000 < now - p.builtAt)

/-- What the `submit` of a prebuilt transaction waits for, or how it has ended. -/
inductive PrebuiltPhase where
  | broadcast
  | confirmation
  | resolved
  | rejected (message : String)
deriving DecidableEq, Repr

/-- The work behind a promise. -/
inductive Job where
  | submission (s : Submission)
  | prebuilt (p : PrebuiltTransaction) (phase : PrebuiltPhase)
deriving DecidableEq, Repr

namespace Job

/-- The instructions the work was started for. -/
def instructions : Job → List TransactionInstruction
  | submission s => s.instructions
  | prebuilt p _ => p.instructions

/-- How the work has ended, if it has. -/
def outcome : Job → Option (Except SubmissionError Signature)
  | submission s =>
    match s.phase with
    | .resolved signature _ => some (.ok signature)
    | .rejected error => some (.error error)
    | _ => none
  | prebuilt p phase =>
    match phase with
    | .resolved => some (.ok p.tx.signature)
    | .rejected message => some (.error (.thrown message))
    | _ => none

/-- One answer of the network. -/
def step (config : TxEngineConfig) (wallet : String) (job : Job) (r : Reply) :
    Option (Job × List SubmissionEvent) :=
  match job with
  | submission s => (s.step config wallet r).map fun p => (submission p.1, p.2)
  | prebuilt p phase =>
    match phase, r with
    | .broadcast, .sent => some (prebuilt p .confirmation, [])
    | .broadcast, .throws message => some (prebuilt p (.rejected message), [])
    | .confirmation, .confirmed => some (prebuilt p .resolved, [])
    | .confirmation, .throws message => some (prebuilt p (.rejected message), [])
    | _, _ => none

end Job

/-- A promise of the engine; `settled` once its `finally` has run. -/
structure EnginePromise where
  job : Job
  settled : Bool := false
deriving DecidableEq, Repr

/-- A call of `submitTransaction` or of a prebuilt `submit`, and the promise it
was handed. -/
structure SubmitCall where
  instructions : List TransactionInstruction
  promise : ℕ
  answered : Bool := false
deriving DecidableEq, Repr

structure UltraTxEngine where
  wallet : String
  config : TxEngineConfig := {}
  promises : List EnginePromise := []
  submitInProgressPromise : Option ℕ := none
  prebuilt : List PrebuiltTransaction := []
  calls : List SubmitCall := []
deriving DecidableEq, Repr

namespace UltraTxEngine

/-- What is seen of the engine: its transactions, and how its calls end. -/
inductive Event where
  | transaction (promise : ℕ) (e : SubmissionEvent)
  | resolved (call : ℕ) (instructions : List TransactionInstruction) (signature : Signature)
  | rejected (call : ℕ) (error : SubmissionError)
deriving DecidableEq, Repr

/-- A call for these instructions is handed a promise. -/
def handOut (s : UltraTxEngine) (instructions : List TransactionInstruction) (promise : ℕ) :
    UltraTxEngine :=
  { s with calls := s.calls ++ [{ instructions, promise }] }

def submitTransaction (s : UltraTxEngine) (instructions : List TransactionInstruction)
    (computeUnitLimitOverride : Option ℕ) : UltraTxEngine :=
  match s.submitInProgressPromise with
  -- the promise in progress is returned, whatever it was started for
  | some promise => s.handOut instructions promise
  | none =>
    let promise := s.promises.length
    handOut
      { s with
        promises := s.promises ++ [{ job := .submission { instructions, computeUnitLimitOverride } }]
        submitInProgressPromise := some promise }
      instructions promise

/-- Build and sign without sending. -/
def prebuildTransaction (s : UltraTxEngine) (instructions : List TransactionInstruction)
    (computeUnitLimitOverride : Option ℕ) (bh : LatestBlockhash) (priorityFee : ℕ) (now : ℚ) :
    UltraTxEngine :=
  let effectiveCuLimit := computeUnitLimitOverride.getD s.config.computeUnitLimit
  let tx :=
    { signature := buildTransaction s.wallet instructions effectiveCuLimit priorityFee bh.blockhash
      lastValidBlockHeight := bh.lastValidBlockHeight }
  { s with prebuilt := s.prebuilt ++ [{ instructions, tx, builtAt := now }] }

/-- `submit` of a prebuilt transaction: an expired one becomes an ordinary
submission. -/
def submitPrebuilt (s : UltraTxEngine) (p : PrebuiltTransaction) (now : ℚ) :
    UltraTxEngine × List Event :=
  if p.isExpired now then (s.submitTransaction p.instructions none, [])
  else
    match s.submitInProgressPromise with
    | some promise => (s.handOut p.instructions promise, [])
    | none =>
      -- this work does not set the guard, although its `finally` clears it
      let promise := s.promises.length
      (handOut { s with promises := s.promises ++ [{ job := .prebuilt p .broadcast }] }
        p.instructions promise, [.transaction promise (.broadcast 1 p.tx)])

/-- An answer of the network for the work of a promise. -/
def reply (s : UltraTxEngine) (promise : ℕ) (r : Reply) : Option (UltraTxEngine × List Event) :=
  match s.promises[promise]? with
  | none => none
  | some p =>
    (p.job.step s.config s.wallet r).map fun result =>
      ({ s with promises := s.promises.set promise { p with job := result.1 } },
        result.2.map (.transaction promise))

/-- The `finally` of a promise clears the guard, whoever has set it. -/
def settle (s : UltraTxEngine) (promise : ℕ) : Option (UltraTxEngine × List Event) :=
  match s.promises[promise]? with
  | none => none
  | some p =>
    if p.settled ∨ p.job.outcome = none then none
    else
      some
        ({ s with
            promises := s.promises.set promise { p with settled := true }
            submitInProgressPromise := none }, [])

/-- A call is answered with what its promise has settled to. -/
def answer (s : UltraTxEngine) (call : ℕ) : Option (UltraTxEngine × List Event) :=
  match s.calls[call]? with
  | none => none
  | some c =>
    match s.promises[c.promise]? with
    | none => none
    | some p =>
      if c.answered ∨ p.settled = false then none
      else
        p.job.outcome.map fun outcome =>
          ({ s with calls := s.calls.set call { c with answered := true } },
            [match outcome with
              | .ok signature => .resolved call c.instructions signature
              | .error error => .rejected call error])

inductive Action where
  | submitTransaction (instructions : List TransactionInstruction)
      (computeUnitLimitOverride : Option ℕ)
  | prebuildTransaction (instructions : List TransactionInstruction)
      (computeUnitLimitOverride : Option ℕ) (bh : LatestBlockhash) (priorityFee : ℕ) (now : ℚ)
  | submitPrebuilt (index : ℕ) (now : ℚ)
  | reply (promise : ℕ) (r : Reply)
  | settle (promise : ℕ)
  | answer (call : ℕ)
  | updateWallet (wallet : String)

def step (s : UltraTxEngine) : Action → Option (UltraTxEngine × List Event)
  | .submitTransaction instructions computeUnitLimitOverride =>
    some (s.submitTransaction instructions computeUnitLimitOverride, [])
  | .prebuildTransaction instructions computeUnitLimitOverride bh priorityFee now =>
    some (s.prebuildTransaction instructions computeUnitLimitOverride bh priorityFee now, [])
  | .submitPrebuilt index now => s.prebuilt[index]?.map fun p => s.submitPrebuilt p now
  | .reply promise r => s.reply promise r
  | .settle promise => s.settle promise
  | .answer call => s.answer call
  | .updateWallet wallet => some ({ s with wallet }, [])

variable {s s' : UltraTxEngine} {es : List Event}

/-- What an answer says, and to whom. -/
theorem answer_cases {call : ℕ} (hs : s.answer call = some (s', es)) :
    ∃ c p outcome, s.calls[call]? = some c ∧ s.promises[c.promise]? = some p ∧
      p.job.outcome = some outcome ∧
      s' = { s with calls := s.calls.set call { c with answered := true } } ∧
      es = [match outcome with
        | .ok signature => .resolved call c.instructions signature
        | .error error => .rejected call error] := by
  unfold UltraTxEngine.answer at hs
  split at hs
  · cases hs
  next c hc =>
  split at hs
  · cases hs
  next p hp =>
  split at hs
  · cases hs
  · obtain ⟨outcome, hout, heq⟩ := Option.map_eq_some_iff.mp hs
    cases heq
    exact ⟨c, p, outcome, hc, hp, hout, rfl, rfl⟩

end UltraTxEngine

/-- The engine of a wallet. -/
def ultraTxEngine (config : TxEngineConfig) (wallet : String) :
    Machine UltraTxEngine UltraTxEngine.Action UltraTxEngine.Event where
  init := { wallet, config }
  step := UltraTxEngine.step

end FlashEdge
