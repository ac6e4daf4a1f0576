import FlashEdge.Journal.TradeJournal
import FlashEdge.Theory.Machine

/-!
# Journaled trades and their recovery (`tools/flash-tools.ts`, `runtime/recovery-engine.ts`)

The `executeAction` of an open, a close or a change of collateral records the trade
as pending, calls the client, and once that has returned records the signature,
records the confirmation and removes the entry; if the call throws it removes the
entry. The client broadcasts and waits for the confirmation in that one call. A
process that starts again reads the journal, drops what is older than a day and
asks the chain about every entry that is pending or sent.

`journaledTrades` is the machine of such processes: they may crash between any two
of these steps. The chain answers truthfully about a transaction that has landed or
failed, but may not find it (the status query does not search the history).
-/

namespace FlashEdge

namespace Recovery

def STALE_ENTRY_AGE_MS : ℚ := 24 * 60 * 60000

/-- Older than that, a transaction that is not found is given up. -/
def NOT_FOUND_AGE_MS : ℚ := 5 * 60000

/-- What `getSignatureStatuses` says of one signature. -/
inductive SignatureStatus where
  | unavailable
  | notFound
  | err
  | processed
  | confirmed
  | finalized
deriving DecidableEq, Repr

/-- What becomes of an entry. -/
inductive Verdict where
  | neverBroadcast
  | recovered
  | failedOnChain
  | notFoundOnChain
  | kept
deriving DecidableEq, Repr

/-- `verifyEntry`, up to what it does to the journal. -/
def verifyEntry (entry : JournalEntry) (status : SignatureStatus) (now : ℚ) : Verdict :=
  match entry.signature with
  | none => .neverBroadcast
  | some _ =>
    match status with
    -- the query has thrown: it may go well next time
    | .unavailable => .kept
    | .confirmed => .recovered
    | .finalized => .recovered
    | .err => .failedOnChain
    | _ => if NOT_FOUND_AGE_MS < now - entry.createdAt then .notFoundOnChain else .kept

/-- A verdict that counts as failed: the entry is removed. -/
def Verdict.failed : Verdict → Bool
  | .neverBroadcast => true
  | .failedOnChain => true
  | .notFoundOnChain => true
  | _ => false

/-! ## The machine -/

/-- An `executeAction` at an `await` or between two writes: the client has been
called, and has broadcast these signatures; or it has returned the signature, and
the journal has recorded that it was sent, or that it was confirmed. -/
inductive TradeTask where
  | calling (broadcasts : List String)
  | sent (signature : String)
  | confirmed (signature : String)
deriving DecidableEq

/-- The process: not there, starting (with the ids that are still to be verified),
or in normal operation. -/
inductive Phase where
  | down
  | recovering (pending : List ℕ)
  | running
deriving DecidableEq

/-- `interrupted id`: the signature of a trade that was broadcast and whose
`executeAction` did not get to the end of its success path. -/
structure RecoveryState where
  phase : Phase := .running
  journal : TradeJournal := {}
  clock : ℚ := 0
  nextId : ℕ := 0
  tasks : ℕ → Option TradeTask := fun _ => none
  interrupted : ℕ → Option String := fun _ => none
  broadcasts : List String := []
  landed : List String := []

inductive RecoveryEvent where
  | broadcast (id : ℕ) (signature : String)
  | verified (id : ℕ) (verdict : Verdict)
deriving DecidableEq, Repr

inductive RecoveryStep where
  /-- `executeAction` of a confirmed trade begins -/
  | execute (market : String) (side : TradeSide) (action : JournalAction) (flushed : Flush)
      (now : ℚ)
  | broadcast (id : ℕ) (signature : String)
  | land (signature : String)
  /-- the client returns, or throws -/
  | returned (id : ℕ) (signature : String) (flushed : Flush) (now : ℚ)
  | threw (id : ℕ) (flushed : Flush)
  | recordConfirmed (id : ℕ) (flushed : Flush) (now : ℚ)
  | remove (id : ℕ) (flushed : Flush)
  | crash
  /-- a new process, with an RPC connection or without -/
  | start (readable connected : Bool) (flushed : Flush) (now : ℚ)
  | verify (status : SignatureStatus) (flushed : Flush) (now : ℚ)
  /-- the three seconds are over -/
  | recoveryTimeout
deriving DecidableEq

/-- The signature that was broadcast last, of a trade that is interrupted. -/
def TradeTask.lastBroadcast : TradeTask → Option String
  | .calling broadcasts => broadcasts.getLast?
  | .sent signature => some signature
  -- the journal says that the trade was confirmed
  | .confirmed _ => none

/-- A status query does not say that a transaction that has landed has failed, nor
that one that has not has landed. -/
def Truthful (landed : List String) (signature : Option String) : SignatureStatus → Prop
  | .err => ∀ sig, signature = some sig → sig ∉ landed
  | .confirmed => ∀ sig, signature = some sig → sig ∈ landed
  | .finalized => ∀ sig, signature = some sig → sig ∈ landed
  | _ => True

instance (landed : List String) (signature : Option String) (status : SignatureStatus) :
    Decidable (Truthful landed signature status) := by
  cases status <;> cases signature <;> (simp only [Truthful]; infer_instance)

namespace RecoveryState

/-- The verdict on the entry with this id. -/
def applyVerdict (s : RecoveryState) (id : ℕ) (verdict : Verdict) (flushed : Flush) (now : ℚ) :
    RecoveryState :=
  match verdict with
  | .kept => s
  | .recovered =>
    { s with
      journal := (s.journal.recordConfirmed id now flushed).remove id flushed
      interrupted := Function.update s.interrupted id none }
  | _ =>
    { s with
      journal := s.journal.remove id flushed
      interrupted := Function.update s.interrupted id none }

def step (s : RecoveryState) : RecoveryStep → Option (RecoveryState × List RecoveryEvent)
  | .execute market side action flushed now =>
    -- the tools have looked the market up
    if s.phase ≠ .running ∨ market = "" ∨ now < s.clock ∨ now ≤ 0 then none
    else
      some ({ s with
          clock := now
          journal := s.journal.recordPending s.nextId market side action now flushed
          tasks := Function.update s.tasks s.nextId (some (.calling []))
          nextId := s.nextId + 1 }, [])
  | .broadcast id signature =>
    match s.tasks id with
    | some (.calling broadcasts) =>
      if signature ∈ s.broadcasts then none
      else
        some ({ s with
            tasks := Function.update s.tasks id (some (.calling (broadcasts ++ [signature])))
            broadcasts := s.broadcasts ++ [signature] }, [.broadcast id signature])
    | _ => none
  | .land signature =>
    if signature ∈ s.broadcasts ∧ signature ∉ s.landed then
      some ({ s with landed := s.landed ++ [signature] }, [])
    else none
  | .returned id signature flushed now =>
    match s.tasks id with
    | some (.calling broadcasts) =>
      -- the client returns a signature that it has seen confirmed
      if signature ∈ broadcasts ∧ signature ∈ s.landed ∧ s.clock ≤ now ∧ 0 < now then
        some ({ s with
            clock := now
            journal := s.journal.recordSent id signature now flushed
            tasks := Function.update s.tasks id (some (.sent signature)) }, [])
      else none
    | _ => none
  | .threw id flushed =>
    match s.tasks id with
    | some (.calling broadcasts) =>
      some ({ s with
          journal := s.journal.remove id flushed
          tasks := Function.update s.tasks id none
          interrupted := Function.update s.interrupted id broadcasts.getLast? }, [])
    | _ => none
  | .recordConfirmed id flushed now =>
    match s.tasks id with
    | some (.sent signature) =>
      if now < s.clock ∨ now ≤ 0 then none
      else
        some ({ s with
            clock := now
            journal := s.journal.recordConfirmed id now flushed
            tasks := Function.update s.tasks id (some (.confirmed signature)) }, [])
    | _ => none
  | .remove id flushed =>
    match s.tasks id with
    | some (.confirmed _) =>
      some ({ s with
          journal := s.journal.remove id flushed
          tasks := Function.update s.tasks id none }, [])
    | _ => none
  | .crash =>
    if s.phase = .down then none
    else
      some ({ s with
          phase := .down
          tasks := fun _ => none
          interrupted := fun id => (s.tasks id).elim (s.interrupted id) TradeTask.lastBroadcast },
        [])
  | .start readable connected flushed now =>
    if s.phase ≠ .down ∨ now < s.clock ∨ now ≤ 0 then none
    else
      let journal := (s.journal.load readable flushed).pruneStale STALE_ENTRY_AGE_MS now flushed
      let pending := journal.getPendingEntries
      some ({ s with
          clock := now
          journal
          phase := if pending = [] ∨ ¬ connected then .running else .recovering pending }, [])
  | .verify status flushed now =>
    match s.phase with
    | .recovering (id :: pending) =>
      let phase := if pending = [] then Phase.running else .recovering pending
      match s.journal.entries.get? id with
      | none => some ({ s with phase }, [])
      | some entry =>
        if now < s.clock ∨ now ≤ 0 ∨ ¬ Truthful s.landed entry.signature status then none
        else
          let verdict := verifyEntry entry status now
          let resumed : RecoveryState := { s with phase, clock := now }
          some (resumed.applyVerdict id verdict flushed now, [.verified id verdict])
    | _ => none
  | .recoveryTimeout =>
    match s.phase with
    | .recovering _ => some ({ s with phase := .running }, [])
    | _ => none

end RecoveryState

end Recovery

open Recovery in
/-- Processes one after another on one journal, from an empty one. -/
def journaledTrades : Machine RecoveryState RecoveryStep RecoveryEvent where
  init := {}
  step := RecoveryState.step

end FlashEdge
