import FlashEdge.Js
import FlashEdge.Theory.Machine
import FlashEdge.Theory.OrderedMap

/-!
# The state reconciler (`core/state-reconciliation.ts`)

The reconciler keeps a last known set of positions. `reconcile` fetches the
positions, drops the ones whose numbers are corrupt, and compares the *number* of
the others with that of the last known set: when there are fewer it waits, fetches
once more, and counts a mismatch cycle if there are still fewer. `verifyTrade`
fetches and stores what it gets.

Both calls wait for the client, `reconcile` up to twice and for a delay in
between, and nothing keeps two calls apart. A call in progress is therefore an
entry of `calls` that says where it stands; each answer of a client resumes one
call. The log file and the warnings on the terminal have no effect on the state
and are left out, and so is the timer that calls `reconcile`: a call may start in
any state.
-/

namespace FlashEdge

namespace StateReconciler

def MISMATCH_CYCLES_BEFORE_REMOVAL : ℕ := 3

/-- What the reconciler reads of a position. -/
structure Position where
  market : String
  side : TradeSide
  sizeUsd : JsNumber
  entryPrice : JsNumber
  collateralUsd : JsNumber
deriving DecidableEq, Repr

structure ReconciliationResult where
  hadDiscrepancy : Bool
  onChainCount : ℕ
  added : List String
  removed : List String
  timestamp : ℚ
deriving DecidableEq, Repr

/-- Where a call in progress stands, with the clients its fetches were started
against (`client` is a number: the reconciler only passes it on). -/
inductive Call where
  | fetching (now : ℚ) (client : ℕ)
  | delayed (now : ℚ) (client : ℕ) (onChainMap : OrderedMap String Position)
  | retrying (now : ℚ) (client : ℕ) (onChainMap : OrderedMap String Position) (retryClient : ℕ)
  | verifying (market side : String) (client : ℕ)
deriving DecidableEq

/-- The method that stores a set of positions. -/
inductive Storer where
  | reconcile
  | verifyTrade
deriving DecidableEq, Repr

/-- What an observer sees: client switches; each answered fetch, and whether it
has the same positions as the last known set; the outcome of the comparison in a
`reconcile` (at least as many positions, or fewer in the fetch and in the retry,
whose number is `none` when it failed); each stored set, with the keys before and
after; and the results. -/
inductive Event where
  | clientSet (client : ℕ)
  | fetched (agrees : Bool)
  | atLeastAsMany
  | shortfall (known : ℕ) (retried : Option ℕ)
  | stored (storer : Storer) (client : ℕ) (before after : List String)
  | reconciled (result : ReconciliationResult)
  | verified (found : Bool)
deriving DecidableEq, Repr

end StateReconciler

open StateReconciler in
/-- The reconciler, with its calls in progress. `storedFrom` is not a field of
the code: it is the client whose answer the last known set is. -/
structure StateReconciler where
  client : ℕ := 0
  lastKnownPositions : OrderedMap String Position := .empty
  lastReconcileAt : ℚ := 0
  reconcileWarningShown : Bool := false
  consecutiveMismatchCycles : ℕ := 0
  storedFrom : ℕ := 0
  calls : OrderedMap ℕ Call := .empty
  nextCall : ℕ := 0
deriving DecidableEq

namespace StateReconciler

def setClient (e : StateReconciler) (client : ℕ) : StateReconciler × List Event :=
  ({ e with
      client
      lastKnownPositions := .empty
      reconcileWarningShown := false
      consecutiveMismatchCycles := 0
      storedFrom := client },
    [.clientSet client])

/-- The numeric integrity check. -/
def intact (pos : Position) : Bool :=
  pos.sizeUsd.finitePositive?.isSome && pos.entryPrice.finitePositive?.isSome &&
    pos.collateralUsd.finitePositive?.isSome

def Position.key (pos : Position) : String := pos.market ++ ":" ++ pos.side.value

/-- The map of the intact positions of an answer. -/
def onChainMapOf (positions : List Position) : OrderedMap String Position :=
  positions.foldl (fun m pos => if intact pos then m.set pos.key pos else m) .empty

/-- Whether two sets of positions have the same keys. -/
def sameKeys (a b : OrderedMap String Position) : Bool :=
  a.keys.all (b.has ·) && b.keys.all (a.has ·)

/-- The result of a pass that changes nothing. -/
def unchangedResult (now : ℚ) (onChainCount : ℕ) : ReconciliationResult :=
  { hadDiscrepancy := false, onChainCount, added := [], removed := [], timestamp := now }

/-- A call ends. -/
def endCall (e : StateReconciler) (id : ℕ) : StateReconciler :=
  { e with calls := e.calls.delete id }

/-- `reconcile`, up to its first fetch. -/
def reconcile (e : StateReconciler) (now : ℚ) : StateReconciler :=
  { e with calls := e.calls.set e.nextCall (.fetching now e.client), nextCall := e.nextCall + 1 }

/-- The end of `reconcile`: compare with the last known set and replace it. -/
def acceptOnChain (e : StateReconciler) (now : ℚ) (client : ℕ)
    (onChainMap : OrderedMap String Position) : StateReconciler × List Event :=
  let added := onChainMap.keys.filter fun key => !e.lastKnownPositions.has key
  let removed := e.lastKnownPositions.keys.filter fun key => !onChainMap.has key
  let hadDiscrepancy := decide (0 < added.length) || decide (0 < removed.length)
  ({ e with lastKnownPositions := onChainMap, lastReconcileAt := now, storedFrom := client },
    [.stored .reconcile client e.lastKnownPositions.keys onChainMap.keys,
      .reconciled
        { hadDiscrepancy, onChainCount := onChainMap.size, added, removed, timestamp := now }])

/-- The first fetch of a `reconcile` has been answered, or has failed. -/
def reconcileFetched (e : StateReconciler) (id : ℕ) (now : ℚ) (client : ℕ)
    (answer : Option (List Position)) : StateReconciler × List Event :=
  match answer with
  | none =>
    -- the fetch threw: the pass changes nothing
    (e.endCall id, [.reconciled (unchangedResult now e.lastKnownPositions.size)])
  | some onChainPositions =>
    let onChainMap := onChainMapOf onChainPositions
    let fetched : Event := .fetched (sameKeys onChainMap e.lastKnownPositions)
    if onChainMap.size < e.lastKnownPositions.size then
      ({ e with calls := e.calls.set id (.delayed now client onChainMap) }, [fetched])
    else
      -- only the sizes are compared: other keys of the same number end a mismatch too
      let e := { e with reconcileWarningShown := false, consecutiveMismatchCycles := 0 }
      let r := (e.endCall id).acceptOnChain now client onChainMap
      (r.1, fetched :: .atLeastAsMany :: r.2)

/-- The delay is over: the retry fetch is started. -/
def reconcileDelayOver (e : StateReconciler) (id : ℕ) (now : ℚ) (client : ℕ)
    (onChainMap : OrderedMap String Position) : StateReconciler :=
  { e with calls := e.calls.set id (.retrying now client onChainMap e.client) }

/-- The mismatch persists after the retry: it is counted, and from the third
cycle on the first fetch is accepted. -/
def mismatchPersists (e : StateReconciler) (id : ℕ) (now : ℚ) (client : ℕ)
    (onChainMap : OrderedMap String Position) (retried : Option ℕ) :
    StateReconciler × List Event :=
  let shortfall : Event := .shortfall e.lastKnownPositions.size retried
  let e := { e with
    consecutiveMismatchCycles := e.consecutiveMismatchCycles + 1
    reconcileWarningShown := true }
  if e.consecutiveMismatchCycles < MISMATCH_CYCLES_BEFORE_REMOVAL then
    (e.endCall id,
      [shortfall, .reconciled (unchangedResult now e.lastKnownPositions.size)])
  else
    -- the first fetch is accepted, whatever the retry has answered
    let r := (e.endCall id).acceptOnChain now client onChainMap
    (r.1, shortfall :: r.2)

/-- The retry fetch of a `reconcile` has been answered, or has failed. -/
def reconcileRetried (e : StateReconciler) (id : ℕ) (now : ℚ) (client : ℕ)
    (onChainMap : OrderedMap String Position) (retryClient : ℕ)
    (answer : Option (List Position)) : StateReconciler × List Event :=
  match answer with
  | none => e.mismatchPersists id now client onChainMap none
  | some retryPositions =>
    let retryMap := onChainMapOf retryPositions
    let fetched : Event := .fetched (sameKeys retryMap e.lastKnownPositions)
    if e.lastKnownPositions.size ≤ retryMap.size then
      -- the retried data is stored as it is, without a comparison of keys
      ({ e.endCall id with
          reconcileWarningShown := false
          consecutiveMismatchCycles := 0
          lastKnownPositions := retryMap
          lastReconcileAt := now
          storedFrom := retryClient },
        [fetched, .atLeastAsMany,
          .stored .reconcile retryClient e.lastKnownPositions.keys retryMap.keys,
          .reconciled (unchangedResult now retryMap.size)])
    else
      let r := e.mismatchPersists id now client onChainMap (some retryMap.size)
      (r.1, fetched :: r.2)

/-- `verifyTrade`, up to its fetch. -/
def verifyTrade (e : StateReconciler) (market side : String) : StateReconciler :=
  { e with
    calls := e.calls.set e.nextCall (.verifying market side e.client)
    nextCall := e.nextCall + 1 }

/-- The fetch of a `verifyTrade` has been answered, or has failed. -/
def verifyTradeFetched (e : StateReconciler) (id : ℕ) (market side : String) (client : ℕ)
    (answer : Option (List Position)) : StateReconciler × List Event :=
  match answer with
  | none => (e.endCall id, [.verified false])
  | some positions =>
    let key := toUpperCase market ++ ":" ++ side
    let found := positions.any fun p => toUpperCase p.market ++ ":" ++ p.side.value = key
    let posMap := onChainMapOf positions
    -- stored without the checks of `reconcile`; the count of mismatches stays
    ({ e.endCall id with lastKnownPositions := posMap, storedFrom := client },
      [.fetched (sameKeys posMap e.lastKnownPositions),
        .stored .verifyTrade client e.lastKnownPositions.keys posMap.keys,
        .verified found])

/-- What can happen to the reconciler. -/
inductive Action where
  | setClient (client : ℕ)
  | reconcile (now : ℚ)
  | verifyTrade (market side : String)
  | answer (id : ℕ) (positions : Option (List Position))
  | delayOver (id : ℕ)

/-- One step. A client answers a call that waits for it. -/
def step (e : StateReconciler) : Action → Option (StateReconciler × List Event)
  | .setClient client => some (e.setClient client)
  | .reconcile now => some (e.reconcile now, [])
  | .verifyTrade market side => some (e.verifyTrade market side, [])
  | .answer id positions =>
    match e.calls.get? id with
    | some (.fetching now client) => some (e.reconcileFetched id now client positions)
    | some (.retrying now client onChainMap retryClient) =>
      some (e.reconcileRetried id now client onChainMap retryClient positions)
    | some (.verifying market side client) =>
      some (e.verifyTradeFetched id market side client positions)
    | _ => none
  | .delayOver id =>
    match e.calls.get? id with
    | some (.delayed now client onChainMap) =>
      some (e.reconcileDelayOver id now client onChainMap, [])
    | _ => none

end StateReconciler

/-- The reconciler and its clients, as a machine. -/
def reconciler : Machine StateReconciler StateReconciler.Action StateReconciler.Event where
  init := {}
  step := StateReconciler.step

end FlashEdge
