import Mathlib.Data.Rat.Floor
import FlashEdge.Theory.Machine
import FlashEdge.Theory.OrderedMap
import Mathlib.Data.List.Sort

/-!
# The RPC manager (`network/rpc-manager.ts`)

A list of endpoints, the index of the active one, a connection to it, and three
histories keyed by URL. Health checks, latency measurements, failovers and the
warm-up of backups wait for answers of the network, and between two answers
endpoints may be added, removed and switched.

A task is an asynchronous call that waits, with the local variables it has
computed so far; each answer resumes one task, so every interleaving of calls and
probes is a run. A failover is a promise that several tasks may await: it is
numbered, and its outcome is kept (`none` when it rejects). `accepts` says which
URLs `createConnection` takes; it throws for the others. A URL for which the SDK's
own constructor throws in a health check is one whose probe fails.

Counters and flags that only logs and the display read are left out, and so are
the callback for a changed connection and the partition flag.
-/

namespace FlashEdge

structure RpcEndpoint where
  url : String
  label : String
deriving DecidableEq, Repr

namespace RpcManager

def LATENCY_THRESHOLD_MS : ℚ := 3000
def HEALTH_CHECK_TIMEOUT_MS : ℚ := 5000
def FAILURE_RATE_WINDOW : ℕ := 20
def FAILURE_RATE_THRESHOLD : ℚ := 1 / 2
def FAILOVER_COOLDOWN_MS : ℚ := 60000
def SLOT_LAG_THRESHOLD : ℕ := 50
def MAX_SLOT_JUMP : ℕ := 1000

/-- The result of a health check that found its endpoint healthy. -/
structure RpcHealth where
  latencyMs : ℚ
  slotLag : Option ℕ
deriving DecidableEq, Repr

/-- Who asked for a health check. `failover id i idx` is the candidate at index
`idx` in round `i` of a failover. -/
inductive Purpose where
  | caller
  | failover (id i idx : ℕ)
  | recheck (id : ℕ)
  | connection
  | monitor
deriving DecidableEq, Repr

/-- Where a health check waits: for the blockhash, for the module of the health
monitor, for the slot. -/
inductive ProbeStage where
  | blockhash (start : ℚ)
  | health (latencyMs : ℚ)
  | slot (latencyMs : ℚ)
deriving DecidableEq, Repr

/-- What a task does when the failover it awaits has ended. -/
inductive AfterFailover where
  | highFailureRate
  | unhealthy
  | monitor
deriving DecidableEq, Repr

inductive Task where
  | probe (endpoint : RpcEndpoint) (stage : ProbeStage) (purpose : Purpose)
  | awaitFailover (id : ℕ) (next : AfterFailover)
  | measureLatency (callsLeft : ℕ) (start total : ℚ)
  | warmup (pos : ℕ) (endpoint : RpcEndpoint) (start : ℚ)
deriving DecidableEq, Repr

end RpcManager

/-- What the manager knows of its endpoints. `connection` is the URL that the
current connection was created for. -/
structure EndpointTable where
  endpoints : List RpcEndpoint
  activeIndex : ℕ := 0
  connection : String
  failureHistory : OrderedMap String (List Bool)
  latencyHistory : OrderedMap String ℚ := .empty
  slotHistory : OrderedMap String ℕ := .empty
deriving DecidableEq

namespace EndpointTable

/-- `endpoints[activeIndex]`, which is undefined if the index is not valid. -/
def activeEndpoint (t : EndpointTable) : Option RpcEndpoint := t.endpoints[t.activeIndex]?

def fallbackCount (t : EndpointTable) : ℕ := t.endpoints.length - 1

/-- The index of the first endpoint with a URL. -/
def indexOf (t : EndpointTable) (url : String) : Option ℕ :=
  t.endpoints.findIdx? fun ep => ep.url = url

/-- `false` if the URL is already there. -/
def addEndpoint (t : EndpointTable) (url label : String) : EndpointTable × Bool :=
  if t.endpoints.any fun ep => ep.url = url then (t, false)
  else
    ({ t with
        endpoints := t.endpoints ++ [{ url, label }]
        failureHistory := t.failureHistory.set url [] }, true)

/-- `false` if the URL is not there or active. -/
def removeEndpoint (t : EndpointTable) (url : String) : EndpointTable × Bool :=
  match t.indexOf url with
  | none => (t, false)
  | some idx =>
    if idx = t.activeIndex then (t, false)
    else
      ({ endpoints := t.endpoints.eraseIdx idx
         failureHistory := t.failureHistory.delete url
         latencyHistory := t.latencyHistory.delete url
         slotHistory := t.slotHistory.delete url
         connection := t.connection
         activeIndex := if idx < t.activeIndex then t.activeIndex - 1 else t.activeIndex }, true)

/-- Make an index active, with a connection to a URL. The index is written before
`createConnection` is called, which may throw; the second component says whether
it has returned. -/
def activate (accepts : String → Bool) (t : EndpointTable) (idx : ℕ) (url : String) :
    EndpointTable × Bool :=
  let t := { t with activeIndex := idx }
  if accepts url then ({ t with connection := url }, true) else (t, false)

/-- `none` when `createConnection` throws. -/
def switchTo (accepts : String → Bool) (t : EndpointTable) (url : String) :
    EndpointTable × Option Bool :=
  match t.indexOf url with
  | none => (t, some false)
  | some idx =>
    if idx = t.activeIndex then (t, some false)
    else
      match t.activate accepts idx url with
      | (t, true) => (t, some true)
      | (t, false) => (t, none)

/-- Record a result for the active endpoint; `none` when there is none. -/
def recordResult (t : EndpointTable) (success : Bool) : Option EndpointTable :=
  t.activeEndpoint.map fun ep =>
    let history := ((t.failureHistory.get? ep.url).getD []) ++ [success]
    let history :=
      if RpcManager.FAILURE_RATE_WINDOW < history.length then history.tail else history
    { t with failureHistory := t.failureHistory.set ep.url history }

def getFailureRate (t : EndpointTable) (url : String) : ℚ :=
  match t.failureHistory.get? url with
  | none => 0
  | some history =>
    if history.length = 0 then 0
    else (history.filter fun s => !s).length / history.length

/-- The highest known slot, 0 for none. -/
def getMaxKnownSlot (t : EndpointTable) : ℕ :=
  (t.slotHistory.entries.map Prod.snd).foldl max 0

/-- A slot so far above the highest known one that it is not recorded. -/
def suspicious (t : EndpointTable) (slot : ℕ) : Bool :=
  decide (0 < t.getMaxKnownSlot) && decide (t.getMaxKnownSlot + RpcManager.MAX_SLOT_JUMP < slot)

def setLatency (t : EndpointTable) (url : String) (latencyMs : ℚ) : EndpointTable :=
  { t with latencyHistory := t.latencyHistory.set url latencyMs }

def setSlot (t : EndpointTable) (url : String) (slot : ℕ) : EndpointTable :=
  { t with slotHistory := t.slotHistory.set url slot }

end EndpointTable

/-- The manager: its table, the failover in flight (its number), the outcomes of
those that have ended, and the tasks that wait. -/
structure RpcManager extends EndpointTable where
  lastFailoverTime : ℚ := 0
  failoverPromise : Option ℕ := none
  failovers : ℕ := 0
  outcomes : OrderedMap ℕ (Option Bool) := .empty
  healthCheckInProgress : Bool := false
  tasks : OrderedMap ℕ RpcManager.Task := .empty
  nextTask : ℕ := 0
deriving DecidableEq

namespace RpcManager

/-- The constructor; it throws without endpoints, and when `createConnection` does. -/
def construct (accepts : String → Bool) (endpoints : List RpcEndpoint) : Option RpcManager :=
  match endpoints with
  | [] => none
  | ep :: _ =>
    if accepts ep.url then
      some
        { endpoints
          connection := ep.url
          failureHistory := endpoints.foldl (fun m ep => m.set ep.url []) .empty }
    else none

def setTask (s : RpcManager) (task : ℕ) (t : Task) : RpcManager :=
  { s with tasks := s.tasks.set task t }

/-- The task is done. -/
def dropTask (s : RpcManager) (task : ℕ) : RpcManager :=
  { s with tasks := s.tasks.delete task }

/-- The number of a new task. -/
def newTask (s : RpcManager) : RpcManager × ℕ :=
  ({ s with nextTask := s.nextTask + 1 }, s.nextTask)

/-- `checkHealth(endpoint)` up to its first wait. -/
def probe (s : RpcManager) (task : ℕ) (endpoint : RpcEndpoint) (purpose : Purpose) (now : ℚ) :
    RpcManager :=
  s.setTask task (.probe endpoint (.blockhash now) purpose)

/-! ## Failover -/

/-- The next candidate of a failover from round `i` on, with its round and index. -/
def nextCandidate (s : RpcManager) (i : ℕ) : Option (ℕ × ℕ × RpcEndpoint) :=
  ((List.range s.endpoints.length).drop i).findSome? fun i =>
    let idx := (s.activeIndex + 1 + i) % s.endpoints.length
    if idx = s.activeIndex then none else s.endpoints[idx]?.map fun ep => (i, idx, ep)

/-- A failover has ended, with a result or (`none`) by an exception. -/
def endFailover (s : RpcManager) (task id : ℕ) (outcome : Option Bool) : RpcManager :=
  { s with outcomes := s.outcomes.set id outcome, failoverPromise := none }.dropTask task

/-- The loop of `_doFailover` from round `i` on: probe the next candidate, or the
active endpoint once more. -/
def tryNext (s : RpcManager) (task id i : ℕ) (now : ℚ) : RpcManager :=
  match s.nextCandidate i with
  | some (i, idx, ep) => s.probe task ep (.failover id i idx) now
  | none =>
    match s.activeEndpoint with
    | some ep => s.probe task ep (.recheck id) now
    | none => s.endFailover task id none

/-- `failover(force)`: the number of the failover to await, which may be one that is
already in flight. -/
def failover (s : RpcManager) (force : Bool) (now : ℚ) : RpcManager × ℕ :=
  match s.failoverPromise with
  | some id => (s, id)
  | none =>
    let id := s.failovers
    let s := { s with failovers := id + 1 }
    if !force && now - s.lastFailoverTime < FAILOVER_COOLDOWN_MS then
      ({ s with outcomes := s.outcomes.set id (some false) }, id)
    else
      let (s, task) := { s with failoverPromise := some id }.newTask
      (s.tryNext task id 0 now, id)

/-- The candidate `ep` is healthy: switch to the index that was computed when its
probe began. -/
def completeFailover (accepts : String → Bool) (s : RpcManager) (task id idx : ℕ)
    (ep : RpcEndpoint) (now : ℚ) : RpcManager :=
  match s.activeEndpoint with
  -- the log line reads the label of the active endpoint first
  | none => s.endFailover task id none
  | some _ =>
    match s.activate accepts idx ep.url with
    | (t, true) =>
      { s with toEndpointTable := t, lastFailoverTime := now }.endFailover task id (some true)
    | (t, false) => { s with toEndpointTable := t }.endFailover task id none

/-! ## What follows a health check -/

/-- Whether a monitor that found this attempts a failover. -/
def wantsFailover (s : RpcManager) : Option RpcHealth → Bool
  | none => true
  | some health =>
    (decide (LATENCY_THRESHOLD_MS < health.latencyMs) ||
      health.slotLag.any (SLOT_LAG_THRESHOLD < ·)) && decide (0 < s.fallbackCount)

/-- Start a failover, or join the one in flight, and await it. -/
def awaitFailover (s : RpcManager) (task : ℕ) (next : AfterFailover) (now : ℚ) : RpcManager :=
  let (s, id) := s.failover false now
  s.setTask task (.awaitFailover id next)

def monitorDone (s : RpcManager) (task : ℕ) : RpcManager :=
  { s with healthCheckInProgress := false }.dropTask task

/-- The health check of a task has its result; `none` is an unhealthy endpoint. -/
def finishProbe (accepts : String → Bool) (s : RpcManager) (task : ℕ) (endpoint : RpcEndpoint)
    (health : Option RpcHealth) (now : ℚ) : Purpose → RpcManager
  | .caller => s.dropTask task
  | .failover id i idx =>
    match health with
    | some _ => s.completeFailover accepts task id idx endpoint now
    | none => s.tryNext task id (i + 1) now
  | .recheck id => s.endFailover task id (some health.isSome)
  | .connection =>
    if health.all (LATENCY_THRESHOLD_MS < ·.latencyMs) then s.awaitFailover task .unhealthy now
    else s.dropTask task
  | .monitor =>
    match s.recordResult health.isSome with
    | none => s.monitorDone task
    | some t =>
      let s := { s with toEndpointTable := t }
      if s.wantsFailover health then s.awaitFailover task .monitor now else s.monitorDone task

/-! ## The answers that a health check waits for -/

def blockhashAnswered (accepts : String → Bool) (s : RpcManager) (task : ℕ) (answered : Bool)
    (now : ℚ) : Task → Option RpcManager
  | .probe endpoint (.blockhash start) purpose =>
    if answered then
      let latencyMs := now - start
      some ({ s with toEndpointTable := s.setLatency endpoint.url latencyMs }.setTask task
        (.probe endpoint (.health latencyMs) purpose))
    else
      some ({ s with toEndpointTable := s.setLatency endpoint.url (-1) }.finishProbe accepts task
        endpoint none now purpose)
  | _ => none

def healthImported (s : RpcManager) (task : ℕ) : Task → Option RpcManager
  | .probe endpoint (.health latencyMs) purpose =>
    some (s.setTask task (.probe endpoint (.slot latencyMs) purpose))
  | _ => none

/-- The slot that a health check records, if any: one that is there and not too high. -/
def recordedSlot (s : RpcManager) (slot : Option ℕ) : Option ℕ :=
  slot.filter fun slot => !s.suspicious slot

def slotAnswered (accepts : String → Bool) (s : RpcManager) (task : ℕ) (slot : Option ℕ)
    (now : ℚ) : Task → Option RpcManager
  | .probe endpoint (.slot latencyMs) purpose =>
    let s := match s.recordedSlot slot with
      | some slot => { s with toEndpointTable := s.setSlot endpoint.url slot }
      | none => s
    let freshMax := s.getMaxKnownSlot
    let slotLag := slot.bind fun slot =>
      if 0 < freshMax ∧ slot < freshMax then some (freshMax - slot) else none
    some (s.finishProbe accepts task endpoint (some { latencyMs, slotLag }) now purpose)
  | _ => none

/-! ## The other operations -/

/-- `getHealthyConnection` from its second check on: a live check, unless there are
enough results. -/
def checkConnection (s : RpcManager) (task : ℕ) (now : ℚ) : RpcManager :=
  match s.activeEndpoint with
  | none => s.dropTask task
  | some ep =>
    if (s.failureHistory.get? ep.url).any (3 ≤ ·.length) then s.dropTask task
    else s.probe task ep .connection now

def getHealthyConnection (s : RpcManager) (now : ℚ) : RpcManager :=
  let (s, task) := s.newTask
  match s.activeEndpoint with
  | none => s
  | some ep =>
    if FAILURE_RATE_THRESHOLD ≤ s.getFailureRate ep.url ∧ 0 < s.fallbackCount then
      s.awaitFailover task .highFailureRate now
    else s.checkConnection task now

/-- One tick of the monitor. -/
def monitorTick (s : RpcManager) (now : ℚ) : RpcManager :=
  if s.healthCheckInProgress then s
  else
    match s.activeEndpoint with
    -- the check throws at once, and the tick is over
    | none => s
    | some ep =>
      let (s, task) := { s with healthCheckInProgress := true }.newTask
      s.probe task ep .monitor now

/-- A failover that a task awaits has ended. -/
def failoverEnded (s : RpcManager) (task : ℕ) (now : ℚ) : Task → Option RpcManager
  | .awaitFailover id next =>
    (s.outcomes.get? id).map fun outcome =>
      match next with
      | .highFailureRate =>
        if outcome = some false then s.checkConnection task now else s.dropTask task
      | .unhealthy => s.dropTask task
      | .monitor => s.monitorDone task
  | _ => none

/-- One of the three calls of `measureLatency` has been answered, or has failed. -/
def latencyAnswered (s : RpcManager) (task : ℕ) (answered : Bool) (now : ℚ) :
    Task → Option RpcManager
  | .measureLatency callsLeft start total =>
    let total := total + if answered then now - start else HEALTH_CHECK_TIMEOUT_MS
    if 1 < callsLeft then some (s.setTask task (.measureLatency (callsLeft - 1) now total))
    else
      let avg : ℚ := ⌊total / 3 + 1 / 2⌋
      match s.activeEndpoint with
      | none => some (s.dropTask task)
      | some ep => some ({ s with toEndpointTable := s.setLatency ep.url avg }.dropTask task)
  | _ => none

/-- The next endpoint of the warm-up from position `pos` on: the loop goes over the
list as it is then, and leaves the active URL out. -/
def nextBackup (s : RpcManager) (activeUrl : String) (pos : ℕ) : Option (ℕ × RpcEndpoint) :=
  ((List.range s.endpoints.length).drop pos).findSome? fun pos =>
    match s.endpoints[pos]? with
    | some ep => if ep.url = activeUrl then none else some (pos, ep)
    | none => none

def warmNext (s : RpcManager) (task pos : ℕ) (now : ℚ) : RpcManager :=
  match s.activeEndpoint with
  | none => s.dropTask task
  | some active =>
    match s.nextBackup active.url pos with
    | some (pos, ep) => s.setTask task (.warmup pos ep now)
    | none => s.dropTask task

def warmupConnections (s : RpcManager) (now : ℚ) : RpcManager :=
  if s.endpoints.length ≤ 1 then s
  else
    let (s, task) := s.newTask
    s.warmNext task 0 now

/-- A backup has answered the warm-up; `none` when it has failed. The slot is not
checked against the others here. -/
def warmed (s : RpcManager) (task : ℕ) (answer : Option (Option ℕ)) (now : ℚ) :
    Task → Option RpcManager
  | .warmup pos endpoint start =>
    match answer with
    | none => some (s.warmNext task (pos + 1) now)
    | some slot =>
      let t := s.setLatency endpoint.url (now - start)
      let t := match slot with
        | some slot => t.setSlot endpoint.url slot
        | none => t
      some ({ s with toEndpointTable := t }.warmNext task (pos + 1) now)
  | _ => none

/-! ## The machine -/

/-- What an observer sees: what a call returns at once, and the health checks that
end. -/
inductive Event where
  | returned (result : Option Bool)
  | checked (url : String) (healthy : Bool)
deriving DecidableEq, Repr

inductive Action where
  | addEndpoint (url label : String)
  | removeEndpoint (url : String)
  | switchTo (url : String)
  | recordResult (success : Bool)
  | checkHealth (endpoint : RpcEndpoint) (now : ℚ)
  | checkAllHealth (now : ℚ)
  | measureLatency (now : ℚ)
  | failover (force : Bool) (now : ℚ)
  | getHealthyConnection (now : ℚ)
  | monitorTick (now : ℚ)
  | warmupConnections (now : ℚ)
  | blockhashAnswered (task : ℕ) (answered : Bool) (now : ℚ)
  | healthImported (task : ℕ)
  | slotAnswered (task : ℕ) (slot : Option ℕ) (now : ℚ)
  | failoverEnded (task : ℕ) (now : ℚ)
  | latencyAnswered (task : ℕ) (answered : Bool) (now : ℚ)
  | warmed (task : ℕ) (answer : Option (Option ℕ)) (now : ℚ)

/-- A health check that somebody calls. -/
def checkHealth (s : RpcManager) (now : ℚ) (endpoint : RpcEndpoint) : RpcManager :=
  let (s, task) := s.newTask
  s.probe task endpoint .caller now

/-- The health check that ends in a step, if one does. -/
def checkedBy : Task → Bool → List Event
  | .probe endpoint _ _, healthy => [.checked endpoint.url healthy]
  | _, _ => []

def step (accepts : String → Bool) (s : RpcManager) : Action → Option (RpcManager × List Event)
  | .addEndpoint url label =>
    let r := s.toEndpointTable.addEndpoint url label
    some ({ s with toEndpointTable := r.1 }, [.returned (some r.2)])
  | .removeEndpoint url =>
    let r := s.toEndpointTable.removeEndpoint url
    some ({ s with toEndpointTable := r.1 }, [.returned (some r.2)])
  | .switchTo url =>
    let r := s.toEndpointTable.switchTo accepts url
    some ({ s with toEndpointTable := r.1 }, [.returned r.2])
  | .recordResult success =>
    match s.toEndpointTable.recordResult success with
    | none => some (s, [.returned none])
    | some t => some ({ s with toEndpointTable := t }, [])
  | .checkHealth endpoint now => some (s.checkHealth now endpoint, [])
  | .checkAllHealth now => some (s.endpoints.foldl (fun s ep => s.checkHealth now ep) s, [])
  | .measureLatency now =>
    let (s, task) := s.newTask
    some (s.setTask task (.measureLatency 3 now 0), [])
  | .failover force now => some ((s.failover force now).1, [])
  | .getHealthyConnection now => some (s.getHealthyConnection now, [])
  | .monitorTick now => some (s.monitorTick now, [])
  | .warmupConnections now => some (s.warmupConnections now, [])
  | .blockhashAnswered task answered now =>
    (s.tasks.get? task).bind fun t =>
      (s.blockhashAnswered accepts task answered now t).map fun s' =>
        (s', if answered then [] else checkedBy t false)
  | .healthImported task =>
    (s.tasks.get? task).bind fun t => (s.healthImported task t).map fun s' => (s', [])
  | .slotAnswered task slot now =>
    (s.tasks.get? task).bind fun t =>
      (s.slotAnswered accepts task slot now t).map fun s' => (s', checkedBy t true)
  | .failoverEnded task now =>
    (s.tasks.get? task).bind fun t => (s.failoverEnded task now t).map fun s' => (s', [])
  | .latencyAnswered task answered now =>
    (s.tasks.get? task).bind fun t => (s.latencyAnswered task answered now t).map fun s' => (s', [])
  | .warmed task answer now =>
    (s.tasks.get? task).bind fun t => (s.warmed task answer now t).map fun s' => (s', [])

end RpcManager

/-- A manager from its construction on. -/
def rpcManager (accepts : String → Bool) (s₀ : RpcManager) :
    Machine RpcManager RpcManager.Action RpcManager.Event where
  init := s₀
  step := RpcManager.step accepts

/-!
## Slot consensus (`network/rpc-manager.ts`)

The endpoints whose known slots lie within three slots of the median are in consensus, and
so is one whose slot is not known. `getConsensusHealthyConnections` lists a connection to
each of them, in the order of the endpoint list.

A connection is known by what it is: the manager's current one, or the one that is kept for
a URL. `connects` says for which URLs the SDK's constructor returns one. `activeUrl` is the
URL of the active endpoint; the source reads it where it is needed.
-/

namespace RpcManager

def SLOT_CONSENSUS_DIVERGENCE : ℕ := 3

/-- A connection object. -/
inductive Connection where
  | primary
  | cached (url : String)
deriving DecidableEq, Repr

structure SlotConsensus where
  medianSlot : ℕ
  inConsensus : Bool
  divergentEndpoints : List String
deriving DecidableEq, Repr

/-- The URL that a connection talks to. -/
def Connection.url (t : EndpointTable) : Connection → String
  | .primary => t.connection
  | .cached url => url

end RpcManager

open RpcManager

namespace EndpointTable

/-- The known slots above 0, by endpoint. -/
def knownSlots (t : EndpointTable) : List (String × ℕ) :=
  t.endpoints.filterMap fun ep =>
    ((t.slotHistory.get? ep.url).filter (0 < ·)).map fun slot => (ep.url, slot)

def getSlotConsensus (t : EndpointTable) : SlotConsensus :=
  let slots := t.knownSlots
  let sorted := slots.insertionSort (·.2 ≤ ·.2)
  match sorted[sorted.length / 2]? with
  | none => { medianSlot := 0, inConsensus := true, divergentEndpoints := [] }
  | some (_, medianSlot) =>
    let divergent := slots.filter fun s =>
      decide (SLOT_CONSENSUS_DIVERGENCE < ((s.2 : ℤ) - medianSlot).natAbs)
    { medianSlot
      inConsensus := divergent.isEmpty
      divergentEndpoints := divergent.map Prod.fst }

/-- The last known latency, -1 if there is none. -/
def getEndpointLatency (t : EndpointTable) (url : String) : ℚ :=
  (t.latencyHistory.get? url).getD (-1)

/-- The connection to an endpoint; `none` if it cannot be created. -/
def connectionTo (connects : String → Bool) (activeUrl url : String) : Option Connection :=
  if url = activeUrl then some .primary
  else if connects url then some (.cached url)
  else none

def getConsensusHealthyConnections (connects : String → Bool) (activeUrl : String)
    (t : EndpointTable) : List Connection :=
  let consensus := t.getSlotConsensus
  -- without slot data the primary connection only
  if consensus.medianSlot = 0 then [.primary]
  else
    let connections := t.endpoints.filterMap fun ep =>
      if consensus.divergentEndpoints.contains ep.url then none
      else connectionTo connects activeUrl ep.url
    if connections.length = 0 then [.primary] else connections

end EndpointTable

end FlashEdge
