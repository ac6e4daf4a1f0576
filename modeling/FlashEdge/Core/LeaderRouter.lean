import FlashEdge.Network.RpcManager
import FlashEdge.Theory.ListSlot

/-!
# Leader-aware broadcasts (`core/leader-router.ts`, `core/ultra-tx-engine.ts`)

The engine keeps the connections that it broadcasts through, and asks the router for their
order before each broadcast. The router knows the current slot and the leader schedule, when
its own requests have been answered; without an upcoming leader it returns the list as it is.
Otherwise it ranks the endpoints of the manager by latency, and finds the connection of each
by counting positions of the list.

The manager's own instance is there; the router's may not be. The fallback of
`refreshBroadcastConnections` for an empty list is left out, since the list never is.
-/

namespace FlashEdge

open RpcManager

/-- `currentSlot` and `cachedSchedule` are null until the first answer. -/
structure LeaderRouter where
  currentSlot : Option ℕ := none
  cachedSchedule : Option (OrderedMap ℕ String) := none

namespace LeaderRouter

def SLOTS_PER_EPOCH : ℕ := 432000
def LEADER_LOOKAHEAD_SLOTS : ℕ := 4

/-- The latency that an endpoint without one is given. -/
def UNKNOWN_LATENCY : ℚ := 999999

structure BroadcastOrder where
  connections : List Connection
  leaderRouted : Bool
  targetLeader : Option String
deriving DecidableEq, Repr

/-- The leaders of the next slots, each once. -/
def getUpcomingLeaders (r : LeaderRouter) : List String :=
  match r.currentSlot, r.cachedSchedule with
  | some slot, some slotToLeader =>
    let relativeSlot := slot % SLOTS_PER_EPOCH
    ((List.range LEADER_LOOKAHEAD_SLOTS).filterMap fun offset =>
      (slotToLeader.get? (relativeSlot + offset)).filter (· ≠ "")).foldl pushNew []
  | _, _ => []

/-- The latency that an endpoint is ranked by. -/
def rankLatency (t : EndpointTable) (url : String) : ℚ :=
  let lat := t.getEndpointLatency url
  if 0 ≤ lat then lat else UNKNOWN_LATENCY

/-- The URLs of the endpoints, the lowest latency first. -/
def endpointLatencies (t : EndpointTable) : List String :=
  (t.endpoints.map RpcEndpoint.url).insertionSort fun url url' =>
    rankLatency t url ≤ rankLatency t url'

/-- One round of the loop that fills `urlToConn`: the next connection goes to the next
endpoint that is not active. -/
def assignConnection (activeUrl : String) (broadcastConnections : List Connection)
    (m : OrderedMap String Connection × ℕ) (ep : RpcEndpoint) :
    OrderedMap String Connection × ℕ :=
  if ep.url = activeUrl then m
  else
    match broadcastConnections[m.2]? with
    | some conn => (m.1.set ep.url conn, m.2 + 1)
    | none => m

/-- The connection that each URL is thought to have. -/
def urlToConn (t : EndpointTable) (activeUrl : String) (broadcastConnections : List Connection) :
    OrderedMap String Connection :=
  -- the primary connection is thought to be at index 0
  (t.endpoints.foldl (assignConnection activeUrl broadcastConnections)
    (OrderedMap.empty.set activeUrl .primary, 1)).1

def getBroadcastOrder (r : LeaderRouter) (t : EndpointTable) (activeUrl : String)
    (broadcastConnections : List Connection) : BroadcastOrder :=
  let unrouted : BroadcastOrder :=
    { connections := broadcastConnections, leaderRouted := false, targetLeader := none }
  if broadcastConnections.length ≤ 1 then unrouted
  else
    match r.getUpcomingLeaders with
    | [] => unrouted
    | leader :: _ =>
      let conns := urlToConn t activeUrl broadcastConnections
      let ordered := ((endpointLatencies t).filterMap conns.get?).foldl pushNew []
      { connections := broadcastConnections.foldl pushNew ordered
        leaderRouted := true
        targetLeader := some leader }

end LeaderRouter

/-- The connections of a broadcast. If it is routed, the first is sent to before the others;
otherwise all are sent to in parallel. -/
structure Broadcast where
  connections : List Connection
  leaderRouted : Bool
deriving DecidableEq, Repr

namespace Broadcast

/-- What the engine keeps after `refreshBroadcastConnections`. -/
def refreshBroadcastConnections (multiBroadcast : Bool) (connects : String → Bool)
    (activeUrl : String) (t : EndpointTable) : List Connection :=
  if multiBroadcast then t.getConsensusHealthyConnections connects activeUrl else [.primary]

def broadcastToAll (router : Option LeaderRouter) (t : EndpointTable) (activeUrl : String)
    (broadcastConnections : List Connection) : Broadcast :=
  match router with
  | none => { connections := broadcastConnections, leaderRouted := false }
  | some router =>
    let order := router.getBroadcastOrder t activeUrl broadcastConnections
    { connections := order.connections, leaderRouted := order.leaderRouted }

/-- How a signed transaction is sent: to a single connection without the router. -/
def send (multiBroadcast : Bool) (router : Option LeaderRouter) (t : EndpointTable)
    (activeUrl : String) (broadcastConnections : List Connection) : Broadcast :=
  if multiBroadcast ∧ 1 < broadcastConnections.length then
    broadcastToAll router t activeUrl broadcastConnections
  else { connections := [.primary], leaderRouted := false }

end Broadcast

end FlashEdge
