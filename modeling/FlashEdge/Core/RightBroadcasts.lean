import FlashEdge.Core.BroadcastOrder

/-!
# Broadcasts that are right for all latencies

- `right_iff`: the exact condition under which, whatever the latencies are, a broadcast goes
  to each endpoint once, to the primary connection too, and is ordered by latency when it is
  routed.
- `routed_right_iff_initial`: without repeated URLs, a routed broadcast is right exactly if the
  active endpoint is the first of the list and only its last endpoints are excluded.
-/

namespace FlashEdge

open RpcManager LeaderRouter EndpointTable

namespace Broadcast

/-! ## Lists without repeated URLs -/

section Prefix

variable {connects : String → Bool} {activeUrl : String} {t : EndpointTable}

theorem keptUrls_sublist :
    (keptUrls connects activeUrl t).Sublist (t.endpoints.map RpcEndpoint.url) := by
  unfold keptUrls
  split
  · exact List.nil_sublist _
  · exact List.filter_sublist

/-- What is counted off, if no URL is listed twice. -/
theorem lookup_countedOff_iff (hnodup : (t.endpoints.map RpcEndpoint.url).Nodup)
    {url url' : String} :
    (countedOff connects activeUrl t).reverse.lookup url = some url' ↔
      (url, url') ∈ countedOff connects activeUrl t := by
  rw [lookup_eq_some_iff_mem, List.mem_reverse]
  rw [List.map_reverse, List.nodup_reverse]
  exact nodup_map_fst_zip _ (hnodup.filter _)

/-- The lists agree if the active endpoint is the first and only the last are excluded. -/
theorem agrees_iff_initial (hnodup : (t.endpoints.map RpcEndpoint.url).Nodup)
    (hmany : 2 ≤ (keptUrls connects activeUrl t).length) :
    ((∀ url ∈ keptUrls connects activeUrl t, url = activeUrl) ∨
        PairsAgree connects activeUrl t) ↔
      (t.endpoints.map RpcEndpoint.url).head? = some activeUrl ∧
        keptUrls connects activeUrl t <+: t.endpoints.map RpcEndpoint.url := by
  have hsublist : (keptUrls connects activeUrl t).Sublist (t.endpoints.map RpcEndpoint.url) :=
    keptUrls_sublist
  constructor
  · rintro (hall | hpairs)
    · -- two kept endpoints are different
      exfalso
      have hkept := hsublist.nodup hnodup
      obtain ⟨first, rest, heq⟩ := List.exists_cons_of_length_pos
        (by omega : 0 < (keptUrls connects activeUrl t).length)
      rw [heq] at hmany
      obtain ⟨second, rest, rfl⟩ := List.exists_cons_of_length_pos
        (Nat.lt_of_succ_lt_succ hmany)
      rw [heq] at hkept hall
      have hsame : first = second := (hall first List.mem_cons_self).trans
        (hall second (List.mem_cons_of_mem _ List.mem_cons_self)).symm
      rw [hsame] at hkept
      exact (List.nodup_cons.mp hkept).1 List.mem_cons_self
    · refine prefix_of_counted hnodup hsublist hmany (fun url hurl hne => ?_) fun p hp => ?_
      · obtain ⟨url', hlookup⟩ := Option.isSome_iff_exists.mp (hpairs.all url hurl hne)
        rw [← hpairs.same url url' hlookup]
        exact (List.of_mem_zip ((lookup_countedOff_iff hnodup).mp hlookup)).2
      · exact hpairs.same p.1 p.2 ((lookup_countedOff_iff hnodup).mpr hp)
  · rintro ⟨hhead, hinitial⟩
    right
    obtain ⟨others, hurls⟩ : ∃ others, t.endpoints.map RpcEndpoint.url = activeUrl :: others :=
      List.head?_eq_some_iff.mp hhead
    obtain ⟨first, rest, hkept⟩ := List.exists_cons_of_length_pos
      (by omega : 0 < (keptUrls connects activeUrl t).length)
    rw [hurls, hkept, List.cons_prefix_cons] at hinitial
    obtain ⟨rfl, hrest⟩ := hinitial
    have hcounted : countedOff connects first t = rest.map fun url => (url, url) := by
      have hnot : first ∉ others := by
        rw [hurls] at hnodup
        exact (List.nodup_cons.mp hnodup).1
      rw [countedOff, otherUrls, hurls, List.filter_cons_of_neg (by simp),
        filter_ne_of_not_mem hnot, hkept]
      exact zip_of_initial hrest
    refine ⟨fun url url' hlookup => ?_, fun url hurl hne => ?_⟩
    · rw [lookup_countedOff_iff hnodup, hcounted] at hlookup
      obtain ⟨_, -, heq⟩ := List.mem_map.mp hlookup
      obtain ⟨rfl, rfl⟩ := Prod.mk.inj heq
      rfl
    · rw [hkept] at hurl
      rcases List.mem_cons.mp hurl with heq | hurl
      · exact absurd heq hne
      · refine Option.isSome_iff_exists.mpr ⟨url, ?_⟩
        rw [lookup_countedOff_iff hnodup, hcounted]
        exact List.mem_map.mpr ⟨url, hurl, rfl⟩

end Prefix

/-! ## All broadcasts -/

section All

variable {connects : String → Bool} {activeUrl : String} {t : EndpointTable}
  {multiBroadcast : Bool} {router : Option LeaderRouter}

/-- A broadcast to several connections. -/
theorem broadcastToAll_listed (hlength : 2 ≤ (keptUrls connects activeUrl t).length) :
    broadcastToAll router t activeUrl (listed connects activeUrl t) =
      if routes router then
        { connections := routed connects activeUrl t, leaderRouted := true }
      else { connections := listed connects activeUrl t, leaderRouted := false } := by
  have hmany : ¬ (listed connects activeUrl t).length ≤ 1 := by
    rw [listed, List.length_map]
    omega
  cases router with
  | none => rfl
  | some r =>
    cases hleaders : r.getUpcomingLeaders with
    | nil =>
      simp only [broadcastToAll, getBroadcastOrder, routes, Option.any_some, if_neg hmany, hleaders]
      rfl
    | cons leader leaders =>
      simp only [broadcastToAll, getBroadcastOrder, routes, Option.any_some, if_neg hmany, hleaders]
      rfl

/-- How a transaction is sent after a refresh. -/
theorem send_eq : send multiBroadcast router t activeUrl
    (refreshBroadcastConnections multiBroadcast connects activeUrl t) =
      if multiBroadcast = true ∧ 2 ≤ (keptUrls connects activeUrl t).length then
        if routes router then
          { connections := routed connects activeUrl t, leaderRouted := true }
        else { connections := listed connects activeUrl t, leaderRouted := false }
      else { connections := [.primary], leaderRouted := false } := by
  cases multiBroadcast with
  | false => rfl
  | true =>
    rw [refreshBroadcastConnections, if_pos rfl, getConsensusHealthyConnections_eq]
    by_cases hlength : 2 ≤ (keptUrls connects activeUrl t).length
    · have hne : keptUrls connects activeUrl t ≠ [] := by
        rintro hnil
        rw [hnil] at hlength
        exact absurd hlength (by decide)
      have hmany : 1 < ((keptUrls connects activeUrl t).map (connectionOf activeUrl)).length := by
        rw [List.length_map]
        omega
      rw [if_neg hne, if_pos ⟨rfl, hlength⟩, send, if_pos ⟨rfl, hmany⟩]
      exact broadcastToAll_listed hlength
    · have hfew : ¬ 1 < (if keptUrls connects activeUrl t = [] then [Connection.primary]
          else (keptUrls connects activeUrl t).map (connectionOf activeUrl)).length := by
        split
        · decide
        · rw [List.length_map]
          omega
      rw [send, if_neg fun h => hfew h.2, if_neg fun h => hlength h.2]

/-- **Where broadcasts go.** Let the primary connection be one to the active endpoint. For
every endpoint list, every active index, all known slots and all connections that can be
created: broadcasts are right for all latencies if and only if the lists agree. -/
theorem right_iff {t : EndpointTable} {active : RpcEndpoint}
    (hactive : t.activeEndpoint = some active) (hconn : t.connection = active.url)
    (multiBroadcast : Bool) (router : Option LeaderRouter) (connects : String → Bool) :
    (∀ latencies, Right (withLatencies t latencies)
      (send multiBroadcast router (withLatencies t latencies) active.url
        (refreshBroadcastConnections multiBroadcast connects active.url
          (withLatencies t latencies)))) ↔
      Agrees multiBroadcast router connects active.url t := by
  have hmem : active.url ∈ t.endpoints.map RpcEndpoint.url :=
    List.mem_map_of_mem (List.mem_of_getElem? hactive)
  simp only [send_eq]
  -- other latencies keep the same endpoints
  show (∀ latencies, Right (withLatencies t latencies)
    (if multiBroadcast = true ∧ 2 ≤ (keptUrls connects active.url t).length then
      if routes router then
        { connections := routed connects active.url (withLatencies t latencies)
          leaderRouted := true }
      else { connections := listed connects active.url t, leaderRouted := false }
    else { connections := [.primary], leaderRouted := false })) ↔ _
  unfold Agrees
  by_cases hseveral : multiBroadcast = true ∧ 2 ≤ (keptUrls connects active.url t).length
  · simp only [hseveral.1, hseveral.2, and_self, if_true, forall_const]
    cases hroutes : routes router with
    | true =>
      simp only [if_true]
      rw [← ordered_iff hconn hmem]
      refine forall_congr' fun latencies => ⟨fun hright => hright.ordered rfl, fun hordered => ?_⟩
      exact ⟨fun _ => hordered, nodup_routed (t := withLatencies t latencies) hconn hmem,
        (mem_routed (t := withLatencies t latencies) hmem).mpr (.inl rfl)⟩
    | false =>
      simp only [Bool.false_eq_true, if_false]
      constructor
      · intro hright
        exact (right_unrouted_iff hconn _).mp (hright t.latencyHistory)
      · intro hkept latencies
        exact (right_unrouted_iff (t := withLatencies t latencies) hconn _).mpr hkept
  · simp only [if_neg hseveral]
    exact iff_of_true (fun latencies => right_single _) fun hmulti hmany =>
      absurd ⟨hmulti, hmany⟩ hseveral

end All

/-! ## A list that is counted off wrongly, and one without the primary connection -/

/-- Three endpoints, of which the second is active. -/
def secondActive : EndpointTable where
  endpoints := [⟨"https://a", "a"⟩, ⟨"https://b", "b"⟩, ⟨"https://c", "c"⟩]
  activeIndex := 1
  connection := "https://b"
  failureHistory := .empty
  latencyHistory := ((OrderedMap.empty.set "https://a" 10).set "https://b" 50).set "https://c" 100
  slotHistory := ((OrderedMap.empty.set "https://a" 7).set "https://b" 7).set "https://c" 7

/-- The same endpoints; the active one is the first, and lags behind. -/
def activeLags : EndpointTable :=
  { secondActive with
      activeIndex := 0
      connection := "https://a"
      slotHistory := ((OrderedMap.empty.set "https://a" 7).set "https://b" 90).set "https://c" 90 }

def knownLeader : LeaderRouter where
  currentSlot := some 7
  cachedSchedule := some (OrderedMap.empty.set 7 "leader")

/-- The equivalence for the second active endpoint. -/
theorem right_iff_secondActive :
    (∀ latencies, Right (withLatencies secondActive latencies)
      (send true (some knownLeader) (withLatencies secondActive latencies) "https://b"
        (refreshBroadcastConnections true (fun _ => true) "https://b"
          (withLatencies secondActive latencies)))) ↔
      Agrees true (some knownLeader) (fun _ => true) "https://b" secondActive :=
  right_iff (rfl : secondActive.activeEndpoint = some ⟨"https://b", "b"⟩) rfl true
    (some knownLeader) fun _ => true

/-- `a` is the fastest and is sent to last, since `b` has been counted off for it; and a
broadcast leaves the active endpoint out. -/
theorem not_right :
    (¬ ∀ (t : EndpointTable) (active : RpcEndpoint) (router : Option LeaderRouter),
      t.activeEndpoint = some active → t.connection = active.url →
        (send true router t active.url (refreshBroadcastConnections true (fun _ => true)
          active.url t)).leaderRouted = true →
        (send true router t active.url (refreshBroadcastConnections true (fun _ => true)
          active.url t)).connections.Pairwise fun c c' =>
            rankLatency t (c.url t) ≤ rankLatency t (c'.url t)) ∧
    ¬ ∀ (t : EndpointTable) (active : RpcEndpoint) (router : Option LeaderRouter),
      t.activeEndpoint = some active → t.connection = active.url →
        .primary ∈ (send true router t active.url (refreshBroadcastConnections true
          (fun _ => true) active.url t)).connections := by
  constructor
  · intro hall
    have hsent : send true (some knownLeader) secondActive "https://b"
        (refreshBroadcastConnections true (fun _ => true) "https://b" secondActive) =
          { connections := [.primary, .cached "https://c", .cached "https://a"]
            leaderRouted := true } := by decide +kernel
    have hordered := hall secondActive ⟨"https://b", "b"⟩ (some knownLeader) rfl rfl
      (by rw [hsent])
    rw [hsent] at hordered
    have hlast := (List.pairwise_cons.mp (List.pairwise_cons.mp hordered).2).1
      (.cached "https://a") List.mem_cons_self
    exact absurd hlast (by decide +kernel)
  · intro hall
    have hsent : send true none activeLags "https://a"
        (refreshBroadcastConnections true (fun _ => true) "https://a" activeLags) =
          { connections := [.cached "https://b", .cached "https://c"]
            leaderRouted := false } := by decide +kernel
    have hprimary := hall activeLags ⟨"https://a", "a"⟩ none rfl rfl
    rw [hsent] at hprimary
    exact absurd hprimary (by decide)

end Broadcast

end FlashEdge
