import FlashEdge.Core.LeaderRouter
import FlashEdge.Theory.CountedOff

/-!
# Where a broadcast goes, and in which order

Three components hand connections to each other in a list. The manager lists the endpoints
in consensus in the order of its endpoint list; the router takes the first connection for the
primary one, and counts off the rest against the endpoints that are not active, excluded ones
included; the engine sends in the order that results. So a connection may be ranked by the
latency of another endpoint, and a connection to the active endpoint may be missing.

- `get?_urlToConn`: what connection the router takes for that of a URL.
- `nodup_routed`: a routed broadcast goes to each endpoint once.
- `ordered_iff`: a routed broadcast is ordered for all latencies exactly if the pairs that
  are counted off agree.
-/

namespace FlashEdge

open RpcManager LeaderRouter EndpointTable

namespace Broadcast

/-! ## The property -/

/-- The broadcast is ordered by the latencies of the endpoints that its connections talk to,
goes to each endpoint once, and goes to the primary connection. -/
structure Right (t : EndpointTable) (b : Broadcast) : Prop where
  ordered : b.leaderRouted = true →
    b.connections.Pairwise fun c c' => rankLatency t (c.url t) ≤ rankLatency t (c'.url t)
  once : (b.connections.map (Connection.url t)).Nodup
  primary : .primary ∈ b.connections

/-! ## What the condition speaks of -/

/-- A URL of an endpoint that a connection is listed for. -/
def keeps (connects : String → Bool) (activeUrl : String) (t : EndpointTable) (url : String) :
    Bool :=
  !t.getSlotConsensus.divergentEndpoints.contains url && (url = activeUrl || connects url)

/-- The URLs of the endpoints in consensus, in the order of the list. -/
def keptUrls (connects : String → Bool) (activeUrl : String) (t : EndpointTable) : List String :=
  if t.getSlotConsensus.medianSlot = 0 then []
  else (t.endpoints.map RpcEndpoint.url).filter (keeps connects activeUrl t)

/-- The URLs of the endpoints that are not active. -/
def otherUrls (activeUrl : String) (t : EndpointTable) : List String :=
  (t.endpoints.map RpcEndpoint.url).filter (· ≠ activeUrl)

/-- Which URL the router counts off against which: the others against the kept ones after the
first. -/
def countedOff (connects : String → Bool) (activeUrl : String) (t : EndpointTable) :
    List (String × String) :=
  (otherUrls activeUrl t).zip (keptUrls connects activeUrl t).tail

/-- Each URL that is counted off is counted off against itself (the last time, if it is
listed twice), and all kept ones but the active are. -/
structure PairsAgree (connects : String → Bool) (activeUrl : String) (t : EndpointTable) :
    Prop where
  same : ∀ url url', (countedOff connects activeUrl t).reverse.lookup url = some url' →
    url' = url
  all : ∀ url ∈ keptUrls connects activeUrl t, url ≠ activeUrl →
    ((countedOff connects activeUrl t).reverse.lookup url).isSome = true

/-- There is an upcoming leader. -/
def routes (router : Option LeaderRouter) : Bool :=
  router.any fun r => !r.getUpcomingLeaders.isEmpty

/-- The condition on a broadcast to several endpoints. -/
def Agrees (multiBroadcast : Bool) (router : Option LeaderRouter) (connects : String → Bool)
    (activeUrl : String) (t : EndpointTable) : Prop :=
  multiBroadcast = true → 2 ≤ (keptUrls connects activeUrl t).length →
    if routes router then
      (∀ url ∈ keptUrls connects activeUrl t, url = activeUrl) ∨ PairsAgree connects activeUrl t
    else
      activeUrl ∈ keptUrls connects activeUrl t ∧ (keptUrls connects activeUrl t).Nodup

/-! ## The connections that are listed -/

/-- The connection of a kept URL. -/
def connectionOf (activeUrl url : String) : Connection :=
  if url = activeUrl then .primary else .cached url

section Listed

variable {connects : String → Bool} {activeUrl : String} {t : EndpointTable}

theorem connectionOf_url (hconn : t.connection = activeUrl) (url : String) :
    (connectionOf activeUrl url).url t = url := by
  unfold connectionOf
  split
  · next heq =>
    rw [heq]
    exact hconn
  · rfl

theorem connectionOf_self (activeUrl : String) : connectionOf activeUrl activeUrl = .primary :=
  if_pos rfl

theorem connectionOf_eq_primary {url : String} :
    connectionOf activeUrl url = .primary ↔ url = activeUrl := by
  unfold connectionOf
  split
  · next heq => exact iff_of_true rfl heq
  · next hne => exact iff_of_false (fun h => by cases h) hne

/-- The loop over the endpoints, as a filter. -/
theorem filterMap_connectionTo (urls : List RpcEndpoint) :
    urls.filterMap (fun ep =>
      if t.getSlotConsensus.divergentEndpoints.contains ep.url then none
      else connectionTo connects activeUrl ep.url) =
    ((urls.map RpcEndpoint.url).filter (keeps connects activeUrl t)).map
      (connectionOf activeUrl) := by
  induction urls with
  | nil => rfl
  | cons ep urls ih =>
    rw [List.filterMap_cons, List.map_cons, List.filter_cons, ih]
    unfold keeps connectionTo
    cases t.getSlotConsensus.divergentEndpoints.contains ep.url with
    | true => rfl
    | false =>
      by_cases hactive : ep.url = activeUrl
      · simp [hactive, connectionOf]
      · cases connects ep.url with
        | true => simp [hactive, connectionOf]
        | false => simp [hactive]

theorem getConsensusHealthyConnections_eq :
    t.getConsensusHealthyConnections connects activeUrl =
      if keptUrls connects activeUrl t = [] then [.primary]
      else (keptUrls connects activeUrl t).map (connectionOf activeUrl) := by
  unfold getConsensusHealthyConnections keptUrls
  dsimp only
  split
  · rfl
  · rw [filterMap_connectionTo]
    cases (t.endpoints.map RpcEndpoint.url).filter (keeps connects activeUrl t) with
    | nil => rfl
    | cons url urls => rfl

theorem mem_urls_of_kept {url : String} (hurl : url ∈ keptUrls connects activeUrl t) :
    url ∈ t.endpoints.map RpcEndpoint.url := by
  unfold keptUrls at hurl
  split at hurl
  · cases hurl
  · exact List.mem_of_mem_filter hurl

end Listed

/-! ## Counting off -/

section CountingOff

variable {activeUrl : String} {t : EndpointTable}

/-- The loop that counts off, as a list of pairs. -/
theorem foldl_assignConnection (conns : List Connection) (endpoints : List RpcEndpoint)
    (m : OrderedMap String Connection) (k : ℕ) :
    (endpoints.foldl (assignConnection activeUrl conns) (m, k)).1 =
      (((endpoints.map RpcEndpoint.url).filter (· ≠ activeUrl)).zip (conns.drop k)).foldl
        (fun m p => m.set p.1 p.2) m := by
  induction endpoints generalizing m k with
  | nil => rfl
  | cons ep endpoints ih =>
    rw [List.foldl_cons, assignConnection, List.map_cons, List.filter_cons]
    by_cases hactive : ep.url = activeUrl
    · simp only [hactive, if_true, ne_eq, not_true_eq_false, decide_false, Bool.false_eq_true,
        if_false]
      exact ih m k
    · simp only [hactive, if_false, ne_eq, not_false_eq_true, decide_true, if_true]
      cases hk : conns[k]? with
      | none =>
        have hnil : conns.drop k = [] := List.drop_eq_nil_of_le (List.getElem?_eq_none_iff.mp hk)
        rw [ih m k, hnil, List.zip_nil_right, List.zip_nil_right]
      | some conn =>
        obtain ⟨hlt, heq⟩ := List.getElem?_eq_some_iff.mp hk
        rw [ih _ (k + 1), List.drop_eq_getElem_cons hlt, heq, List.zip_cons_cons, List.foldl_cons]

/-- **What the router takes for the connection of a URL.** -/
theorem get?_urlToConn (connects : String → Bool) (url : String) :
    (urlToConn t activeUrl
        ((keptUrls connects activeUrl t).map (connectionOf activeUrl))).get? url =
      ((countedOff connects activeUrl t).reverse.lookup url |>.map (connectionOf activeUrl)).or
        (if url = activeUrl then some .primary else none) := by
  have hpairs : ((t.endpoints.map RpcEndpoint.url).filter (· ≠ activeUrl)).zip
      (((keptUrls connects activeUrl t).map (connectionOf activeUrl)).drop 1) =
        (countedOff connects activeUrl t).map fun p => (p.1, connectionOf activeUrl p.2) := by
    rw [List.drop_one, ← List.map_tail, List.zip_map_right]
    rfl
  rw [urlToConn, foldl_assignConnection, hpairs, get?_foldl_set, ← List.map_reverse,
    lookup_map_right, OrderedMap.get?_set, OrderedMap.get?_empty]

end CountingOff

/-! ## A broadcast that is not routed -/

section Unrouted

variable {connects : String → Bool} {activeUrl : String} {t : EndpointTable}

/-- The primary connection alone. -/
theorem right_single (t : EndpointTable) :
    Right t { connections := [.primary], leaderRouted := false } where
  ordered h := by cases h
  once := List.nodup_singleton _
  primary := List.mem_singleton_self _

theorem map_url_connectionOf (hconn : t.connection = activeUrl) (urls : List String) :
    (urls.map (connectionOf activeUrl)).map (Connection.url t) = urls := by
  rw [List.map_map]
  refine (List.map_congr_left fun url _ => ?_).trans (List.map_id urls)
  exact connectionOf_url hconn url

/-- A list of connections as it is. -/
theorem right_unrouted_iff (hconn : t.connection = activeUrl) (urls : List String) :
    Right t { connections := urls.map (connectionOf activeUrl), leaderRouted := false } ↔
      activeUrl ∈ urls ∧ urls.Nodup := by
  have honce := map_url_connectionOf hconn urls
  constructor
  · intro hright
    refine ⟨?_, honce ▸ hright.once⟩
    obtain ⟨url, hurl, heq⟩ := List.mem_map.mp hright.primary
    rw [← connectionOf_eq_primary.mp heq]
    exact hurl
  · rintro ⟨hactive, hnodup⟩
    refine ⟨fun hrouted => absurd hrouted Bool.false_ne_true, honce.symm ▸ hnodup, ?_⟩
    exact List.mem_map.mpr ⟨activeUrl, hactive, connectionOf_self activeUrl⟩

end Unrouted

/-! ## A routed broadcast -/

section Routed

variable {connects : String → Bool} {activeUrl : String} {t : EndpointTable}

/-- The connections that the manager lists. -/
def listed (connects : String → Bool) (activeUrl : String) (t : EndpointTable) :
    List Connection :=
  (keptUrls connects activeUrl t).map (connectionOf activeUrl)

/-- The connections that the router finds, in the order of its ranking. -/
def ranked (connects : String → Bool) (activeUrl : String) (t : EndpointTable) :
    List Connection :=
  ((endpointLatencies t).filterMap
    (urlToConn t activeUrl (listed connects activeUrl t)).get?).foldl pushNew []

/-- All connections in the order of the router. -/
def routed (connects : String → Bool) (activeUrl : String) (t : EndpointTable) :
    List Connection :=
  (listed connects activeUrl t).foldl pushNew (ranked connects activeUrl t)

/-- A connection is the right one for the URL that it talks to. -/
def Proper (activeUrl : String) (t : EndpointTable) (c : Connection) : Prop :=
  c = connectionOf activeUrl (c.url t)

theorem proper_connectionOf (hconn : t.connection = activeUrl) (url : String) :
    Proper activeUrl t (connectionOf activeUrl url) := by
  unfold Proper
  rw [connectionOf_url hconn]

theorem mem_endpointLatencies {url : String} :
    url ∈ endpointLatencies t ↔ url ∈ t.endpoints.map RpcEndpoint.url :=
  List.mem_insertionSort _

/-- What is counted off is an endpoint that is not active, against a kept one. -/
theorem lookup_countedOff {url url' : String}
    (h : (countedOff connects activeUrl t).reverse.lookup url = some url') :
    (url ∈ t.endpoints.map RpcEndpoint.url ∧ url ≠ activeUrl) ∧
      url' ∈ keptUrls connects activeUrl t := by
  obtain ⟨before, after, heq, -⟩ := List.lookup_eq_some_iff.mp h
  have hmem : (url, url') ∈ (countedOff connects activeUrl t).reverse := by
    rw [heq]
    exact List.mem_append_right before List.mem_cons_self
  obtain ⟨hother, hkept⟩ := List.of_mem_zip (List.mem_reverse.mp hmem)
  obtain ⟨hurl, hne⟩ := List.mem_filter.mp hother
  exact ⟨⟨hurl, of_decide_eq_true hne⟩, List.mem_of_mem_tail hkept⟩

/-- The router's connection of a URL: the primary one for the active URL, and what has been
counted off for another. -/
theorem get?_urlToConn_eq_some {url : String} {c : Connection} :
    (urlToConn t activeUrl (listed connects activeUrl t)).get? url = some c ↔
      (url = activeUrl ∧ c = .primary) ∨
        ∃ url', (countedOff connects activeUrl t).reverse.lookup url = some url' ∧
          c = connectionOf activeUrl url' := by
  rw [listed, get?_urlToConn]
  cases hlookup : (countedOff connects activeUrl t).reverse.lookup url with
  | none =>
    by_cases hactive : url = activeUrl
    · simp [hactive, eq_comm]
    · simp [hactive]
  | some url' =>
    have hne := (lookup_countedOff hlookup).1.2
    simp [hne, eq_comm]

theorem mem_ranked {c : Connection} : c ∈ ranked connects activeUrl t ↔
    ∃ url ∈ t.endpoints.map RpcEndpoint.url,
      (urlToConn t activeUrl (listed connects activeUrl t)).get? url = some c := by
  simp only [ranked, mem_foldl_pushNew, List.not_mem_nil, false_or, List.mem_filterMap,
    mem_endpointLatencies]

/-- The primary connection is found. -/
theorem primary_mem_ranked (hactive : activeUrl ∈ t.endpoints.map RpcEndpoint.url) :
    .primary ∈ ranked connects activeUrl t :=
  mem_ranked.mpr ⟨activeUrl, hactive, get?_urlToConn_eq_some.mpr (.inl ⟨rfl, rfl⟩)⟩

theorem mem_routed {c : Connection} (hactive : activeUrl ∈ t.endpoints.map RpcEndpoint.url) :
    c ∈ routed connects activeUrl t ↔ c = .primary ∨ c ∈ listed connects activeUrl t := by
  rw [routed, mem_foldl_pushNew]
  constructor
  · rintro (hranked | hc)
    · obtain ⟨url, -, hget⟩ := mem_ranked.mp hranked
      rcases get?_urlToConn_eq_some.mp hget with ⟨-, rfl⟩ | ⟨url', hlookup, rfl⟩
      · exact Or.inl rfl
      · exact Or.inr (List.mem_map_of_mem (lookup_countedOff hlookup).2)
    · exact Or.inr hc
  · rintro (rfl | hc)
    · exact Or.inl (primary_mem_ranked hactive)
    · exact Or.inr hc

theorem proper_of_mem_routed (hconn : t.connection = activeUrl)
    (hactive : activeUrl ∈ t.endpoints.map RpcEndpoint.url) {c : Connection}
    (hc : c ∈ routed connects activeUrl t) : Proper activeUrl t c := by
  rcases (mem_routed hactive).mp hc with rfl | hc
  · unfold Proper
    rw [Connection.url, hconn, connectionOf_self]
  · obtain ⟨url, -, rfl⟩ := List.mem_map.mp hc
    exact proper_connectionOf hconn url

/-- A routed broadcast goes to each endpoint once, since it goes to each connection once. -/
theorem nodup_routed (hconn : t.connection = activeUrl)
    (hactive : activeUrl ∈ t.endpoints.map RpcEndpoint.url) :
    ((routed connects activeUrl t).map (Connection.url t)).Nodup := by
  refine List.Nodup.map_on (fun c hc c' hc' heq => ?_)
    (nodup_foldl_pushNew (nodup_foldl_pushNew List.nodup_nil))
  rw [proper_of_mem_routed hconn hactive hc, heq]
  exact (proper_of_mem_routed hconn hactive hc').symm

/-- A routed broadcast is ordered by latency. -/
def Ordered (connects : String → Bool) (activeUrl : String) (t : EndpointTable) : Prop :=
  (routed connects activeUrl t).Pairwise fun c c' =>
    rankLatency t (c.url t) ≤ rankLatency t (c'.url t)

/-- The router's ranking is by latency. -/
theorem pairwise_endpointLatencies (t : EndpointTable) :
    (endpointLatencies t).Pairwise fun url url' => rankLatency t url ≤ rankLatency t url' := by
  have htotal : Std.Total fun url url' => rankLatency t url ≤ rankLatency t url' :=
    ⟨fun _ _ => le_total _ _⟩
  have htrans : IsTrans String fun url url' => rankLatency t url ≤ rankLatency t url' :=
    ⟨fun _ _ _ => le_trans⟩
  exact List.pairwise_insertionSort _ _

/-- When the pairs agree, all connections are found by their own URLs. -/
theorem ordered_of_pairsAgree (hconn : t.connection = activeUrl)
    (hactive : activeUrl ∈ t.endpoints.map RpcEndpoint.url)
    (hpairs : PairsAgree connects activeUrl t) : Ordered connects activeUrl t := by
  have hown : ∀ url c, (urlToConn t activeUrl (listed connects activeUrl t)).get? url = some c →
      c.url t = url := by
    intro url c hget
    rcases get?_urlToConn_eq_some.mp hget with ⟨rfl, rfl⟩ | ⟨url', hlookup, rfl⟩
    · exact hconn
    · rw [connectionOf_url hconn, hpairs.same url url' hlookup]
  have hall : ∀ c ∈ listed connects activeUrl t, c ∈ ranked connects activeUrl t := by
    intro c hc
    obtain ⟨url, hurl, rfl⟩ := List.mem_map.mp hc
    refine mem_ranked.mpr ⟨url, mem_urls_of_kept hurl, get?_urlToConn_eq_some.mpr ?_⟩
    by_cases hne : url = activeUrl
    · exact Or.inl ⟨hne, connectionOf_eq_primary.mpr hne⟩
    · obtain ⟨url', hlookup⟩ := Option.isSome_iff_exists.mp (hpairs.all url hurl hne)
      refine Or.inr ⟨url', hlookup, ?_⟩
      rw [hpairs.same url url' hlookup]
  unfold Ordered routed
  rw [foldl_pushNew_of_subset hall]
  refine pairwise_foldl_pushNew (List.pairwise_filterMap.mpr ?_)
  refine (pairwise_endpointLatencies t).imp fun {url url'} hle c hc c' hc' => ?_
  rw [hown url c hc, hown url' c' hc']
  exact hle

/-- A broadcast to the primary connection only is ordered. -/
theorem ordered_of_active (hactive : activeUrl ∈ t.endpoints.map RpcEndpoint.url)
    (hall : ∀ url ∈ keptUrls connects activeUrl t, url = activeUrl) :
    Ordered connects activeUrl t := by
  have hprimary : ∀ c ∈ routed connects activeUrl t, c = .primary := by
    intro c hc
    rcases (mem_routed hactive).mp hc with rfl | hc
    · rfl
    · obtain ⟨url, hurl, rfl⟩ := List.mem_map.mp hc
      exact connectionOf_eq_primary.mpr (hall url hurl)
  refine List.pairwise_of_forall_mem_list fun c hc c' hc' => ?_
  rw [hprimary c hc, hprimary c' hc']

/-- The connection of the endpoint that is ranked first comes first. -/
theorem routed_cons {url : String} {rest : List String} {c : Connection}
    (hrest : endpointLatencies t = url :: rest)
    (hget : (urlToConn t activeUrl (listed connects activeUrl t)).get? url = some c) :
    ∃ later, routed connects activeUrl t = c :: later := by
  rw [routed, ranked, hrest, List.filterMap_cons_some hget, List.foldl_cons]
  obtain ⟨found, -, hfound⟩ := foldl_pushNew_eq (pushNew [] c)
    (rest.filterMap (urlToConn t activeUrl (listed connects activeUrl t)).get?)
  obtain ⟨appended, -, happended⟩ := foldl_pushNew_eq (pushNew [] c ++ found)
    (listed connects activeUrl t)
  exact ⟨found ++ appended, by rw [hfound, happended, List.append_assoc]; rfl⟩

/-! ### Latencies that show a disagreement -/

/-- The same endpoints and slots, with other latencies. -/
def withLatencies (t : EndpointTable) (latencyHistory : OrderedMap String ℚ) : EndpointTable :=
  { t with latencyHistory }

/-- One endpoint has latency 0, another at most 1, and the rest none. -/
def fast (url url' : String) : OrderedMap String ℚ := (OrderedMap.empty.set url' 1).set url 0

theorem rankLatency_fast (url url' other : String) :
    rankLatency (withLatencies t (fast url url')) other =
      if other = url then 0 else if other = url' then 1 else UNKNOWN_LATENCY := by
  simp only [rankLatency, getEndpointLatency, withLatencies, fast, OrderedMap.get?_set,
    OrderedMap.get?_empty]
  split
  · rfl
  · split
    · rfl
    · rfl

/-- The fastest endpoint is ranked first. -/
theorem endpointLatencies_fast {url : String} (hurl : url ∈ t.endpoints.map RpcEndpoint.url)
    (url' : String) :
    ∃ rest, endpointLatencies (withLatencies t (fast url url')) = url :: rest := by
  have hmem : url ∈ endpointLatencies (withLatencies t (fast url url')) :=
    mem_endpointLatencies.mpr hurl
  have hsorted := pairwise_endpointLatencies (withLatencies t (fast url url'))
  cases hlist : endpointLatencies (withLatencies t (fast url url')) with
  | nil =>
    rw [hlist] at hmem
    cases hmem
  | cons first rest =>
    rw [hlist] at hmem hsorted
    rcases List.mem_cons.mp hmem with rfl | hlater
    · exact ⟨rest, rfl⟩
    · have hle := (List.pairwise_cons.mp hsorted).1 url hlater
      rw [rankLatency_fast, rankLatency_fast, if_pos rfl] at hle
      by_cases hfirst : first = url
      · exact ⟨rest, by rw [hfirst]⟩
      · exfalso
        rw [if_neg hfirst] at hle
        split at hle
        · exact absurd hle (by decide)
        · exact absurd hle (by decide)

/-- If another endpoint is kept, a routed broadcast goes through more than one connection. -/
theorem exists_mem_routed_ne (hactive : activeUrl ∈ t.endpoints.map RpcEndpoint.url)
    (hother : ∃ url ∈ keptUrls connects activeUrl t, url ≠ activeUrl) (url' : String) :
    ∃ c ∈ routed connects activeUrl t, c ≠ connectionOf activeUrl url' := by
  by_cases hprimary : url' = activeUrl
  · obtain ⟨other, hkept, hnot⟩ := hother
    refine ⟨connectionOf activeUrl other,
      (mem_routed hactive).mpr (.inr (List.mem_map_of_mem hkept)), fun heq => hnot ?_⟩
    rw [connectionOf_eq_primary.mpr hprimary] at heq
    exact connectionOf_eq_primary.mp heq
  · exact ⟨.primary, (mem_routed hactive).mpr (.inl rfl),
      fun heq => hprimary (connectionOf_eq_primary.mp heq.symm)⟩

/-- If a connection has been counted off for another endpoint, it may come first although it
is slower than one after it. -/
theorem same_of_ordered (hconn : t.connection = activeUrl)
    (hactive : activeUrl ∈ t.endpoints.map RpcEndpoint.url)
    (hother : ∃ url ∈ keptUrls connects activeUrl t, url ≠ activeUrl)
    (hordered : ∀ latencies, Ordered connects activeUrl (withLatencies t latencies))
    {url url' : String}
    (hlookup : (countedOff connects activeUrl t).reverse.lookup url = some url') :
    url' = url := by
  by_contra hne
  obtain ⟨⟨hurl, -⟩, -⟩ := lookup_countedOff hlookup
  obtain ⟨c, hc, hcne⟩ := exists_mem_routed_ne hactive hother url'
  have hcurl : c.url t ≠ url' := by
    intro heq
    refine hcne ?_
    rw [proper_of_mem_routed hconn hactive hc, heq]
  -- the connection that has been counted off is the first
  obtain ⟨rest, hrest⟩ := endpointLatencies_fast hurl (c.url t)
  obtain ⟨later, hlater⟩ : ∃ later, routed connects activeUrl
      (withLatencies t (fast url (c.url t))) = connectionOf activeUrl url' :: later :=
    routed_cons hrest (get?_urlToConn_eq_some.mpr (.inr ⟨url', hlookup, rfl⟩))
  have hsorted := hordered (fast url (c.url t))
  unfold Ordered at hsorted
  rw [hlater] at hsorted
  have hmem : c ∈ connectionOf activeUrl url' :: later := by
    rw [← hlater]
    exact (mem_routed (t := withLatencies t (fast url (c.url t))) hactive).mpr
      ((mem_routed hactive).mp hc)
  rcases List.mem_cons.mp hmem with heq | hmem
  · exact hcne heq
  have hle := (List.pairwise_cons.mp hsorted).1 c hmem
  have hfirst : (connectionOf activeUrl url').url (withLatencies t (fast url (c.url t))) = url' :=
    connectionOf_url hconn url'
  rw [hfirst, rankLatency_fast, if_neg hne, if_neg (Ne.symm hcurl)] at hle
  have hfast : rankLatency (withLatencies t (fast url (c.url t))) (c.url t) ≤ 1 := by
    rw [rankLatency_fast]
    split
    · decide
    · rw [if_pos rfl]
  exact absurd (hle.trans hfast) (by decide)

/-- A kept endpoint that has not been counted off comes last, even if it is the fastest. -/
theorem all_of_ordered (hconn : t.connection = activeUrl)
    (hactive : activeUrl ∈ t.endpoints.map RpcEndpoint.url)
    (hsame : ∀ url url', (countedOff connects activeUrl t).reverse.lookup url = some url' →
      url' = url)
    (hordered : ∀ latencies, Ordered connects activeUrl (withLatencies t latencies))
    {url : String} (hkept : url ∈ keptUrls connects activeUrl t) (hne : url ≠ activeUrl) :
    ((countedOff connects activeUrl t).reverse.lookup url).isSome = true := by
  by_contra hnone
  have hsorted := hordered (fast url url)
  obtain ⟨appended, -, heq⟩ := foldl_pushNew_eq
    (ranked connects activeUrl (withLatencies t (fast url url))) (listed connects activeUrl t)
  have hmem : connectionOf activeUrl url ∈
      ranked connects activeUrl (withLatencies t (fast url url)) ++ appended := by
    rw [← heq]
    exact mem_foldl_pushNew.mpr (.inr (List.mem_map_of_mem hkept))
  have hlast : connectionOf activeUrl url ∈ appended := by
    rcases List.mem_append.mp hmem with hfound | happended
    · -- no URL has been given this connection
      exfalso
      obtain ⟨other, -, hget⟩ := mem_ranked.mp hfound
      rcases get?_urlToConn_eq_some.mp hget with ⟨-, hprimary⟩ | ⟨url', hlookup, hconnection⟩
      · exact hne (connectionOf_eq_primary.mp hprimary)
      · have hurl : url' = url := by
          rw [← connectionOf_url hconn url', ← hconnection, connectionOf_url hconn]
        obtain rfl : other = url := (hsame other url' hlookup).symm.trans hurl
        refine hnone ?_
        rw [Option.isSome_iff_exists]
        exact ⟨url', hlookup⟩
    · exact happended
  have hsplit : routed connects activeUrl (withLatencies t (fast url url)) =
      ranked connects activeUrl (withLatencies t (fast url url)) ++ appended := heq
  unfold Ordered at hsorted
  rw [hsplit] at hsorted
  have hle := (List.pairwise_append.mp hsorted).2.2 .primary (primary_mem_ranked hactive) _ hlast
  have hslow : rankLatency (withLatencies t (fast url url)) activeUrl = UNKNOWN_LATENCY := by
    rw [rankLatency_fast, if_neg (Ne.symm hne), if_neg (Ne.symm hne)]
  have hurl : (connectionOf activeUrl url).url (withLatencies t (fast url url)) = url :=
    connectionOf_url hconn url
  have hprimary : Connection.primary.url (withLatencies t (fast url url)) = activeUrl := hconn
  rw [hurl, hprimary, hslow, rankLatency_fast, if_pos rfl] at hle
  exact absurd hle (by decide)

/-- A routed broadcast is ordered for all latencies exactly if only the active endpoint is
kept or the pairs agree. -/
theorem ordered_iff (hconn : t.connection = activeUrl)
    (hactive : activeUrl ∈ t.endpoints.map RpcEndpoint.url) :
    (∀ latencies, Ordered connects activeUrl (withLatencies t latencies)) ↔
      (∀ url ∈ keptUrls connects activeUrl t, url = activeUrl) ∨
        PairsAgree connects activeUrl t := by
  constructor
  · intro hordered
    by_cases hall : ∀ url ∈ keptUrls connects activeUrl t, url = activeUrl
    · exact Or.inl hall
    · have hother : ∃ url ∈ keptUrls connects activeUrl t, url ≠ activeUrl := by
        simpa only [not_forall, exists_prop] using hall
      have hsame : ∀ url url',
          (countedOff connects activeUrl t).reverse.lookup url = some url' → url' = url :=
        fun url url' hlookup => same_of_ordered hconn hactive hother hordered hlookup
      exact Or.inr ⟨hsame, fun url hkept hne =>
        all_of_ordered hconn hactive hsame hordered hkept hne⟩
  · rintro (hall | hpairs) latencies
    · exact ordered_of_active (t := withLatencies t latencies) hactive hall
    · exact ordered_of_pairsAgree (t := withLatencies t latencies) hconn hactive
        ⟨hpairs.same, hpairs.all⟩

end Routed

end Broadcast

end FlashEdge
