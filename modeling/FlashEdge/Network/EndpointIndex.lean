import FlashEdge.Network.RpcManager
import FlashEdge.Theory.ListSlot

/-!
# The active index, the connection and the histories stay together

`Consistent` says of the manager's table that the active index is valid, that the
connection is one to the endpoint there, and that the histories are keyed by listed
URLs only. `addEndpoint` and `removeEndpoint` keep it. What may break it is a task
that waits for the network: when it goes on, the URL it probed may have been
removed, and the index that a failover has computed may belong to another endpoint
or to none. And the index is written before the connection is created, which may
throw.

`consistent_iff` gives the exact condition on the steps of a run.
-/

namespace FlashEdge

namespace EndpointTable

/-- The URL is in the endpoint list. -/
def Listed (t : EndpointTable) (url : String) : Prop := ∃ ep ∈ t.endpoints, ep.url = url

structure Consistent (t : EndpointTable) : Prop where
  index_lt : t.activeIndex < t.endpoints.length
  connected : t.activeEndpoint.map RpcEndpoint.url = some t.connection
  failure : ∀ url ∈ t.failureHistory.keys, t.Listed url
  latency : ∀ url ∈ t.latencyHistory.keys, t.Listed url
  slot : ∀ url ∈ t.slotHistory.keys, t.Listed url

variable {t : EndpointTable}

/-- An index with an endpoint is valid. -/
theorem index_lt_of_connected (h : t.activeEndpoint.map RpcEndpoint.url = some t.connection) :
    t.activeIndex < t.endpoints.length := by
  obtain ⟨ep, hep, -⟩ := Option.map_eq_some_iff.mp h
  exact (List.getElem?_eq_some_iff.mp hep).1

/-- The active endpoint is there, and listed. -/
theorem Consistent.active (hC : t.Consistent) :
    ∃ ep, t.activeEndpoint = some ep ∧ ep.url = t.connection ∧ t.Listed ep.url := by
  obtain ⟨ep, hep, hurl⟩ := Option.map_eq_some_iff.mp hC.connected
  exact ⟨ep, hep, hurl, ep, List.mem_of_getElem? hep, rfl⟩

/-- What `findIdx?` finds has the URL. -/
theorem indexOf_some {url : String} {idx : ℕ} (h : t.indexOf url = some idx) :
    t.endpoints[idx]?.map RpcEndpoint.url = some url := by
  obtain ⟨before, ep, after, hat⟩ := FirstAt.of_findIdx? h
  rw [hat.getElem?, Option.map_some, of_decide_eq_true hat.holds]

/-! ## The operations on the list -/

theorem Consistent.addEndpoint (hC : t.Consistent) (url label : String) :
    (t.addEndpoint url label).1.Consistent := by
  unfold EndpointTable.addEndpoint
  split
  · exact hC
  · have hgrows : ∀ url', t.Listed url' →
        ∃ ep ∈ t.endpoints ++ [(⟨url, label⟩ : RpcEndpoint)], ep.url = url' := by
      rintro url' ⟨ep, hep, hurl⟩
      exact ⟨ep, List.mem_append_left _ hep, hurl⟩
    have hlt : t.activeIndex < (t.endpoints ++ [(⟨url, label⟩ : RpcEndpoint)]).length := by
      rw [List.length_append]
      exact Nat.lt_add_right _ hC.index_lt
    refine ⟨hlt, ?_, fun url' hmem => ?_, fun url' hmem => hgrows url' (hC.latency url' hmem),
      fun url' hmem => hgrows url' (hC.slot url' hmem)⟩
    · show (t.endpoints ++ [_])[t.activeIndex]?.map RpcEndpoint.url = some t.connection
      rw [List.getElem?_append_left hC.index_lt]
      exact hC.connected
    · rcases OrderedMap.mem_keys_set.mp hmem with rfl | hmem
      · exact ⟨⟨url', label⟩, List.mem_append_right _ (List.mem_singleton_self _), rfl⟩
      · exact hgrows url' (hC.failure url' hmem)

theorem Consistent.removeEndpoint (hC : t.Consistent) (url : String) :
    (t.removeEndpoint url).1.Consistent := by
  unfold EndpointTable.removeEndpoint
  split
  · exact hC
  next idx hidx =>
  split
  · exact hC
  next hne =>
  -- another URL is still listed
  have hstays : ∀ url', url' ≠ url → t.Listed url' →
      ∃ ep ∈ t.endpoints.eraseIdx idx, ep.url = url' := by
    rintro url' hurl ⟨ep, hep, rfl⟩
    obtain ⟨j, hj⟩ := List.mem_iff_getElem?.mp hep
    refine ⟨ep, List.mem_eraseIdx_iff_getElem?.mpr ⟨j, ?_, hj⟩, rfl⟩
    rintro rfl
    have hat := indexOf_some hidx
    rw [hj] at hat
    exact hurl (Option.some.inj hat)
  have hkeys : ∀ {ν : Type} (m : OrderedMap String ν), (∀ url' ∈ m.keys, t.Listed url') →
      ∀ url' ∈ (m.delete url).keys, ∃ ep ∈ t.endpoints.eraseIdx idx, ep.url = url' := by
    intro ν m hm url' hmem
    obtain ⟨hurl, hmem⟩ := OrderedMap.mem_keys_delete.mp hmem
    exact hstays url' hurl (hm url' hmem)
  have hconnected : (t.endpoints.eraseIdx idx)[if idx < t.activeIndex then t.activeIndex - 1
      else t.activeIndex]?.map RpcEndpoint.url = some t.connection := by
    rw [getElem?_eraseIdx_shifted hne]
    exact hC.connected
  exact ⟨index_lt_of_connected (t := { t with
      endpoints := t.endpoints.eraseIdx idx
      activeIndex := if idx < t.activeIndex then t.activeIndex - 1 else t.activeIndex })
    hconnected, hconnected, hkeys _ hC.failure, hkeys _ hC.latency, hkeys _ hC.slot⟩

/-! ## Writing the histories -/

theorem Consistent.recordResult (hC : t.Consistent) {success : Bool} {t' : EndpointTable}
    (hrecord : t.recordResult success = some t') : t'.Consistent := by
  obtain ⟨ep, hep, rfl⟩ := Option.map_eq_some_iff.mp hrecord
  refine ⟨hC.index_lt, hC.connected, fun url hmem => ?_, hC.latency, hC.slot⟩
  rcases OrderedMap.mem_keys_set.mp hmem with rfl | hmem
  · exact ⟨ep, List.mem_of_getElem? hep, rfl⟩
  · exact hC.failure url hmem

/-- A latency is written for a listed URL. -/
theorem Consistent.setLatency (hC : t.Consistent) {url : String} (hurl : t.Listed url)
    (latencyMs : ℚ) : (t.setLatency url latencyMs).Consistent := by
  refine ⟨hC.index_lt, hC.connected, hC.failure, fun url' hmem => ?_, hC.slot⟩
  rcases OrderedMap.mem_keys_set.mp hmem with rfl | hmem
  · exact hurl
  · exact hC.latency url' hmem

theorem Consistent.setSlot (hC : t.Consistent) {url : String} (hurl : t.Listed url)
    (slot : ℕ) : (t.setSlot url slot).Consistent := by
  refine ⟨hC.index_lt, hC.connected, hC.failure, hC.latency, fun url' hmem => ?_⟩
  rcases OrderedMap.mem_keys_set.mp hmem with rfl | hmem
  · exact hurl
  · exact hC.slot url' hmem

theorem mem_keys_setLatency (url : String) (latencyMs : ℚ) :
    url ∈ (t.setLatency url latencyMs).latencyHistory.keys :=
  OrderedMap.mem_keys_set.mpr (.inl rfl)

theorem mem_keys_setSlot (url : String) (slot : ℕ) : url ∈ (t.setSlot url slot).slotHistory.keys :=
  OrderedMap.mem_keys_set.mpr (.inl rfl)

/-! ## Changing the active endpoint -/

/-- The connection after `activate`: a new one, or the old one if creating it throws. -/
def connectionAfter (accepts : String → Bool) (t : EndpointTable) (url : String) : String :=
  if accepts url then url else t.connection

variable {accepts : String → Bool}

/-- An activation ends in a consistent table exactly if the endpoint at the index has
the URL of the connection. -/
theorem activate_consistent_iff (hC : t.Consistent) (idx : ℕ) (url : String) :
    (t.activate accepts idx url).1.Consistent ↔
      t.endpoints[idx]?.map RpcEndpoint.url = some (t.connectionAfter accepts url) := by
  unfold activate connectionAfter
  split
  · exact ⟨fun h => h.connected, fun h =>
      ⟨index_lt_of_connected (t := { t with activeIndex := idx, connection := url }) h, h,
        hC.failure, hC.latency, hC.slot⟩⟩
  · exact ⟨fun h => h.connected, fun h =>
      ⟨index_lt_of_connected (t := { t with activeIndex := idx }) h, h,
        hC.failure, hC.latency, hC.slot⟩⟩

/-- The condition on a switch: the connection can be created, or is already one to
this URL. -/
def Switchable (accepts : String → Bool) (t : EndpointTable) (url : String) : Prop :=
  ∀ idx, t.indexOf url = some idx → idx ≠ t.activeIndex →
    accepts url = true ∨ url = t.connection

theorem switchTo_consistent_iff (hC : t.Consistent) (url : String) :
    (t.switchTo accepts url).1.Consistent ↔ t.Switchable accepts url := by
  unfold switchTo Switchable
  split
  · next hnone => exact iff_of_true hC fun idx h => absurd (hnone.symm.trans h) (by simp)
  next idx hidx =>
  split
  · next heq =>
    refine iff_of_true hC fun idx' h hne => ?_
    rw [hidx] at h
    exact absurd heq (Option.some.inj h ▸ hne)
  next hne =>
  have hactivate : (t.activate accepts idx url).1.Consistent ↔
      accepts url = true ∨ url = t.connection := by
    rw [activate_consistent_iff hC, indexOf_some hidx, connectionAfter]
    cases accepts url with
    | true => simp
    | false => simp
  have hswitch : t.Switchable accepts url ↔ accepts url = true ∨ url = t.connection :=
    ⟨fun h => h idx hidx hne, fun h _ _ _ => h⟩
  -- whether it throws or not, the table is that of `activate`
  generalize t.activate accepts idx url = r at hactivate ⊢
  obtain ⟨t', returned⟩ := r
  cases returned with
  | true => exact hactivate.trans hswitch.symm
  | false => exact hactivate.trans hswitch.symm

end EndpointTable

namespace RpcManager

open EndpointTable

/-! ## What the tasks do to the table

Starting tasks, ending them and choosing the next candidate leaves it as it is. -/

section Table

variable (s : RpcManager) (task : ℕ) (now : ℚ)

theorem tryNext_table (id i : ℕ) :
    (s.tryNext task id i now).toEndpointTable = s.toEndpointTable := by
  unfold tryNext
  split
  · rfl
  · split
    · rfl
    · rfl

theorem failover_table (force : Bool) :
    (s.failover force now).1.toEndpointTable = s.toEndpointTable := by
  unfold failover
  split
  · rfl
  · dsimp only
    split
    · rfl
    · exact tryNext_table _ _ _ _ _

theorem awaitFailover_table (next : AfterFailover) :
    (s.awaitFailover task next now).toEndpointTable = s.toEndpointTable :=
  failover_table s now false

theorem checkConnection_table :
    (s.checkConnection task now).toEndpointTable = s.toEndpointTable := by
  unfold checkConnection
  split
  · rfl
  · split
    · rfl
    · rfl

theorem getHealthyConnection_table :
    (s.getHealthyConnection now).toEndpointTable = s.toEndpointTable := by
  unfold getHealthyConnection
  dsimp only [newTask]
  split
  · rfl
  · split
    · exact awaitFailover_table _ _ _ _
    · exact checkConnection_table _ _ _

theorem monitorTick_table : (s.monitorTick now).toEndpointTable = s.toEndpointTable := by
  unfold monitorTick
  split
  · rfl
  · split
    · rfl
    · rfl

theorem warmNext_table (pos : ℕ) :
    (s.warmNext task pos now).toEndpointTable = s.toEndpointTable := by
  unfold warmNext
  split
  · rfl
  · split
    · rfl
    · rfl

theorem warmupConnections_table :
    (s.warmupConnections now).toEndpointTable = s.toEndpointTable := by
  unfold warmupConnections
  split
  · rfl
  · exact warmNext_table _ _ _ _

theorem checkAllHealth_table (endpoints : List RpcEndpoint) :
    (endpoints.foldl (fun s ep => s.checkHealth now ep) s).toEndpointTable =
      s.toEndpointTable := by
  induction endpoints generalizing s with
  | nil => rfl
  | cons ep endpoints ih => exact ih (s.checkHealth now ep)

end Table

/-- The table after a health check has ended: a healthy candidate of a failover is
made active, and the monitor records its result. -/
def tableAfter (accepts : String → Bool) (t : EndpointTable) (endpoint : RpcEndpoint)
    (healthy : Bool) : Purpose → EndpointTable
  | .failover _ _ idx =>
    if healthy ∧ t.activeEndpoint.isSome then (t.activate accepts idx endpoint.url).1 else t
  | .monitor => (t.recordResult healthy).getD t
  | _ => t

variable {accepts : String → Bool} {s s' : RpcManager}

theorem completeFailover_table (task id idx : ℕ) (ep : RpcEndpoint) (now : ℚ) :
    (s.completeFailover accepts task id idx ep now).toEndpointTable =
      if s.activeEndpoint.isSome then (s.activate accepts idx ep.url).1
      else s.toEndpointTable := by
  unfold completeFailover
  split
  · next hnone => simp only [hnone, Option.isSome_none, Bool.false_eq_true, if_false]; rfl
  · next active hactive =>
    simp only [hactive, Option.isSome_some, if_true]
    split
    · next heq => rw [heq]; rfl
    · next heq => rw [heq]; rfl

theorem finishProbe_table (task : ℕ) (endpoint : RpcEndpoint) (health : Option RpcHealth) (now : ℚ)
    (purpose : Purpose) :
    (s.finishProbe accepts task endpoint health now purpose).toEndpointTable =
      tableAfter accepts s.toEndpointTable endpoint health.isSome purpose := by
  cases purpose with
  | caller => rfl
  | recheck id => rfl
  | failover id i idx =>
    cases health with
    | none => exact tryNext_table _ _ _ _ _
    | some health =>
      refine (completeFailover_table task id idx endpoint now).trans ?_
      simp [tableAfter]
  | connection =>
    unfold finishProbe
    dsimp only
    split
    · exact awaitFailover_table _ _ _ _
    · rfl
  | monitor =>
    unfold finishProbe tableAfter
    dsimp only
    split
    · next hnone =>
      rw [hnone]
      rfl
    · next t hrecord =>
      rw [hrecord]
      split
      · exact awaitFailover_table _ _ _ _
      · rfl

/-- The end of a health check changes no URL of the list, and no key of the latencies
and slots. -/
theorem tableAfter_kept (accepts : String → Bool) (t : EndpointTable) (endpoint : RpcEndpoint)
    (healthy : Bool) (purpose : Purpose) :
    (tableAfter accepts t endpoint healthy purpose).endpoints = t.endpoints ∧
      (tableAfter accepts t endpoint healthy purpose).latencyHistory = t.latencyHistory ∧
      (tableAfter accepts t endpoint healthy purpose).slotHistory = t.slotHistory := by
  cases purpose with
  | caller => exact ⟨rfl, rfl, rfl⟩
  | recheck id => exact ⟨rfl, rfl, rfl⟩
  | connection => exact ⟨rfl, rfl, rfl⟩
  | failover id i idx =>
    unfold tableAfter activate
    dsimp only
    split
    · split
      · exact ⟨rfl, rfl, rfl⟩
      · exact ⟨rfl, rfl, rfl⟩
    · exact ⟨rfl, rfl, rfl⟩
  | monitor =>
    unfold tableAfter recordResult
    cases t.activeEndpoint with
    | none => exact ⟨rfl, rfl, rfl⟩
    | some ep => exact ⟨rfl, rfl, rfl⟩

/-- A candidate may be made active: its index still has its URL (or, if creating the
connection throws, the URL of the old connection). -/
def Activatable (accepts : String → Bool) (t : EndpointTable) (endpoint : RpcEndpoint) :
    Purpose → Prop
  | .failover _ _ idx =>
    t.endpoints[idx]?.map RpcEndpoint.url = some (t.connectionAfter accepts endpoint.url)
  | _ => True

/-- An unhealthy endpoint is never made active, and a healthy one keeps the table
consistent exactly if it is activatable. -/
theorem tableAfter_consistent_iff {t : EndpointTable} (hC : t.Consistent) (endpoint : RpcEndpoint)
    (healthy : Bool) (purpose : Purpose) :
    (tableAfter accepts t endpoint healthy purpose).Consistent ↔
      (healthy = true → Activatable accepts t endpoint purpose) := by
  cases purpose with
  | caller => exact iff_of_true hC fun _ => trivial
  | recheck id => exact iff_of_true hC fun _ => trivial
  | connection => exact iff_of_true hC fun _ => trivial
  | monitor =>
    refine iff_of_true ?_ fun _ => trivial
    unfold tableAfter
    cases hrecord : t.recordResult healthy with
    | none => exact hC
    | some t' => exact hC.recordResult hrecord
  | failover id i idx =>
    obtain ⟨active, hactive, -, -⟩ := hC.active
    unfold tableAfter
    dsimp only
    cases healthy with
    | false => simpa using hC
    | true =>
      simp only [hactive, Option.isSome_some, and_self, if_true, forall_const]
      exact activate_consistent_iff hC idx endpoint.url

/-! ## The condition on a step -/

/-- The endpoint list still has the URL that a probe is about when its answer is
recorded; the index of a failover still belongs to the URL it is about when that
candidate turns out healthy; and the connection of a switch can be created. -/
def KeepsTable (accepts : String → Bool) (s : RpcManager) (_ : List Event) : Action → Prop
  | .switchTo url => s.Switchable accepts url
  | .blockhashAnswered task _ _ => ∀ endpoint start purpose,
    s.tasks.get? task = some (.probe endpoint (.blockhash start) purpose) → s.Listed endpoint.url
  | .slotAnswered task slot _ => ∀ endpoint latencyMs purpose,
    s.tasks.get? task = some (.probe endpoint (.slot latencyMs) purpose) →
      ((s.recordedSlot slot).isSome = true → s.Listed endpoint.url) ∧
        Activatable accepts s.toEndpointTable endpoint purpose
  | .warmed task answer _ => ∀ pos endpoint start,
    s.tasks.get? task = some (.warmup pos endpoint start) → answer.isSome = true →
      s.Listed endpoint.url
  | _ => True

/-! ## What the answers do to the table -/

theorem blockhashAnswered_table {task : ℕ} {answered : Bool} {now : ℚ} {t : Task}
    (hs : s.blockhashAnswered accepts task answered now t = some s') :
    ∃ endpoint start purpose latencyMs, t = .probe endpoint (.blockhash start) purpose ∧
      (s'.toEndpointTable = s.setLatency endpoint.url latencyMs ∨
        s'.toEndpointTable =
          tableAfter accepts (s.setLatency endpoint.url latencyMs) endpoint false purpose) := by
  unfold blockhashAnswered at hs
  split at hs
  · next endpoint start purpose =>
    split at hs
    · obtain rfl := Option.some.inj hs
      exact ⟨endpoint, start, purpose, _, rfl, .inl rfl⟩
    · obtain rfl := Option.some.inj hs
      exact ⟨endpoint, start, purpose, _, rfl, .inr (finishProbe_table _ _ _ _ _)⟩
  · cases hs

/-- The table with the slot of a health check, if it is recorded. -/
def withSlot (s : RpcManager) (endpoint : RpcEndpoint) (slot : Option ℕ) : EndpointTable :=
  match s.recordedSlot slot with
  | some slot => s.setSlot endpoint.url slot
  | none => s.toEndpointTable

theorem withSlot_kept (s : RpcManager) (endpoint : RpcEndpoint) (slot : Option ℕ) :
    (s.withSlot endpoint slot).endpoints = s.endpoints ∧
      (s.withSlot endpoint slot).connection = s.connection := by
  unfold withSlot
  split
  · exact ⟨rfl, rfl⟩
  · exact ⟨rfl, rfl⟩

theorem slotAnswered_table {task : ℕ} {slot : Option ℕ} {now : ℚ} {t : Task}
    (hs : s.slotAnswered accepts task slot now t = some s') :
    ∃ endpoint latencyMs purpose, t = .probe endpoint (.slot latencyMs) purpose ∧
      s'.toEndpointTable = tableAfter accepts (s.withSlot endpoint slot) endpoint true purpose := by
  unfold slotAnswered at hs
  split at hs
  · next endpoint latencyMs purpose =>
    obtain rfl := Option.some.inj hs
    refine ⟨endpoint, latencyMs, purpose, rfl, (finishProbe_table _ _ _ _ _).trans ?_⟩
    cases hslot : s.recordedSlot slot with
    | none => simp only [withSlot, hslot, Option.isSome_some]
    | some n => simp only [withSlot, hslot, Option.isSome_some]
  · cases hs

/-- A failed warm-up writes nothing; an answered one the latency, and the slot if there
is one. -/
theorem warmed_table {task : ℕ} {answer : Option (Option ℕ)} {now : ℚ} {t : Task}
    (hs : s.warmed task answer now t = some s') :
    ∃ pos endpoint start, t = .warmup pos endpoint start ∧
      ((answer = none ∧ s'.toEndpointTable = s.toEndpointTable) ∨
        ∃ slot latencyMs, answer = some slot ∧
          (s'.toEndpointTable = s.setLatency endpoint.url latencyMs ∨
            ∃ n, s'.toEndpointTable =
              (s.setLatency endpoint.url latencyMs).setSlot endpoint.url n)) := by
  unfold warmed at hs
  split at hs
  · next pos endpoint start =>
    refine ⟨pos, endpoint, start, rfl, ?_⟩
    split at hs
    · obtain rfl := Option.some.inj hs
      exact .inl ⟨rfl, warmNext_table _ _ _ _⟩
    · next slot =>
      obtain rfl := Option.some.inj hs
      refine .inr ⟨slot, now - start, rfl, ?_⟩
      cases slot with
      | none => exact .inl (warmNext_table _ _ _ _)
      | some n => exact .inr ⟨n, warmNext_table _ _ _ _⟩
  · cases hs

/-- The last call of a latency measurement writes under the endpoint that is active then. -/
theorem latencyAnswered_table {task : ℕ} {answered : Bool} {now : ℚ} {t : Task}
    (hs : s.latencyAnswered task answered now t = some s') :
    s'.toEndpointTable = s.toEndpointTable ∨
      ∃ ep avg, s.activeEndpoint = some ep ∧
        s'.toEndpointTable = s.setLatency ep.url avg := by
  unfold latencyAnswered at hs
  split at hs
  · dsimp only at hs
    split at hs
    · obtain rfl := Option.some.inj hs
      exact Or.inl rfl
    · split at hs
      · obtain rfl := Option.some.inj hs
        exact Or.inl rfl
      · next ep hep =>
        obtain rfl := Option.some.inj hs
        exact Or.inr ⟨ep, _, hep, rfl⟩
  · cases hs

theorem latencyAnswered_consistent {task : ℕ} {answered : Bool} {now : ℚ} {t : Task}
    (hC : s.toEndpointTable.Consistent) (hs : s.latencyAnswered task answered now t = some s') :
    s'.toEndpointTable.Consistent := by
  rcases latencyAnswered_table hs with htable | ⟨ep, avg, hep, htable⟩
  · rw [htable]
    exact hC
  · rw [htable]
    exact hC.setLatency ⟨ep, List.mem_of_getElem? hep, rfl⟩ avg

theorem failoverEnded_table {task : ℕ} {now : ℚ} {t : Task}
    (hs : s.failoverEnded task now t = some s') : s'.toEndpointTable = s.toEndpointTable := by
  unfold failoverEnded at hs
  split at hs
  · next id next =>
    obtain ⟨outcome, -, rfl⟩ := Option.map_eq_some_iff.mp hs
    cases next with
    | highFailureRate =>
      dsimp only
      split
      · exact checkConnection_table _ _ _
      · rfl
    | unhealthy => rfl
    | monitor => rfl
  · cases hs

/-! ## Unlisted keys -/

theorem not_consistent_of_latency {t : EndpointTable} {url : String}
    (hmem : url ∈ t.latencyHistory.keys) (hnot : ¬ t.Listed url) : ¬ t.Consistent :=
  fun hC => hnot (hC.latency url hmem)

theorem not_consistent_of_slot {t : EndpointTable} {url : String}
    (hmem : url ∈ t.slotHistory.keys) (hnot : ¬ t.Listed url) : ¬ t.Consistent :=
  fun hC => hnot (hC.slot url hmem)

/-- Which URLs are listed depends on the list only. -/
theorem listed_congr {t t' : EndpointTable} (heq : t'.endpoints = t.endpoints) (url : String) :
    t'.Listed url ↔ t.Listed url := by
  unfold Listed
  rw [heq]

theorem activatable_congr {t t' : EndpointTable} (hend : t'.endpoints = t.endpoints)
    (hconn : t'.connection = t.connection) (endpoint : RpcEndpoint) (purpose : Purpose) :
    Activatable accepts t' endpoint purpose ↔ Activatable accepts t endpoint purpose := by
  cases purpose with
  | failover id i idx => simp only [Activatable, connectionAfter, hend, hconn]
  | caller => exact Iff.rfl
  | recheck id => exact Iff.rfl
  | connection => exact Iff.rfl
  | monitor => exact Iff.rfl

/-- A blockhash answer keeps the table consistent exactly if its URL is listed: healthy
or not, a latency is written under it. -/
theorem blockhashAnswered_consistent_iff (hC : s.toEndpointTable.Consistent)
    {endpoint : RpcEndpoint} {purpose : Purpose} {latencyMs : ℚ}
    (htable : s'.toEndpointTable = s.setLatency endpoint.url latencyMs ∨
      s'.toEndpointTable =
        tableAfter accepts (s.setLatency endpoint.url latencyMs) endpoint false purpose) :
    s'.toEndpointTable.Consistent ↔ s.Listed endpoint.url := by
  by_cases hlisted : s.Listed endpoint.url
  · refine iff_of_true ?_ hlisted
    have hlatency := hC.setLatency hlisted latencyMs
    rcases htable with htable | htable
    · rw [htable]
      exact hlatency
    · rw [htable, tableAfter_consistent_iff hlatency]
      intro hhealthy
      cases hhealthy
  · refine iff_of_false ?_ hlisted
    have hmem := mem_keys_setLatency (t := s.toEndpointTable) endpoint.url latencyMs
    rcases htable with htable | htable
    · rw [htable]
      exact not_consistent_of_latency hmem hlisted
    · obtain ⟨hend, hlatency, -⟩ := tableAfter_kept accepts
        (s.setLatency endpoint.url latencyMs) endpoint false purpose
      rw [htable]
      refine not_consistent_of_latency (hlatency ▸ hmem) ?_
      rw [listed_congr hend]
      exact hlisted

/-- The answer of a health check keeps the table consistent exactly if its slot, when it
is recorded, is that of a listed URL, and its endpoint is activatable. -/
theorem slotAnswered_consistent_iff (hC : s.toEndpointTable.Consistent) (endpoint : RpcEndpoint)
    (slot : Option ℕ) (purpose : Purpose) :
    (tableAfter accepts (s.withSlot endpoint slot) endpoint true purpose).Consistent ↔
      ((s.recordedSlot slot).isSome = true → s.Listed endpoint.url) ∧
        Activatable accepts s.toEndpointTable endpoint purpose := by
  obtain ⟨hend, hconn⟩ := s.withSlot_kept endpoint slot
  by_cases hlisted : (s.recordedSlot slot).isSome = true → s.Listed endpoint.url
  · have hslot : (s.withSlot endpoint slot).Consistent := by
      unfold withSlot
      split
      · next n hn => exact hC.setSlot (hlisted (by rw [hn]; rfl)) n
      · exact hC
    rw [tableAfter_consistent_iff hslot, forall_prop_of_true rfl,
      activatable_congr hend hconn, and_iff_right hlisted]
  · refine iff_of_false ?_ fun h => hlisted h.1
    push Not at hlisted
    obtain ⟨hrecorded, hnot⟩ := hlisted
    obtain ⟨hendpoints, -, hslots⟩ :=
      tableAfter_kept accepts (s.withSlot endpoint slot) endpoint true purpose
    refine not_consistent_of_slot (?_ : endpoint.url ∈ _) ?_
    · rw [hslots, withSlot]
      split
      · exact mem_keys_setSlot _ _
      · next hnone =>
        rw [hnone] at hrecorded
        cases hrecorded
    · rw [listed_congr (hendpoints.trans hend)]
      exact hnot

/-- An answered warm-up keeps the table consistent exactly if its URL is listed. -/
theorem warmed_consistent_iff (hC : s.toEndpointTable.Consistent) {endpoint : RpcEndpoint}
    {latencyMs : ℚ}
    (htable : s'.toEndpointTable = s.setLatency endpoint.url latencyMs ∨
      ∃ n, s'.toEndpointTable =
        (s.setLatency endpoint.url latencyMs).setSlot endpoint.url n) :
    s'.toEndpointTable.Consistent ↔ s.Listed endpoint.url := by
  by_cases hlisted : s.Listed endpoint.url
  · refine iff_of_true ?_ hlisted
    have hlatency := hC.setLatency hlisted latencyMs
    rcases htable with htable | ⟨n, htable⟩
    · rw [htable]
      exact hlatency
    · rw [htable]
      exact hlatency.setSlot hlisted n
  · refine iff_of_false ?_ hlisted
    have hmem := mem_keys_setLatency (t := s.toEndpointTable) endpoint.url latencyMs
    rcases htable with htable | ⟨n, htable⟩
    · rw [htable]
      exact not_consistent_of_latency hmem hlisted
    · rw [htable]
      exact not_consistent_of_latency (t := (s.setLatency endpoint.url latencyMs).setSlot
        endpoint.url n) hmem hlisted

/-! ## Steps and runs -/

variable {h es : List Event}

/-- An answer resumes the task that waits for it. -/
theorem answer_resumes {task : ℕ} {resume : Task → Option RpcManager} {events : Task → List Event}
    (hs : ((s.tasks.get? task).bind fun t => (resume t).map fun s' => (s', events t)) =
      some (s', es)) :
    ∃ t, s.tasks.get? task = some t ∧ resume t = some s' := by
  obtain ⟨t, ht, hs⟩ := Option.bind_eq_some_iff.mp hs
  obtain ⟨s₁, hs₁, heq⟩ := Option.map_eq_some_iff.mp hs
  obtain ⟨rfl, -⟩ := Prod.mk.inj heq
  exact ⟨t, ht, hs₁⟩

/-- The actions that only start tasks, or resume one that records nothing. -/
def LeavesTable : Action → Prop
  | .checkHealth _ _ | .checkAllHealth _ | .measureLatency _ | .failover _ _
  | .getHealthyConnection _ | .monitorTick _ | .warmupConnections _ | .healthImported _
  | .failoverEnded _ _ => True
  | _ => False

theorem step_table {a : Action} (hs : s.step accepts a = some (s', es)) (ha : LeavesTable a) :
    s'.toEndpointTable = s.toEndpointTable := by
  cases a with
  | checkHealth endpoint now =>
    obtain ⟨rfl, -⟩ := Machine.some_pair hs
    rfl
  | checkAllHealth now =>
    obtain ⟨rfl, -⟩ := Machine.some_pair hs
    exact checkAllHealth_table s now s.endpoints
  | measureLatency now =>
    obtain ⟨rfl, -⟩ := Machine.some_pair hs
    rfl
  | failover force now =>
    obtain ⟨rfl, -⟩ := Machine.some_pair hs
    exact failover_table s now force
  | getHealthyConnection now =>
    obtain ⟨rfl, -⟩ := Machine.some_pair hs
    exact getHealthyConnection_table s now
  | monitorTick now =>
    obtain ⟨rfl, -⟩ := Machine.some_pair hs
    exact monitorTick_table s now
  | warmupConnections now =>
    obtain ⟨rfl, -⟩ := Machine.some_pair hs
    exact warmupConnections_table s now
  | healthImported task =>
    obtain ⟨t, -, hs⟩ := answer_resumes hs
    unfold healthImported at hs
    split at hs
    · obtain rfl := Option.some.inj hs
      rfl
    · cases hs
  | failoverEnded task now =>
    obtain ⟨t, -, hs⟩ := answer_resumes hs
    exact failoverEnded_table hs
  | addEndpoint url label => cases ha
  | removeEndpoint url => cases ha
  | switchTo url => cases ha
  | recordResult success => cases ha
  | blockhashAnswered task answered now => cases ha
  | slotAnswered task slot now => cases ha
  | latencyAnswered task answered now => cases ha
  | warmed task answer now => cases ha

/-- A step that does not meet the condition writes under an unlisted URL, or parts the
active endpoint from the connection; every other step keeps the table consistent. -/
theorem consistent_step_iff {a : Action} (hC : s.toEndpointTable.Consistent)
    (hs : s.step accepts a = some (s', es)) :
    s'.toEndpointTable.Consistent ↔ KeepsTable accepts s h a := by
  cases a with
  | addEndpoint url label =>
    obtain ⟨rfl, -⟩ := Machine.some_pair hs
    exact iff_of_true (hC.addEndpoint url label) trivial
  | removeEndpoint url =>
    obtain ⟨rfl, -⟩ := Machine.some_pair hs
    exact iff_of_true (hC.removeEndpoint url) trivial
  | switchTo url =>
    obtain ⟨rfl, -⟩ := Machine.some_pair hs
    exact switchTo_consistent_iff hC url
  | recordResult success =>
    refine iff_of_true ?_ trivial
    simp only [step] at hs
    split at hs
    · obtain ⟨rfl, -⟩ := Machine.some_pair hs
      exact hC
    · next t hrecord =>
      obtain ⟨rfl, -⟩ := Machine.some_pair hs
      exact hC.recordResult hrecord
  | checkHealth endpoint now =>
    rw [step_table hs trivial]
    exact iff_of_true hC trivial
  | checkAllHealth now =>
    rw [step_table hs trivial]
    exact iff_of_true hC trivial
  | measureLatency now =>
    rw [step_table hs trivial]
    exact iff_of_true hC trivial
  | failover force now =>
    rw [step_table hs trivial]
    exact iff_of_true hC trivial
  | getHealthyConnection now =>
    rw [step_table hs trivial]
    exact iff_of_true hC trivial
  | monitorTick now =>
    rw [step_table hs trivial]
    exact iff_of_true hC trivial
  | warmupConnections now =>
    rw [step_table hs trivial]
    exact iff_of_true hC trivial
  | blockhashAnswered task answered now =>
    obtain ⟨t, ht, hs⟩ := answer_resumes hs
    obtain ⟨endpoint, start, purpose, latencyMs, rfl, htable⟩ := blockhashAnswered_table hs
    rw [blockhashAnswered_consistent_iff hC htable]
    constructor
    · intro hlisted endpoint' start' purpose' ht'
      rw [ht] at ht'
      obtain ⟨rfl, -, -⟩ := Task.probe.inj (Option.some.inj ht')
      exact hlisted
    · intro hK
      exact hK endpoint start purpose ht
  | healthImported task =>
    rw [step_table hs trivial]
    exact iff_of_true hC trivial
  | slotAnswered task slot now =>
    obtain ⟨t, ht, hs⟩ := answer_resumes hs
    obtain ⟨endpoint, latencyMs, purpose, rfl, htable⟩ := slotAnswered_table hs
    rw [htable, slotAnswered_consistent_iff hC]
    constructor
    · intro hboth endpoint' latencyMs' purpose' ht'
      rw [ht] at ht'
      obtain ⟨rfl, -, rfl⟩ := Task.probe.inj (Option.some.inj ht')
      exact hboth
    · intro hK
      exact hK endpoint latencyMs purpose ht
  | failoverEnded task now =>
    rw [step_table hs trivial]
    exact iff_of_true hC trivial
  | latencyAnswered task answered now =>
    obtain ⟨t, ht, hs⟩ := answer_resumes hs
    exact iff_of_true (latencyAnswered_consistent hC hs) trivial
  | warmed task answer now =>
    obtain ⟨t, ht, hs⟩ := answer_resumes hs
    obtain ⟨pos, endpoint, start, rfl, ⟨rfl, htable⟩ | ⟨slot, latencyMs, rfl, htable⟩⟩ :=
      warmed_table hs
    · rw [htable]
      refine iff_of_true hC fun _ _ _ _ hanswered => ?_
      cases hanswered
    · rw [warmed_consistent_iff hC htable]
      constructor
      · intro hlisted pos' endpoint' start' ht' _
        rw [ht] at ht'
        obtain ⟨-, rfl, -⟩ := Task.warmup.inj (Option.some.inj ht')
        exact hlisted
      · intro hK
        exact hK pos endpoint start ht rfl

/-- The keys that writing an entry for each endpoint adds are their URLs. -/
theorem mem_keys_foldl_set {endpoints : List RpcEndpoint} {m : OrderedMap String (List Bool)}
    {url : String} (hmem : url ∈ (endpoints.foldl (fun m ep => m.set ep.url []) m).keys) :
    url ∈ m.keys ∨ ∃ ep ∈ endpoints, ep.url = url := by
  induction endpoints generalizing m with
  | nil => exact .inl hmem
  | cons ep endpoints ih =>
    rcases ih hmem with hset | ⟨ep', hep', hurl⟩
    · rcases OrderedMap.mem_keys_set.mp hset with rfl | hold
      · exact .inr ⟨ep, List.mem_cons_self, rfl⟩
      · exact .inl hold
    · exact .inr ⟨ep', List.mem_cons_of_mem _ hep', hurl⟩

/-- A new manager is consistent. -/
theorem construct_consistent {endpoints : List RpcEndpoint}
    (hs : construct accepts endpoints = some s) : s.toEndpointTable.Consistent := by
  unfold construct at hs
  split at hs
  · cases hs
  · next ep rest =>
    split at hs
    · obtain rfl := Option.some.inj hs
      refine ⟨Nat.succ_pos _, rfl, fun url hmem => ?_, fun url hmem => ?_, fun url hmem => ?_⟩
      · rcases mem_keys_foldl_set hmem with hempty | hlisted
        · cases hempty
        · exact hlisted
      · cases hmem
      · cases hmem
    · cases hs

/-- **When index, connection and histories stay together.** For every interleaving of
calls and answers, the table is consistent in every state of the run if and only if no
answer is recorded for a URL that is listed no more, no failover activates an index that
no longer belongs to its candidate, and no connection that is switched to throws. -/
theorem consistent_iff {accepts : String → Bool} {endpoints : List RpcEndpoint} {s₀ : RpcManager}
    (hnew : construct accepts endpoints = some s₀) (as : List Action) :
    (rpcManager accepts s₀).Always (fun s _ => s.toEndpointTable.Consistent) s₀ [] as ↔
      (rpcManager accepts s₀).Along (KeepsTable accepts) s₀ [] as :=
  Machine.always_iff_along (M := rpcManager accepts s₀)
    (I := fun s _ => s.toEndpointTable.Consistent) (fun hC => hC)
    (fun hC hK hs => (consistent_step_iff hC hs).mpr hK)
    (fun hC hK hs hC' => hK ((consistent_step_iff hC hs).mp hC'))
    (construct_consistent hnew) as

/-- Three endpoints, of which the first is active. -/
def threeEndpoints : List RpcEndpoint :=
  [⟨"https://a", "a"⟩, ⟨"https://b", "b"⟩, ⟨"https://c", "c"⟩]

/-- A failover finds `b` unhealthy and probes `c`; `b` is removed meanwhile. -/
def removedDuringFailover : List Action :=
  [.failover true 0, .blockhashAnswered 0 false 10, .removeEndpoint "https://b",
    .blockhashAnswered 0 true 20, .healthImported 0, .slotAnswered 0 (some 5) 30]

/-- The equivalence for this run. -/
theorem consistent_iff_threeEndpoints :
    ∃ s₀, construct (fun _ => true) threeEndpoints = some s₀ ∧
      ((rpcManager (fun _ => true) s₀).Always (fun s _ => s.toEndpointTable.Consistent) s₀ []
          removedDuringFailover ↔
        (rpcManager (fun _ => true) s₀).Along (KeepsTable fun _ => true) s₀ []
          removedDuringFailover) := by
  obtain ⟨s₀, hnew⟩ : ∃ s₀, construct (fun _ => true) threeEndpoints = some s₀ := ⟨_, rfl⟩
  exact ⟨s₀, hnew, consistent_iff hnew removedDuringFailover⟩

/-- The failover activates index 2 of a list of two endpoints. -/
theorem not_consistent :
    ¬ ∀ (accepts : String → Bool) (endpoints : List RpcEndpoint) (s₀ s : RpcManager)
      (h : List Event), construct accepts endpoints = some s₀ →
      (rpcManager accepts s₀).Reachable s h → s.toEndpointTable.Consistent := by
  intro hall
  obtain ⟨s₀, hnew⟩ : ∃ s₀, construct (fun _ => true) threeEndpoints = some s₀ := ⟨_, rfl⟩
  have hrun : ((rpcManager (fun _ => true) s₀).run removedDuringFailover).map
      (fun r => (r.1.activeIndex, r.1.endpoints.length)) = some (2, 2) := by
    obtain rfl := Option.some.inj hnew
    decide +kernel
  obtain ⟨⟨s, h⟩, hs, hh⟩ := Option.map_eq_some_iff.mp hrun
  have hindex : s.activeIndex = 2 := (Prod.mk.inj hh).1
  have hlength : s.endpoints.length = 2 := (Prod.mk.inj hh).2
  have hlt := (hall _ _ s₀ s h hnew (Machine.reachable_of_run hs)).index_lt
  rw [hindex, hlength] at hlt
  exact absurd hlt (lt_irrefl 2)

end RpcManager

end FlashEdge
