import FlashEdge.Network.EndpointIndex
import Mathlib.Logic.Function.Basic

/-!
# Whose results the failure histories hold

The manager keeps the last twenty results of each endpoint. A result is reported without
the endpoint it belongs to: the monitor and the callers that send transactions wait for an
answer, and then `recordResult` writes under the endpoint that is active by that time.

`TrackedManager` runs the manager beside an observer who numbers the requests whose results
are reported, and who knows the URL that each was made to. He keeps two histories by URL:
`kept` follows the manager, and `made` files every result under the URL that was asked.

- `step_results`: what a step does to the histories of the manager.
- `attributed_iff`: `kept` and `made` agree all along a run if and only if every result is
  reported while the endpoint that was asked is the active one.
-/

namespace FlashEdge

namespace RpcManager

/-! ## Rolling windows -/

section Rolling

variable {α β : Type} {n : ℕ} {l : List α} {x : α}

/-- The last `n` of a list and one more element. -/
def rolling (n : ℕ) (l : List α) (x : α) : List α :=
  let l := l ++ [x]
  if n < l.length then l.tail else l

theorem map_rolling (f : α → β) : (rolling n l x).map f = rolling n (l.map f) (f x) := by
  simp only [rolling, List.length_append, List.length_map, List.length_singleton]
  split
  · rw [List.map_tail, List.map_append, List.map_singleton]
  · rw [List.map_append, List.map_singleton]

theorem mem_of_mem_rolling {y : α} (hy : y ∈ rolling n l x) : y ∈ l ∨ y = x := by
  have happend : y ∈ l ++ [x] := by
    unfold rolling at hy
    dsimp only at hy
    split at hy
    · exact List.mem_of_mem_tail hy
    · exact hy
  rcases List.mem_append.mp happend with hold | hnew
  · exact Or.inl hold
  · exact Or.inr (List.mem_singleton.mp hnew)

/-- The new element is in a window that has room for one. -/
theorem mem_rolling (hn : 0 < n) : x ∈ rolling n l x := by
  unfold rolling
  dsimp only
  split
  · next hlt =>
    cases l with
    | nil =>
      simp only [List.nil_append, List.length_singleton] at hlt
      omega
    | cons y l => exact List.mem_append_right l (List.mem_singleton_self x)
  · exact List.mem_append_right l (List.mem_singleton_self x)

end Rolling

/-! ## The histories by URL -/

section Histories

variable {α : Type}

/-- A result is filed under a URL, if there is one. -/
def filed (histories : String → List α) (result : α) : Option String → String → List α
  | some url =>
    Function.update histories url (rolling FAILURE_RATE_WINDOW (histories url) result)
  | none => histories

theorem filed_some_self (histories : String → List α) (result : α) (url : String) :
    filed histories result (some url) url =
      rolling FAILURE_RATE_WINDOW (histories url) result :=
  Function.update_self ..

theorem filed_of_ne {histories : String → List α} {result : α} {target : Option String}
    {url : String} (hne : target ≠ some url) :
    filed histories result target url = histories url := by
  cases target with
  | none => rfl
  | some other =>
    refine Function.update_of_ne (fun heq => hne ?_) _ _
    rw [heq]

/-- What is filed is one of the old results or the new one. -/
theorem mem_filed {histories : String → List α} {result : α} {target : Option String}
    {url : String} {y : α} (hy : y ∈ filed histories result target url) :
    y ∈ histories url ∨ y = result := by
  by_cases htarget : target = some url
  · rw [htarget, filed_some_self] at hy
    exact mem_of_mem_rolling hy
  · rw [filed_of_ne htarget] at hy
    exact Or.inl hy

theorem map_filed {β : Type} (f : α → β) (histories : String → List α) (result : α)
    (target : Option String) :
    (fun url => (filed histories result target url).map f) =
      filed (fun url => (histories url).map f) (f result) target := by
  funext url
  by_cases htarget : target = some url
  · rw [htarget, filed_some_self, filed_some_self, map_rolling]
  · rw [filed_of_ne htarget, filed_of_ne htarget]

end Histories

/-- What a step does to the histories: it empties one, or it records a result of a request
that was made to a URL. -/
inductive HistoryEffect where
  | quiet
  | cleared (url : String)
  | reported (url : String) (success : Bool)
deriving DecidableEq, Repr

/-- The result of a health check that has ended is recorded if the monitor has asked. -/
def monitored (endpoint : RpcEndpoint) (healthy : Bool) : Purpose → HistoryEffect
  | .monitor => .reported endpoint.url healthy
  | _ => .quiet

/-- The effect of an action. `asked` is the URL that a caller's own request was made to. -/
def historyEffect (s : RpcManager) (asked : String) : Action → HistoryEffect
  | .addEndpoint url label =>
    if (s.toEndpointTable.addEndpoint url label).2 then .cleared url else .quiet
  | .removeEndpoint url =>
    if (s.toEndpointTable.removeEndpoint url).2 then .cleared url else .quiet
  | .recordResult success => .reported asked success
  | .blockhashAnswered task false _ =>
    match s.tasks.get? task with
    | some (.probe endpoint (.blockhash _) purpose) => monitored endpoint false purpose
    | _ => .quiet
  | .slotAnswered task _ _ =>
    match s.tasks.get? task with
    | some (.probe endpoint (.slot _) purpose) => monitored endpoint true purpose
    | _ => .quiet
  | _ => .quiet

/-- The URL that a result is recorded under. -/
def activeUrl (t : EndpointTable) : Option String := t.activeEndpoint.map RpcEndpoint.url

/-- The results that are kept for a URL. -/
def results (t : EndpointTable) (url : String) : List Bool := (t.failureHistory.get? url).getD []

/-- The histories after an effect. -/
def resultsAfter (t : EndpointTable) : HistoryEffect → String → List Bool
  | .quiet => results t
  | .cleared url => Function.update (results t) url []
  | .reported _ success => filed (results t) success (activeUrl t)

/-! ## A step and the histories of the manager -/

section Steps

variable {accepts : String → Bool} {s s' : RpcManager} {t t' : EndpointTable} {es : List Event}

theorem results_congr (heq : t'.failureHistory = t.failureHistory) : results t' = results t := by
  unfold results
  rw [heq]

/-- Writing an empty history. -/
theorem results_set_nil {url : String}
    (heq : t'.failureHistory = t.failureHistory.set url []) :
    results t' = Function.update (results t) url [] := by
  funext url'
  simp only [results, heq, OrderedMap.get?_set, Function.update_apply]
  split
  · rfl
  · rfl

theorem results_delete {url : String} (heq : t'.failureHistory = t.failureHistory.delete url) :
    results t' = Function.update (results t) url [] := by
  funext url'
  simp only [results, heq, OrderedMap.get?_delete, Function.update_apply]
  split
  · rfl
  · rfl

theorem results_addEndpoint (t : EndpointTable) (url label : String) :
    results (t.addEndpoint url label).1 =
      resultsAfter t (if (t.addEndpoint url label).2 then .cleared url else .quiet) := by
  unfold EndpointTable.addEndpoint
  split
  · rfl
  · exact results_set_nil rfl

theorem results_removeEndpoint (t : EndpointTable) (url : String) :
    results (t.removeEndpoint url).1 =
      resultsAfter t (if (t.removeEndpoint url).2 then .cleared url else .quiet) := by
  unfold EndpointTable.removeEndpoint
  split
  · rfl
  · split
    · rfl
    · exact results_delete rfl

theorem activate_failureHistory (accepts : String → Bool) (t : EndpointTable) (idx : ℕ)
    (url : String) :
    (t.activate accepts idx url).1.failureHistory = t.failureHistory := by
  unfold EndpointTable.activate
  dsimp only
  split
  · rfl
  · rfl

theorem switchTo_failureHistory (url : String) :
    (t.switchTo accepts url).1.failureHistory = t.failureHistory := by
  unfold EndpointTable.switchTo
  split
  · rfl
  next idx hidx =>
  split
  · rfl
  · have hkept := activate_failureHistory accepts t idx url
    split
    · next heq => rw [heq] at hkept; exact hkept
    · next heq => rw [heq] at hkept; exact hkept

/-- A result goes to the endpoint that is active, whoever reports it. -/
theorem results_recordResult (t : EndpointTable) (success : Bool) :
    results ((t.recordResult success).getD t) = filed (results t) success (activeUrl t) := by
  unfold EndpointTable.recordResult activeUrl
  cases t.activeEndpoint with
  | none => rfl
  | some ep =>
    funext url
    simp only [Option.map_some, Option.getD_some, results, OrderedMap.get?_set, filed,
      Function.update_apply]
    split
    · rfl
    · rfl

theorem results_tableAfter (endpoint : RpcEndpoint) (healthy : Bool) (purpose : Purpose) :
    results (tableAfter accepts t endpoint healthy purpose) =
      resultsAfter t (monitored endpoint healthy purpose) := by
  cases purpose with
  | caller => rfl
  | recheck id => rfl
  | connection => rfl
  | monitor => exact results_recordResult t healthy
  | failover id i idx =>
    unfold tableAfter
    dsimp only
    split
    · exact results_congr (activate_failureHistory accepts t idx endpoint.url)
    · rfl

/-- The effect depends on the histories and on the active URL only. -/
theorem resultsAfter_congr (hresults : results t' = results t)
    (hactive : activeUrl t' = activeUrl t) (effect : HistoryEffect) :
    resultsAfter t' effect = resultsAfter t effect := by
  cases effect with
  | quiet => exact hresults
  | cleared url => simp only [resultsAfter, hresults]
  | reported url success => simp only [resultsAfter, hresults, hactive]

theorem results_blockhashAnswered {task : ℕ} {answered : Bool} {now : ℚ} {asked : String}
    (hs : ((s.tasks.get? task).bind fun t =>
      (s.blockhashAnswered accepts task answered now t).map fun s' =>
        (s', if answered then [] else checkedBy t false)) = some (s', es)) :
    results s'.toEndpointTable = resultsAfter s.toEndpointTable
      (s.historyEffect asked (.blockhashAnswered task answered now)) := by
  obtain ⟨t, ht, hs⟩ := answer_resumes hs
  unfold blockhashAnswered at hs
  split at hs
  · next endpoint start purpose =>
    cases answered with
    | true =>
      obtain rfl := Option.some.inj hs
      rfl
    | false =>
      obtain rfl := Option.some.inj hs
      rw [finishProbe_table, Option.isSome_none, results_tableAfter]
      simp only [historyEffect, ht]
      exact resultsAfter_congr rfl rfl _
  · cases hs

theorem results_slotAnswered {task : ℕ} {slot : Option ℕ} {now : ℚ} {asked : String}
    (hs : ((s.tasks.get? task).bind fun t =>
      (s.slotAnswered accepts task slot now t).map fun s' => (s', checkedBy t true)) =
        some (s', es)) :
    results s'.toEndpointTable = resultsAfter s.toEndpointTable
      (s.historyEffect asked (.slotAnswered task slot now)) := by
  obtain ⟨t, ht, hs⟩ := answer_resumes hs
  obtain ⟨endpoint, latencyMs, purpose, rfl, htable⟩ := slotAnswered_table hs
  rw [htable, results_tableAfter]
  simp only [historyEffect, ht]
  have hkept : results (s.withSlot endpoint slot) = results s.toEndpointTable ∧
      activeUrl (s.withSlot endpoint slot) = activeUrl s.toEndpointTable := by
    unfold withSlot
    split
    · exact ⟨rfl, rfl⟩
    · exact ⟨rfl, rfl⟩
  exact resultsAfter_congr hkept.1 hkept.2 _

/-- **A step and the histories.** Every step has the effect that is read off the action and
the task that it resumes, and a reported result is filed under the active URL. -/
theorem step_results (asked : String) {a : Action} (hs : s.step accepts a = some (s', es)) :
    results s'.toEndpointTable = resultsAfter s.toEndpointTable (s.historyEffect asked a) := by
  cases a with
  | addEndpoint url label =>
    obtain ⟨rfl, -⟩ := Machine.some_pair hs
    exact results_addEndpoint s.toEndpointTable url label
  | removeEndpoint url =>
    obtain ⟨rfl, -⟩ := Machine.some_pair hs
    exact results_removeEndpoint s.toEndpointTable url
  | switchTo url =>
    obtain ⟨rfl, -⟩ := Machine.some_pair hs
    exact results_congr (switchTo_failureHistory url)
  | recordResult success =>
    have hrecorded := results_recordResult s.toEndpointTable success
    simp only [step] at hs
    split at hs
    · next hnone =>
      obtain ⟨rfl, -⟩ := Machine.some_pair hs
      rw [hnone] at hrecorded
      exact hrecorded
    · next t hsome =>
      obtain ⟨rfl, -⟩ := Machine.some_pair hs
      rw [hsome] at hrecorded
      exact hrecorded
  | checkHealth endpoint now => exact results_congr (congrArg _ (step_table hs trivial))
  | checkAllHealth now => exact results_congr (congrArg _ (step_table hs trivial))
  | measureLatency now => exact results_congr (congrArg _ (step_table hs trivial))
  | failover force now => exact results_congr (congrArg _ (step_table hs trivial))
  | getHealthyConnection now => exact results_congr (congrArg _ (step_table hs trivial))
  | monitorTick now => exact results_congr (congrArg _ (step_table hs trivial))
  | warmupConnections now => exact results_congr (congrArg _ (step_table hs trivial))
  | blockhashAnswered task answered now => exact results_blockhashAnswered hs
  | healthImported task => exact results_congr (congrArg _ (step_table hs trivial))
  | slotAnswered task slot now => exact results_slotAnswered hs
  | failoverEnded task now => exact results_congr (congrArg _ (step_table hs trivial))
  | latencyAnswered task answered now =>
    obtain ⟨t, -, hs⟩ := answer_resumes hs
    rcases latencyAnswered_table hs with htable | ⟨ep, avg, -, htable⟩
    · rw [htable]
      rfl
    · rw [htable]
      rfl
  | warmed task answer now =>
    obtain ⟨t, -, hs⟩ := answer_resumes hs
    obtain ⟨pos, endpoint, start, -, ⟨-, htable⟩ | ⟨slot, latencyMs, -, htable | ⟨n, htable⟩⟩⟩ :=
      warmed_table hs
    · rw [htable]
      rfl
    · rw [htable]
      rfl
    · rw [htable]
      rfl

end Steps

/-! ## The observer -/

/-- A request whose result has been reported. -/
structure Request where
  number : ℕ
  success : Bool
deriving DecidableEq, Repr

end RpcManager

open RpcManager

structure TrackedManager where
  manager : RpcManager
  requests : ℕ := 0
  kept : String → List Request := fun _ => []
  made : String → List Request := fun _ => []

namespace TrackedManager

/-- A result is filed twice: where the manager files it, and under the URL that was asked. -/
def observe (t : TrackedManager) (manager : RpcManager) : HistoryEffect → TrackedManager
  | .quiet => { t with manager }
  | .cleared url =>
    { t with manager, kept := Function.update t.kept url [],
             made := Function.update t.made url [] }
  | .reported url success =>
    let request := { number := t.requests, success }
    { manager
      requests := t.requests + 1
      kept := filed t.kept request (activeUrl t.manager.toEndpointTable)
      made := filed t.made request (some url) }

/-- An action, with the URL that was asked if it reports a caller's own request. -/
def step (accepts : String → Bool) (t : TrackedManager) (a : Action × String) :
    Option (TrackedManager × List Event) :=
  (t.manager.step accepts a.1).map fun r => (t.observe r.1 (t.manager.historyEffect a.2 a.1), r.2)

end TrackedManager

def trackedManager (accepts : String → Bool) (s₀ : RpcManager) :
    Machine TrackedManager (Action × String) Event where
  init := { manager := s₀ }
  step := TrackedManager.step accepts

namespace TrackedManager

/-- The manager's history of every URL consists of the results of `kept`, and these are the
requests that were made to the URL. -/
structure Attributed (t : TrackedManager) (_ : List Event) : Prop where
  history : ∀ url, results t.manager.toEndpointTable url = (t.kept url).map Request.success
  attributed : t.kept = t.made

/-- Whoever reports a result asked the endpoint that is active now. -/
def ReportsActive (t : TrackedManager) (_ : List Event) (a : Action × String) : Prop :=
  ∀ url success, t.manager.historyEffect a.2 a.1 = .reported url success →
    activeUrl t.manager.toEndpointTable = some url

/-- Attributed, and the next request is a new one. -/
structure TrackedInv (t : TrackedManager) (h : List Event) : Prop extends Attributed t h where
  fresh : ∀ url, ∀ request ∈ t.made url, request.number < t.requests

variable {accepts : String → Bool} {t : TrackedManager} {s s' : RpcManager} {h es : List Event}

theorem resultsAfter_reported {url : String} {success : Bool}
    (hkept : ∀ url, results s.toEndpointTable url = (t.kept url).map Request.success) :
    resultsAfter s.toEndpointTable (.reported url success) =
      fun url' => (filed t.kept ⟨t.requests, success⟩ (activeUrl s.toEndpointTable) url').map
        Request.success := by
  rw [map_filed]
  have heq : results s.toEndpointTable = fun url => (t.kept url).map Request.success :=
    funext hkept
  simp only [resultsAfter, heq]

/-- The observer's numbers never come back. -/
theorem TrackedInv.filed_fresh (hI : TrackedInv t h) (success : Bool) (target : Option String)
    (url : String) :
    ∀ request ∈ filed t.made ⟨t.requests, success⟩ target url,
      request.number < t.requests + 1 := by
  intro request hrequest
  rcases mem_filed hrequest with hold | rfl
  · exact Nat.lt_succ_of_lt (hI.fresh url request hold)
  · exact Nat.lt_succ_self _

/-- A request that is filed only by the observer is missing in the manager's history. -/
theorem TrackedInv.misfiled (hI : TrackedInv t h) {target : Option String} {url : String}
    (success : Bool) (hne : target ≠ some url) :
    filed t.kept ⟨t.requests, success⟩ target ≠ filed t.made ⟨t.requests, success⟩ (some url) := by
  intro heq
  have hat := congrFun heq url
  rw [filed_of_ne hne, filed_some_self, hI.attributed] at hat
  have hmem : (⟨t.requests, success⟩ : Request) ∈
      rolling FAILURE_RATE_WINDOW (t.made url) ⟨t.requests, success⟩ :=
    mem_rolling (by decide)
  rw [← hat] at hmem
  exact absurd (hI.fresh url _ hmem) (lt_irrefl _)

theorem TrackedInv.init (hnew : ∀ url, results s.toEndpointTable url = []) :
    TrackedInv { manager := s } [] where
  history := hnew
  attributed := rfl
  fresh _ _ hrequest := absurd hrequest List.not_mem_nil

/-- **A step and the attribution.** A step that reports under the right URL keeps the two
histories together, and any other report parts them. -/
theorem TrackedInv.step_cases (hI : TrackedInv t h) {a : Action × String}
    (hs : t.manager.step accepts a.1 = some (s', es)) :
    (ReportsActive t h a ∧
        TrackedInv (t.observe s' (t.manager.historyEffect a.2 a.1)) (h ++ es)) ∨
      (¬ ReportsActive t h a ∧
        ¬ Attributed (t.observe s' (t.manager.historyEffect a.2 a.1)) (h ++ es)) := by
  have hresults := step_results a.2 hs
  unfold ReportsActive
  cases heffect : t.manager.historyEffect a.2 a.1 with
  | quiet =>
    rw [heffect] at hresults
    refine Or.inl ⟨fun _ _ heq => ?_, ⟨fun url => ?_, hI.attributed⟩, hI.fresh⟩
    · cases heq
    · rw [observe, hresults]
      exact hI.history url
  | cleared url =>
    rw [heffect] at hresults
    refine Or.inl ⟨fun _ _ heq => ?_, ⟨fun url' => ?_, ?_⟩, fun url' request hrequest => ?_⟩
    · cases heq
    · simp only [observe, hresults, resultsAfter, Function.update_apply]
      split
      · rfl
      · exact hI.history url'
    · simp only [observe, hI.attributed]
    · simp only [observe, Function.update_apply] at hrequest
      split at hrequest
      · cases hrequest
      · exact hI.fresh url' request hrequest
  | reported url success =>
    rw [heffect, resultsAfter_reported hI.history] at hresults
    by_cases hactive : activeUrl t.manager.toEndpointTable = some url
    · refine Or.inl ⟨fun url' success' heq => ?_, ⟨fun url' => ?_, ?_⟩, ?_⟩
      · obtain ⟨rfl, -⟩ := HistoryEffect.reported.inj heq
        exact hactive
      · exact congrFun hresults url'
      · simp only [observe, hactive, hI.attributed]
      · exact hI.filed_fresh success (some url)
    · refine Or.inr ⟨fun hall => hactive (hall url success rfl), fun hafter => ?_⟩
      exact hI.misfiled success hactive hafter.attributed

/-- A new manager has empty histories. -/
theorem results_construct {endpoints : List RpcEndpoint}
    (hnew : construct accepts endpoints = some s) (url : String) :
    results s.toEndpointTable url = [] := by
  unfold construct at hnew
  split at hnew
  · cases hnew
  · next ep rest =>
    split at hnew
    · obtain rfl := Option.some.inj hnew
      let Empty := fun m : OrderedMap String (List Bool) => (m.get? url).getD [] = []
      refine List.foldlRecOn (motive := Empty) _ _ rfl fun m hm other _ => ?_
      show ((m.set other.url []).get? url).getD [] = []
      rw [OrderedMap.get?_set]
      split
      · rfl
      · exact hm
    · cases hnew

/-- **Whose results the histories hold.** For every interleaving of calls, switches and
answers, the history of every URL consists of the results of the requests that were made to
it if and only if every result is reported while the endpoint that was asked is active. -/
theorem attributed_iff {accepts : String → Bool} {endpoints : List RpcEndpoint}
    {s₀ : RpcManager} (hnew : construct accepts endpoints = some s₀)
    (as : List (Action × String)) :
    (trackedManager accepts s₀).Always Attributed (trackedManager accepts s₀).init [] as ↔
      (trackedManager accepts s₀).Along ReportsActive (trackedManager accepts s₀).init [] as := by
  refine Machine.always_iff_along_of_step (I := TrackedInv) (fun hI => hI.toAttributed) ?_
    (TrackedInv.init (results_construct hnew)) as
  intro t h a t' es hI hs
  obtain ⟨⟨s', es'⟩, hs', heq⟩ := Option.map_eq_some_iff.mp hs
  obtain ⟨rfl, rfl⟩ := Prod.mk.inj heq
  exact hI.step_cases hs'

/-- The monitor probes `a`, the user switches to `b`, and the probe fails. -/
def switchedDuringProbe : List (Action × String) :=
  [(.monitorTick 0, ""), (.switchTo "https://b", ""), (.blockhashAnswered 0 false 5000, "")]

/-- The equivalence for this run. -/
theorem attributed_iff_switched :
    ∃ s₀, construct (fun _ => true) threeEndpoints = some s₀ ∧
      ((trackedManager (fun _ => true) s₀).Always Attributed
          (trackedManager (fun _ => true) s₀).init [] switchedDuringProbe ↔
        (trackedManager (fun _ => true) s₀).Along ReportsActive
          (trackedManager (fun _ => true) s₀).init [] switchedDuringProbe) := by
  obtain ⟨s₀, hnew⟩ : ∃ s₀, construct (fun _ => true) threeEndpoints = some s₀ := ⟨_, rfl⟩
  exact ⟨s₀, hnew, attributed_iff hnew switchedDuringProbe⟩

/-- The failure of `a` stands in the history of `b`, which was asked nothing. -/
theorem not_attributed :
    ¬ ∀ (accepts : String → Bool) (endpoints : List RpcEndpoint) (s₀ : RpcManager)
      (t : TrackedManager) (h : List Event), construct accepts endpoints = some s₀ →
      (trackedManager accepts s₀).Reachable t h → Attributed t h := by
  intro hall
  obtain ⟨s₀, hnew⟩ : ∃ s₀, construct (fun _ => true) threeEndpoints = some s₀ := ⟨_, rfl⟩
  have hrun : ((trackedManager (fun _ => true) s₀).run switchedDuringProbe).map
      (fun r => (results r.1.manager.toEndpointTable "https://b", r.1.made "https://b")) =
        some ([false], []) := by
    obtain rfl := Option.some.inj hnew
    decide +kernel
  obtain ⟨⟨t, h⟩, hrun, hends⟩ := Option.map_eq_some_iff.mp hrun
  obtain ⟨hresults, hmade⟩ := Prod.mk.inj hends
  have hA := hall _ _ s₀ t h hnew (Machine.reachable_of_run hrun)
  have hhistory := hA.history "https://b"
  rw [hA.attributed, hresults, hmade] at hhistory
  cases hhistory

end TrackedManager

end FlashEdge
