import FlashEdge.Client.TradeExecution
import FlashEdge.Theory.Tickets

/-!
# Every admitted execution is recorded once

The breaker asks for the result of every execution it admits, and in `HALF_OPEN`
it waits for one: `halfOpenProbeInFlight` is cleared by a record only. An
admission is a ticket, held by the call that was admitted, and recording its
result redeems it.

The `execute…` operations record in every case. A reversal records a success
only, and a prebuilt transaction records nothing, so their tickets get lost.
`recordedOnce_iff` says that these are the only ways to lose one.
-/

namespace FlashEdge

namespace FlashTrades

/-- How often the result of an execution has been recorded. -/
def recordings (h : List TradeEvent) (exec : ℕ) : ℕ := h.count (.breaker (.recorded exec))

theorem recordings_append (h es : List TradeEvent) (exec : ℕ) :
    recordings (h ++ es) exec = recordings h exec + recordings es exec := List.count_append

/-- The record of one result, followed by events that record none. -/
theorem recordings_recorded {es : List TradeEvent} (exec : ℕ) (hes : recordings es = 0) :
    recordings (.breaker (.recorded exec) :: es) = fun exec' => if exec' = exec then 1 else 0 := by
  funext exec'
  have hzero : es.count (.breaker (.recorded exec')) = 0 := congrFun hes exec'
  rw [recordings, List.count_cons, hzero, zero_add]
  by_cases heq : exec' = exec
  · simp [heq]
  · simp [heq, Ne.symm heq]

/-- The execution a call is outstanding as. -/
def exec? (s : FlashTrades) (call : ℕ) : Option ℕ :=
  (s.calls.get? call).bind fun p => p.stage.exec?

/-- Every admitted execution that is not outstanding has been recorded exactly
once, and none before it ends. When no call is left, the flag is clear and the
breaker admits a probe as soon as its cooldown is over. -/
structure RecordedOnce (s : FlashTrades) (h : List TradeEvent) : Prop where
  outstanding : ∀ call exec, s.exec? call = some exec → recordings h exec = 0
  ended : ∀ exec < s.breaker.executions, (∀ call, s.exec? call ≠ some exec) →
    recordings h exec = 1
  idle : (∀ call, s.calls.get? call = none) →
    s.breaker.cb.halfOpenProbeInFlight = false ∧
      ∀ now, (s.breaker.cb.state = .OPEN → s.breaker.cb.cooledDown now = true) →
        ∃ cb, s.breaker.cb.checkExecution now = .ok cb

/-- The condition on a step: a reversal that was admitted does not fail, and a
prebuilt transaction is not admitted, or still under way. -/
def RecordsItsResult (s : FlashTrades) (_ : List TradeEvent) : Action → Prop
  | .call (.prebuildTransaction (.error _)) now =>
    ∃ error, s.breaker.cb.checkExecution now = .error error
  | .built call (.error _) _ => ∀ lock positionKey exec startMs,
      s.calls.get? call ≠ some ⟨lock, .building (.reversePosition positionKey) exec startMs⟩
  | .sent call (.error _) _ => ∀ lock positionKey exec startMs,
      s.calls.get? call ≠ some ⟨lock, .sending (.reversePosition positionKey) exec startMs⟩
  | .prebuildEnded _ _ => False
  | _ => True

/-! ## What a step does to one call -/

/-- What a step does to the breaker and to the call it is about: nothing that
concerns an execution, an admission, or the record of one's result. -/
inductive Keeps (s s' : FlashTrades) (call : ℕ) (es : List TradeEvent) : Prop where
  | quiet (hbreaker : s'.breaker = s.breaker) (hexec : s'.exec? call = s.exec? call)
      (hes : recordings es = 0)
  | admitted {now : ℚ} {cb : ExecutionCircuitBreaker} (hfree : s.exec? call = none)
      (hok : s.breaker.cb.checkExecution now = .ok cb)
      (hbreaker : s'.breaker = ⟨cb, s.breaker.executions + 1⟩)
      (hexec : s'.exec? call = some s.breaker.executions) (hes : recordings es = 0)
  | recorded {exec : ℕ} (hheld : s.exec? call = some exec)
      (hexecutions : s'.breaker.executions = s.breaker.executions)
      (hflag : (s.breaker.cb.halfOpenProbeInFlight = true → s.breaker.cb.state = .HALF_OPEN) →
        s'.breaker.cb.halfOpenProbeInFlight = false)
      (hexec : s'.exec? call = none)
      (hes : recordings es = fun exec' => if exec' = exec then 1 else 0)

/-- A step that loses an execution: one outstanding, or the one it has admitted. -/
inductive Loses (s s' : FlashTrades) (call : ℕ) (es : List TradeEvent) : Prop where
  | outstanding {exec : ℕ} (hheld : s.exec? call = some exec)
      (hexecutions : s'.breaker.executions = s.breaker.executions)
      (hexec : s'.exec? call = none) (hes : recordings es = 0)
  | admitted (hfree : s.exec? call = none)
      (hexecutions : s'.breaker.executions = s.breaker.executions + 1)
      (hexec : s'.exec? call = none) (hes : recordings es = 0)

/-- A step leaves every call but one as it is. -/
structure Touches (s s' : FlashTrades) (call : ℕ) : Prop where
  others : ∀ call' ≠ call, s'.calls.get? call' = s.calls.get? call'
  nextCall : s'.nextCall = s.nextCall

section Moves

variable (s : FlashTrades) (call : ℕ) (lock : Option String) (stage : TradeStage)

@[simp] theorem exec?_wait : (s.wait call lock stage).exec? call = stage.exec? := by
  simp [exec?]

@[simp] theorem exec?_settle : (s.settle call lock).exec? call = none := by
  simp [exec?, settle, releaseTradeLock]

theorem touches_wait : Touches s (s.wait call lock stage) call where
  others _ hne := OrderedMap.get?_set_of_ne hne
  nextCall := rfl

theorem touches_settle : Touches s (s.settle call lock) call where
  others _ hne := OrderedMap.get?_delete_of_ne hne
  nextCall := rfl

end Moves

/-- What a call is outstanding as is written in its entry. -/
theorem exec?_of_get? {s : FlashTrades} {call : ℕ} {p : PendingCall}
    (hp : s.calls.get? call = some p) : s.exec? call = p.stage.exec? := by
  rw [exec?, hp]
  rfl

variable {s s' : FlashTrades} {call : ℕ} {es : List TradeEvent} {now : ℚ}

/-- Taking the lock concerns no execution. -/
theorem lockAndWait_keeps {market : String} {side : TradeSide} {stage : TradeStage}
    (hfree : s.exec? call = none) (hstage : stage.exec? = none)
    (hs : s.lockAndWait call market side stage = (s', es)) :
    Touches s s' call ∧ Keeps s s' call es := by
  unfold lockAndWait acquireTradeLock at hs
  by_cases hkey : lockKey market side ∈ s.activeTrades
  · rw [if_pos hkey] at hs
    obtain ⟨rfl, rfl⟩ := Prod.mk.inj hs
    exact ⟨touches_settle _ _ _, .quiet rfl (by rw [hfree, exec?_settle]) rfl⟩
  · rw [if_neg hkey] at hs
    obtain ⟨rfl, rfl⟩ := Prod.mk.inj hs
    exact ⟨⟨fun _ hne => OrderedMap.get?_set_of_ne hne, rfl⟩,
      .quiet rfl (by rw [hfree, exec?_wait, hstage]) rfl⟩

/-- A call that has not been admitted ends with an error. -/
theorem throws_keeps {lock : Option String} {error : TradeError} (hfree : s.exec? call = none) :
    Touches s (s.throws call lock error).1 call ∧
      Keeps s (s.throws call lock error).1 call (s.throws call lock error).2 :=
  ⟨touches_settle _ _ _, .quiet rfl (hfree.symm ▸ exec?_settle s call lock) rfl⟩

/-- Recording a result leaves no probe in flight, if the flag was set in
`HALF_OPEN` only. -/
theorem recordSuccess_clears (cb : ExecutionCircuitBreaker) (latencyMs : Option ℚ)
    (hflag : cb.halfOpenProbeInFlight = true → cb.state = .HALF_OPEN) :
    (cb.recordSuccess now latencyMs).halfOpenProbeInFlight = false := by
  rcases cb.recordSuccess_circuit now latencyMs with ⟨-, -, hclear⟩ | ⟨hstate, -, hsame⟩
  · exact hclear
  · rw [hsame]
    exact Bool.eq_false_iff.mpr fun hset => hstate (hflag hset)

theorem recordFailure_clears (cb : ExecutionCircuitBreaker) (errorCode : Option String)
    (latencyMs : Option ℚ)
    (hflag : cb.halfOpenProbeInFlight = true → cb.state = .HALF_OPEN) :
    (cb.recordFailure now errorCode latencyMs).halfOpenProbeInFlight = false := by
  rcases cb.recordFailure_circuit now errorCode latencyMs with
    ⟨-, -, -, hcase⟩ | ⟨hstate, -, -, hsame⟩
  · rw [hcase]
    split
    · rfl
    · next hstate => exact Bool.eq_false_iff.mpr fun hset => hstate (hflag hset)
  · rw [hsame]
    exact Bool.eq_false_iff.mpr fun hset => hstate (hflag hset)

/-- The events of a recorded failure, of which one is the record. -/
theorem recordings_recordFailure (b : BreakerState) (exec : ℕ) (errorCode : Option String)
    (latencyMs : Option ℚ) :
    recordings ((b.call (.recordFailure exec now errorCode latencyMs)).2.map .breaker) =
      fun exec' => if exec' = exec then 1 else 0 := by
  refine recordings_recorded exec ?_
  split
  · rfl
  · rfl

/-! ## The steps -/

theorem referralValidated_keeps {leverageFn : Option (String → ℚ)} {p : PendingCall}
    (hp : s.calls.get? call = some p)
    (hs : s.referralValidated leverageFn call now p = some (s', es)) :
    Touches s s' call ∧ Keeps s s' call es := by
  unfold referralValidated at hs
  split at hs
  · next lock args =>
    have hfree : s.exec? call = none := exec?_of_get? hp
    split at hs
    · obtain ⟨rfl, rfl⟩ := Machine.some_pair hs
      exact throws_keeps hfree
    · exact lockAndWait_keeps hfree rfl (Option.some.inj hs)
  · cases hs

theorem positionsFetched_keeps {positions : List Position} {p : PendingCall}
    (hp : s.calls.get? call = some p)
    (hs : s.positionsFetched call positions now p = some (s', es)) :
    Touches s s' call ∧ Keeps s s' call es := by
  unfold positionsFetched at hs
  split at hs
  · next lock market side op =>
    have hfree : s.exec? call = none := exec?_of_get? hp
    split at hs
    · obtain ⟨rfl, rfl⟩ := Machine.some_pair hs
      exact throws_keeps hfree
    · obtain ⟨rfl, rfl⟩ := Machine.some_pair hs
      exact ⟨touches_wait _ _ _ _, .quiet rfl (by rw [hfree, exec?_wait]; rfl) rfl⟩
  · cases hs

theorem healthChecked_keeps {health : Except TradeError Unit} {p : PendingCall}
    (hp : s.calls.get? call = some p)
    (hs : s.healthChecked call health now p = some (s', es)) :
    Touches s s' call ∧ Keeps s s' call es := by
  unfold healthChecked at hs
  split at hs
  · next lock request startMs =>
    have hfree : s.exec? call = none := exec?_of_get? hp
    split at hs
    · obtain ⟨rfl, rfl⟩ := Machine.some_pair hs
      exact throws_keeps hfree
    · split at hs
      · obtain ⟨rfl, rfl⟩ := Machine.some_pair hs
        exact ⟨touches_settle _ _ _, .quiet rfl (hfree.symm ▸ exec?_settle s call lock) rfl⟩
      · next cb hok =>
        obtain ⟨rfl, rfl⟩ := Machine.some_pair hs
        exact ⟨⟨fun _ hne => OrderedMap.get?_set_of_ne hne, rfl⟩,
          .admitted hfree hok rfl (exec?_wait _ _ _ _) rfl⟩
  · cases hs

/-- The failure of an execution is recorded, unless it is a reversal's. -/
theorem executionFailed_keeps {lock : Option String} {request : BuildRequest} {exec : ℕ}
    {startMs : ℚ} {error : TradeError} (hheld : s.exec? call = some exec)
    (hrequest : ∀ positionKey, request ≠ .reversePosition positionKey)
    (hs : s.executionFailed call lock request exec startMs now error = (s', es)) :
    Touches s s' call ∧ Keeps s s' call es := by
  unfold executionFailed at hs
  split at hs
  · next positionKey => exact absurd rfl (hrequest positionKey)
  · obtain ⟨rfl, rfl⟩ := Prod.mk.inj hs
    refine ⟨⟨fun _ hne => OrderedMap.get?_delete_of_ne hne, rfl⟩,
      .recorded hheld rfl (recordFailure_clears _ _ _) (exec?_settle _ _ _) ?_⟩
    funext exec'
    rw [recordings_append]
    exact congrFun (recordings_recordFailure s.breaker exec _ _) exec'

/-- A reversal that fails after its admission loses its execution. -/
theorem executionFailed_loses {lock : Option String} {positionKey : String} {exec : ℕ}
    {startMs : ℚ} {error : TradeError} (hheld : s.exec? call = some exec)
    (hs : s.executionFailed call lock (.reversePosition positionKey) exec startMs now error =
      (s', es)) : Touches s s' call ∧ Loses s s' call es := by
  obtain ⟨rfl, rfl⟩ := Prod.mk.inj hs
  exact ⟨touches_settle _ _ _, .outstanding hheld rfl (exec?_settle _ _ _) rfl⟩

theorem built_keeps {answer : Except TradeError Unit} {p : PendingCall}
    (hp : s.calls.get? call = some p)
    (hC : ∀ error, answer = .error error → ∀ lock positionKey exec startMs,
      p ≠ ⟨lock, .building (.reversePosition positionKey) exec startMs⟩)
    (hs : s.built call answer now p = some (s', es)) :
    Touches s s' call ∧ Keeps s s' call es := by
  unfold built at hs
  split at hs
  · next lock request exec startMs =>
    have hheld : s.exec? call = some exec := exec?_of_get? hp
    split at hs
    · next error =>
      refine executionFailed_keeps hheld (fun positionKey hr => ?_) (Option.some.inj hs)
      exact hC error rfl lock positionKey exec startMs (hr ▸ rfl)
    · obtain ⟨rfl, rfl⟩ := Machine.some_pair hs
      exact ⟨touches_wait _ _ _ _, .quiet rfl (by rw [hheld, exec?_wait]; rfl) rfl⟩
  · cases hs

theorem sent_keeps {answer : Except TradeError String} {p : PendingCall}
    (hp : s.calls.get? call = some p)
    (hC : ∀ error, answer = .error error → ∀ lock positionKey exec startMs,
      p ≠ ⟨lock, .sending (.reversePosition positionKey) exec startMs⟩)
    (hs : s.sent call answer now p = some (s', es)) :
    Touches s s' call ∧ Keeps s s' call es := by
  unfold sent at hs
  split at hs
  · next lock request exec startMs =>
    have hheld : s.exec? call = some exec := exec?_of_get? hp
    split at hs
    · next error =>
      refine executionFailed_keeps hheld (fun positionKey hr => ?_) (Option.some.inj hs)
      exact hC error rfl lock positionKey exec startMs (hr ▸ rfl)
    · obtain ⟨rfl, rfl⟩ := Machine.some_pair hs
      refine ⟨⟨fun _ hne => OrderedMap.get?_delete_of_ne hne, rfl⟩,
        .recorded hheld rfl (recordSuccess_clears _ _) (exec?_settle _ _ _) ?_⟩
      exact recordings_recorded exec rfl
  · cases hs

/-- The end of a prebuilt transaction loses its execution. -/
theorem prebuildEnded_loses {answer : Except TradeError Unit} {p : PendingCall}
    (hp : s.calls.get? call = some p)
    (hs : s.prebuildEnded call answer p = some (s', es)) :
    Touches s s' call ∧ Loses s s' call es := by
  unfold prebuildEnded at hs
  split at hs
  · next lock exec =>
    have hheld : s.exec? call = some exec := exec?_of_get? hp
    split at hs
    · obtain ⟨rfl, rfl⟩ := Machine.some_pair hs
      exact ⟨touches_settle _ _ _, .outstanding hheld rfl (exec?_settle _ _ _) rfl⟩
    · obtain ⟨rfl, rfl⟩ := Machine.some_pair hs
      exact ⟨touches_settle _ _ _, .outstanding hheld rfl (exec?_settle _ _ _) rfl⟩
  · cases hs

/-- A new call records nothing, and loses an execution only if it prebuilds
instructions that do not pass the validation. -/
theorem start_keeps {c : Call} (hfree : s.exec? call = none)
    (hC : ∀ error, c = .prebuildTransaction (.error error) →
      ∃ error', s.breaker.cb.checkExecution now = .error error')
    (hs : s.start call now c = (s', es)) : Touches s s' call ∧ Keeps s s' call es := by
  unfold start at hs
  split at hs
  · obtain ⟨rfl, rfl⟩ := Prod.mk.inj hs
    exact ⟨touches_wait _ _ _ _, .quiet rfl (by rw [hfree, exec?_wait]; rfl) rfl⟩
  · split at hs
    · exact lockAndWait_keeps hfree rfl hs
    · obtain ⟨rfl, rfl⟩ := Prod.mk.inj hs
      exact ⟨touches_wait _ _ _ _, .quiet rfl (by rw [hfree, exec?_wait]; rfl) rfl⟩
  · exact lockAndWait_keeps hfree rfl hs
  · obtain ⟨rfl, rfl⟩ := Prod.mk.inj hs
    exact ⟨touches_wait _ _ _ _, .quiet rfl (by rw [hfree, exec?_wait]; rfl) rfl⟩
  · next validation =>
    split at hs
    · obtain ⟨rfl, rfl⟩ := Prod.mk.inj hs
      exact ⟨touches_settle _ _ _, .quiet rfl (hfree.symm ▸ exec?_settle s call none) rfl⟩
    · next cb hok =>
      split at hs
      · next error =>
        obtain ⟨error', hrefused⟩ := hC error rfl
        exact absurd (hok.symm.trans hrefused) (by simp)
      · obtain ⟨rfl, rfl⟩ := Prod.mk.inj hs
        exact ⟨⟨fun _ hne => OrderedMap.get?_set_of_ne hne, rfl⟩,
          .admitted hfree hok rfl (exec?_wait _ _ _ _) rfl⟩

theorem start_loses {error : TradeError} {cb : ExecutionCircuitBreaker}
    (hfree : s.exec? call = none) (hok : s.breaker.cb.checkExecution now = .ok cb)
    (hs : s.start call now (.prebuildTransaction (.error error)) = (s', es)) :
    Touches s s' call ∧ Loses s s' call es := by
  simp only [start, hok] at hs
  obtain ⟨rfl, rfl⟩ := Prod.mk.inj hs
  exact ⟨⟨fun _ hne => OrderedMap.get?_delete_of_ne hne, rfl⟩,
    .admitted hfree rfl (exec?_settle _ _ _) rfl⟩

/-! ## The invariant -/

/-- The admissions are tickets in good order, a set flag means a probe that is
outstanding, and the numbers of later calls are not in use. -/
structure RecordInv (s : FlashTrades) (h : List TradeEvent) : Prop where
  tickets : Tickets s.exec? s.breaker.executions (recordings h)
  flag : s.breaker.cb.halfOpenProbeInFlight = true →
    s.breaker.cb.state = .HALF_OPEN ∧ ∃ call exec, s.exec? call = some exec
  unused : ∀ call, s.nextCall ≤ call → s.calls.get? call = none

variable {h : List TradeEvent}

theorem RecordInv.recordedOnce (hI : RecordInv s h) : RecordedOnce s h where
  outstanding := hI.tickets.held
  ended := hI.tickets.returned
  idle hnone := by
    have hclear : s.breaker.cb.halfOpenProbeInFlight = false := by
      refine Bool.eq_false_iff.mpr fun hset => ?_
      obtain ⟨-, call, exec, hheld⟩ := hI.flag hset
      rw [exec?, hnone call] at hheld
      cases hheld
    refine ⟨hclear, fun now hcool => ?_⟩
    cases hr : s.breaker.cb.checkExecution now with
    | ok cb => exact ⟨cb, rfl⟩
    | error error =>
      rcases ExecutionCircuitBreaker.checkExecution_error hr with ⟨hopen, hnot⟩ | ⟨-, hset⟩
      · exact absurd (hcool hopen) (by simp [hnot])
      · exact absurd hset (by simp [hclear])

/-- Only the call a step is about changes its execution. -/
theorem Touches.exec?_eq (ht : Touches s s' call) :
    s'.exec? = Function.update s.exec? call (s'.exec? call) := by
  funext call'
  by_cases hne : call' = call
  · rw [hne, Function.update_self]
  · rw [Function.update_of_ne hne, exec?, exec?, ht.others call' hne]

theorem Keeps.recordInv (hk : Keeps s s' call es) (ht : Touches s s' call)
    (hT : Tickets s.exec? s.breaker.executions (recordings h))
    (hflag : s.breaker.cb.halfOpenProbeInFlight = true →
      s.breaker.cb.state = .HALF_OPEN ∧ ∃ call exec, s.exec? call = some exec) :
    Tickets s'.exec? s'.breaker.executions (recordings (h ++ es)) ∧
      (s'.breaker.cb.halfOpenProbeInFlight = true →
        s'.breaker.cb.state = .HALF_OPEN ∧ ∃ call exec, s'.exec? call = some exec) := by
  have hcount : recordings (h ++ es) = recordings h + recordings es :=
    funext fun exec => recordings_append h es exec
  have hupdate := ht.exec?_eq
  cases hk with
  | quiet hbreaker hexec hes =>
    rw [hexec, Function.update_eq_self] at hupdate
    rw [hcount, hes, add_zero, hupdate, hbreaker]
    exact ⟨hT, hflag⟩
  | @admitted now cb hfree hok hbreaker hexec hes =>
    rw [hcount, hes, add_zero, hbreaker]
    refine ⟨?_, fun hset => ⟨?_, call, _, hexec⟩⟩
    · rw [hupdate, hexec]
      exact hT.issue hfree
    · rcases ExecutionCircuitBreaker.checkExecution_ok hok with
        ⟨-, rfl⟩ | ⟨-, -, rfl⟩ | ⟨hstate, -, rfl⟩
      · exact (hflag hset).1
      · rfl
      · exact hstate
  | recorded hheld hexecutions hclears hexec hes =>
    rw [hcount, hes, hexecutions]
    refine ⟨?_, fun hset => ?_⟩
    · rw [hupdate, hexec]
      exact hT.redeem hheld
    · rw [hclears fun hset => (hflag hset).1] at hset
      cases hset

theorem Loses.not_recordedOnce (hl : Loses s s' call es) (ht : Touches s s' call)
    (hT : Tickets s.exec? s.breaker.executions (recordings h)) :
    ¬ RecordedOnce s' (h ++ es) := by
  intro hP
  have hupdate := ht.exec?_eq
  cases hl with
  | @outstanding exec hheld hexecutions hexec hes =>
    obtain ⟨hlt, hfree, hzero⟩ := hT.dropped hheld
    rw [hexec] at hupdate
    have hone := hP.ended exec (hexecutions ▸ hlt) fun call' => hupdate ▸ hfree call'
    rw [recordings_append, hes, hzero] at hone
    cases hone
  | admitted hfree hexecutions hexec hes =>
    rw [hexec, ← hfree, Function.update_eq_self] at hupdate
    have hone := hP.ended s.breaker.executions (hexecutions ▸ Nat.lt_succ_self _) fun call' he =>
      absurd (hT.held_lt call' _ (hupdate ▸ he)) (lt_irrefl _)
    rw [recordings_append, hes, hT.unissued _ le_rfl] at hone
    cases hone

/-! ## Steps and runs -/

/-- The call a step is about: the new one, or one that waits. -/
def Action.about (s : FlashTrades) : Action → ℕ
  | .call _ _ => s.nextCall
  | .referralValidated call _ => call
  | .positionsFetched call _ _ => call
  | .healthChecked call _ _ => call
  | .built call _ _ => call
  | .sent call _ _ => call
  | .prebuildEnded call _ => call

/-- A step makes no number in use that was not, but its own. -/
theorem RecordInv.unused_step (hI : RecordInv s h) {s₁ : FlashTrades}
    (ht : Touches s₁ s' call) (hcalls : s₁.calls = s.calls)
    (hnext : s.nextCall ≤ s₁.nextCall) (hcall : call < s₁.nextCall) :
    ∀ call', s'.nextCall ≤ call' → s'.calls.get? call' = none := by
  intro call' hle
  rw [ht.nextCall] at hle
  rw [ht.others call' (lt_of_lt_of_le hcall hle).ne', hcalls]
  exact hI.unused call' (hnext.trans hle)

/-- A call that waits has a number that has been used. -/
theorem RecordInv.lt_nextCall (hI : RecordInv s h) {p : PendingCall}
    (hp : s.calls.get? call = some p) : call < s.nextCall := by
  by_contra hle
  rw [hI.unused call (not_lt.mp hle)] at hp
  cases hp

/-- A step that resumes a call. -/
theorem RecordInv.resumed (hI : RecordInv s h) {p : PendingCall}
    (hp : s.calls.get? call = some p) (ht : Touches s s' call) (hk : Keeps s s' call es) :
    RecordInv s' (h ++ es) := by
  obtain ⟨tickets, flag⟩ := hk.recordInv ht hI.tickets hI.flag
  exact ⟨tickets, flag, hI.unused_step ht rfl le_rfl (hI.lt_nextCall hp)⟩

variable {leverageFn : Option (String → ℚ)}

theorem recordInv_step {a : Action} (hI : RecordInv s h) (hC : RecordsItsResult s h a)
    (hs : s.step leverageFn a = some (s', es)) : RecordInv s' (h ++ es) := by
  cases a with
  | call c now =>
    let s₁ : FlashTrades := { s with nextCall := s.nextCall + 1 }
    have hfree : s₁.exec? s.nextCall = none := by
      show (s.calls.get? s.nextCall).bind _ = none
      rw [hI.unused _ le_rfl]
      rfl
    obtain ⟨ht, hk⟩ := start_keeps (s := s₁) hfree (fun error hc => by
      subst hc
      exact hC) (Option.some.inj hs)
    obtain ⟨tickets, flag⟩ := hk.recordInv ht hI.tickets hI.flag
    exact ⟨tickets, flag, hI.unused_step ht rfl (Nat.le_succ _) (Nat.lt_succ_self _)⟩
  | referralValidated call now =>
    obtain ⟨p, hp, hs⟩ := Option.bind_eq_some_iff.mp hs
    obtain ⟨ht, hk⟩ := referralValidated_keeps hp hs
    exact hI.resumed hp ht hk
  | positionsFetched call positions now =>
    obtain ⟨p, hp, hs⟩ := Option.bind_eq_some_iff.mp hs
    obtain ⟨ht, hk⟩ := positionsFetched_keeps hp hs
    exact hI.resumed hp ht hk
  | healthChecked call health now =>
    obtain ⟨p, hp, hs⟩ := Option.bind_eq_some_iff.mp hs
    obtain ⟨ht, hk⟩ := healthChecked_keeps hp hs
    exact hI.resumed hp ht hk
  | built call answer now =>
    obtain ⟨p, hp, hs⟩ := Option.bind_eq_some_iff.mp hs
    obtain ⟨ht, hk⟩ := built_keeps hp (fun error ha lock positionKey exec startMs hpe => by
      subst ha hpe
      exact hC lock positionKey exec startMs hp) hs
    exact hI.resumed hp ht hk
  | sent call answer now =>
    obtain ⟨p, hp, hs⟩ := Option.bind_eq_some_iff.mp hs
    obtain ⟨ht, hk⟩ := sent_keeps hp (fun error ha lock positionKey exec startMs hpe => by
      subst ha hpe
      exact hC lock positionKey exec startMs hp) hs
    exact hI.resumed hp ht hk
  | prebuildEnded call answer => exact absurd hC id

theorem not_recordedOnce_step {a : Action} (hI : RecordInv s h) (hC : ¬ RecordsItsResult s h a)
    (hs : s.step leverageFn a = some (s', es)) : ¬ RecordedOnce s' (h ++ es) := by
  unfold RecordsItsResult at hC
  split at hC
  · next error now =>
    let s₁ : FlashTrades := { s with nextCall := s.nextCall + 1 }
    have hfree : s₁.exec? s.nextCall = none := by
      show (s.calls.get? s.nextCall).bind _ = none
      rw [hI.unused _ le_rfl]
      rfl
    cases hr : s.breaker.cb.checkExecution now with
    | error error' => exact absurd ⟨error', hr⟩ hC
    | ok cb =>
      obtain ⟨ht, hl⟩ := start_loses (s := s₁) hfree hr (Option.some.inj hs)
      exact hl.not_recordedOnce ht hI.tickets
  · next call error now =>
    push Not at hC
    obtain ⟨lock, positionKey, exec, startMs, hp⟩ := hC
    simp only [step, hp, Option.bind_some, built] at hs
    obtain ⟨ht, hl⟩ := executionFailed_loses (exec?_of_get? hp) (Option.some.inj hs)
    exact hl.not_recordedOnce ht hI.tickets
  · next call error now =>
    push Not at hC
    obtain ⟨lock, positionKey, exec, startMs, hp⟩ := hC
    simp only [step, hp, Option.bind_some, sent] at hs
    obtain ⟨ht, hl⟩ := executionFailed_loses (exec?_of_get? hp) (Option.some.inj hs)
    exact hl.not_recordedOnce ht hI.tickets
  · next call answer =>
    obtain ⟨p, hp, hs⟩ := Option.bind_eq_some_iff.mp hs
    obtain ⟨ht, hl⟩ := prebuildEnded_loses hp hs
    exact hl.not_recordedOnce ht hI.tickets
  · exact absurd trivial hC

theorem recordInv_init : RecordInv {} [] where
  tickets := Tickets.empty
  flag hset := by cases hset
  unused _ _ := rfl

/-- **When every admission is recorded once.** In every state of a run, with any
interleaving of operations and any outcomes, each admitted execution that has
ended was recorded exactly once, and an idle client's breaker can admit a probe,
if and only if no reversal fails after its admission and no prebuilt transaction
ends, or is refused by the validation, after its own. -/
theorem recordedOnce_iff (leverageFn : Option (String → ℚ)) (actions : List Action) :
    (flashTrades leverageFn).Always RecordedOnce (flashTrades leverageFn).init [] actions ↔
      (flashTrades leverageFn).Along RecordsItsResult (flashTrades leverageFn).init [] actions :=
  Machine.always_iff_along (M := flashTrades leverageFn) (I := RecordInv)
    (fun hI => hI.recordedOnce) (fun hI hC hs => recordInv_step hI hC hs)
    (fun hI hC hs => not_recordedOnce_step hI hC hs) recordInv_init actions

/-- A cancelled trigger that the builder rejects, from the call to the failure. -/
def rejectedCancel (call : ℕ) : List Action :=
  [.call (.cancelTriggerOrder "SOL" .Long 0 false) 0, .healthChecked call (.ok ()) 0,
    .built call (.error (.execution "API_ERROR" "rejected")) 0]

/-- A reversal that the builder does not answer, thirty seconds later. -/
def failedReversal (call : ℕ) (market : String) (positions : List Position) : List Action :=
  [.call (.onPosition market .Long .reversePosition) 30000,
    .positionsFetched call positions 30000, .healthChecked call (.ok ()) 30000,
    .built call (.error (.execution "API_UNREACHABLE" "Flash API unavailable.")) 30000]

/-- Five failures open the circuit. After the cooldown two reversals fail, and the
flag that the second one set stays set. -/
theorem not_recordedOnce :
    ¬ ∀ (leverageFn : Option (String → ℚ)) (s : FlashTrades) (h : List TradeEvent),
      (flashTrades leverageFn).Reachable s h → RecordedOnce s h := by
  intro hall
  let positions : List Position :=
    [{ pubkey := "key", market := some "SOL", side := .Long, sizeUsd := 100 }]
  let actions : List Action :=
    rejectedCancel 0 ++ rejectedCancel 1 ++ rejectedCancel 2 ++ rejectedCancel 3 ++
      rejectedCancel 4 ++ failedReversal 5 "SOL" positions ++ failedReversal 6 "SOL" positions
  have hrun : ((flashTrades none).run actions).map
      (fun r => (r.1.calls.entries, r.1.breaker.cb.halfOpenProbeInFlight)) = some ([], true) := by
    decide +kernel
  obtain ⟨⟨s, h⟩, hs, hh⟩ := Option.map_eq_some_iff.mp hrun
  obtain ⟨hentries, hset⟩ := Prod.mk.inj hh
  have hnone : ∀ call, s.calls.get? call = none := by
    intro call
    rw [OrderedMap.get?, hentries]
    rfl
  have hclear := ((hall none s h (Machine.reachable_of_run hs)).idle hnone).1
  exact absurd (hset.symm.trans hclear) (by decide)

end FlashTrades

end FlashEdge
