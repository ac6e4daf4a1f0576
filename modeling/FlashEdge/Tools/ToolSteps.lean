import FlashEdge.Tools.TradeTools

/-!
# What the steps of the trade tools keep

A tool's preview is a chain of questions, each of which goes on with the next or
refuses. A property of the process and its events that survives the questions
survives the preview (`execute_keeps`, `checkExposureOf_keeps`,
`checkLimitsOf_keeps`), whatever is asked in whatever order; only the calls of the
client, which the order tools make at once, have to be looked at.

- `step_execute` and the others: what a step that is possible has found and does.
- `Steady`: what a question to the breaker, a refusal or a change of the tasks
  does not destroy.
- `Calm`, `Silent`: what a call of the client does not destroy either, and what a
  recording does not.
- `Keeps`: a result after which the property holds.
-/

namespace FlashEdge

namespace TradeTools

/-! ## Inversion -/

section Inversion

variable {s : ToolsState} {r : Result} {id : ℕ} {context : ToolContext} {now : ℚ}

/-- What happens at a given time happens later than what has happened. -/
theorem atTime_eq_some {next : ToolsState → Option Result} (hs : atTime s now next = some r) :
    s.clock ≤ now ∧ 0 < now ∧ next { s with clock := now } = some r := by
  unfold atTime at hs
  split at hs
  · cases hs
  · next hnow =>
    rw [not_or, not_lt, not_le] at hnow
    exact ⟨hnow.1, hnow.2, hs⟩

theorem step_execute {tool : Tool} {reachable : Bool}
    (hs : step s (.execute context tool reachable now) = some r) :
    s.clock ≤ now ∧ 0 < now ∧
      execute { s with clock := now, nextTask := s.nextTask + 1 } s.nextTask context reachable now
        tool = r := by
  simp only [step] at hs
  obtain ⟨hclock, hpos, hr⟩ := atTime_eq_some hs
  exact ⟨hclock, hpos, Option.some.inj hr⟩

theorem step_positionsFetched {reachable : Bool}
    (hs : step s (.positionsFetched id reachable now) = some r) :
    ∃ o, s.tasks id = some (.exposure o) ∧ s.clock ≤ now ∧ 0 < now ∧
      checkExposureOf { s with clock := now } id o reachable now = r := by
  simp only [step] at hs
  split at hs
  · next o htask =>
    obtain ⟨hclock, hpos, hr⟩ := atTime_eq_some hs
    exact ⟨o, htask, hclock, hpos, Option.some.inj hr⟩
  · cases hs

theorem step_feeRatesFetched {rates : Except ToolRefusal Unit}
    (hs : step s (.feeRatesFetched id rates now) = some r) :
    ∃ o, s.tasks id = some (.feeRates o) ∧ s.clock ≤ now ∧ 0 < now ∧
      checkLimitsOf { s with clock := now } id o rates now = r := by
  simp only [step] at hs
  split at hs
  · next o htask =>
    obtain ⟨hclock, hpos, hr⟩ := atTime_eq_some hs
    exact ⟨o, htask, hclock, hpos, Option.some.inj hr⟩
  · cases hs

theorem step_confirm (hs : step s (.confirm id context) = some r) :
    ∃ action, s.tasks id = some (.preview action) ∧ runAction s id context action = r := by
  simp only [step] at hs
  split at hs
  · next action htask => exact ⟨action, htask, Option.some.inj hs⟩
  · cases hs

theorem step_sign (hs : step s (.sign id now) = some r) :
    (∃ waiting, s.tasks id = some (.calling waiting)) ∧ s.clock ≤ now ∧ 0 < now ∧
      r = ({ s with clock := now }, [.signed id now]) := by
  simp only [step] at hs
  split at hs
  · next waiting htask =>
    obtain ⟨hclock, hpos, hr⟩ := atTime_eq_some hs
    exact ⟨⟨waiting, htask⟩, hclock, hpos, (Option.some.inj hr).symm⟩
  · cases hs

theorem step_answer {answer : Answer} (hs : step s (.answer id answer now) = some r) :
    ∃ waiting, s.tasks id = some (.calling waiting) ∧ s.clock ≤ now ∧ 0 < now ∧
      answered { s with clock := now } id waiting answer now = r := by
  simp only [step] at hs
  split at hs
  · next waiting htask =>
    obtain ⟨hclock, hpos, hr⟩ := atTime_eq_some hs
    exact ⟨waiting, htask, hclock, hpos, Option.some.inj hr⟩
  · cases hs

theorem step_resume (hs : step s (.resume id context) = some r) :
    ∃ o, s.tasks id = some (.triggers o) ∧ placeTriggers s id context o = r := by
  simp only [step] at hs
  split at hs
  · next o htask => exact ⟨o, htask, Option.some.inj hs⟩
  · cases hs

theorem step_landLate {call : ClientCall} {landing : Landing}
    (hs : step s (.landLate id call landing) = some r) :
    land { s with unsettled := s.unsettled.erase (id, call) } id call landing = r := by
  simp only [step] at hs
  split at hs
  · exact Option.some.inj hs
  · cases hs

theorem step_fill {order : OnChainOrder} (hs : step s (.fill order) = some r) :
    order ∈ s.orders ∧
      r = ({ s with
          positions :=
            addPosition order.market order.side order.sizeUsd order.collateral s.positions
          orders := s.orders.erase order },
        [.filled order]) := by
  simp only [step] at hs
  split at hs
  · next hmem => exact ⟨hmem, (Option.some.inj hs).symm⟩
  · cases hs

theorem step_checkBreaker (hs : step s (.checkBreaker now) = some r) :
    s.clock ≤ now ∧ 0 < now ∧
      r = ({ s with clock := now, breaker := (s.breaker.check now).1 },
        [.session (.checked (CircuitBreaker.todayStr now)
          ((s.breaker.check now).2 = .allowed))]) := by
  simp only [step] at hs
  obtain ⟨hclock, hpos, hr⟩ := atTime_eq_some hs
  exact ⟨hclock, hpos, (Option.some.inj hr).symm⟩

end Inversion

/-! ## Questions -/

/-- The property holds after the step, with the events of the step added. -/
def Keeps (I : ToolsState → List ToolsEvent → Prop) (h : List ToolsEvent) (r : Result) : Prop :=
  I r.1 (h ++ r.2)

/-- A property that does not depend on the tasks and survives refusals and
questions to the breaker. -/
structure Steady (I : ToolsState → List ToolsEvent → Prop) : Prop where
  task {s : ToolsState} {h : List ToolsEvent} (tasks : ℕ → Option Task) :
    I s h → I { s with tasks } h
  started {s : ToolsState} {h : List ToolsEvent} (nextTask : ℕ) : I s h → I { s with nextTask } h
  refused {s : ToolsState} {h : List ToolsEvent} (id : ℕ) (reason : ToolRefusal) :
    I s h → I s (h ++ [.refused id reason])
  checked {s : ToolsState} {h : List ToolsEvent} (now : ℚ) (allowed : Bool) :
    I s h → I { s with breaker := (s.breaker.check now).1 }
      (h ++ [.session (.checked (CircuitBreaker.todayStr now) allowed)])

/-- The guard's answer to a question, as an event. -/
def slotEvent (guard : SigningGuard) (now : ℚ) : SigningEvent :=
  match (guard.checkRateLimit now).2 with
  | none => .granted now guard.config
  | some reason => .refused reason

/-- A question to the guard leads from `J` to `I`. -/
def Slots (J I : ToolsState → List ToolsEvent → Prop) (now : ℚ) : Prop :=
  ∀ {s : ToolsState} {h : List ToolsEvent} (id : ℕ), J s h →
    I { s with guard := (s.guard.checkRateLimit now).1 }
      (h ++ [.signing id (slotEvent s.guard now)])

section Questions

variable {I J : ToolsState → List ToolsEvent → Prop} {s : ToolsState} {h : List ToolsEvent}

theorem keeps_andThen {es : List ToolsEvent} {r : Result} (hr : Keeps I (h ++ es) r) :
    Keeps I h (andThen es r) := by
  unfold Keeps andThen at *
  rw [← List.append_assoc]
  exact hr

theorem Steady.keeps_endTask (hI : Steady I) (hs : I s h) (id : ℕ) :
    Keeps I h (endTask s id, []) := by
  unfold Keeps
  rw [List.append_nil]
  exact hI.task _ hs

theorem Steady.keeps_withTask (hI : Steady I) (hs : I s h) (id : ℕ) (task : Task) :
    Keeps I h (withTask s id task, []) := by
  unfold Keeps
  rw [List.append_nil]
  exact hI.task _ hs

theorem Steady.keeps_refuse (hI : Steady I) (hs : I s h) (id : ℕ) (reason : ToolRefusal) :
    Keeps I h (refuse s id reason) :=
  hI.task _ (hI.refused id reason hs)

theorem Steady.keeps_preview (hI : Steady I) (hs : I s h) (id : ℕ)
    (check : Except ToolRefusal Unit) (action : ExecuteAction) :
    Keeps I h (preview s id check action) := by
  cases check with
  | error reason => exact hI.keeps_refuse hs id reason
  | ok _ => exact hI.keeps_withTask hs id _

/-- What every later question keeps, a question to the breaker keeps. -/
theorem askBreaker_keeps (hJ : Steady J) (hI : Steady I) (hJI : ∀ {s h}, J s h → I s h)
    {next : ToolsState → Result} (hnext : ∀ {s h}, J s h → Keeps I h (next s)) (hs : J s h)
    (id : ℕ) (now : ℚ) : Keeps I h (askBreaker s id now next) := by
  unfold askBreaker
  dsimp only
  cases (s.breaker.check now).2 with
  | allowed => exact keeps_andThen (hnext (hJ.checked now true hs))
  | halted reason =>
    exact keeps_andThen (hI.keeps_refuse (hJI (hJ.checked now false hs)) id _)
  | alreadyTripped reason =>
    exact keeps_andThen (hI.keeps_refuse (hJI (hJ.checked now false hs)) id _)

theorem askSlot_keeps (hI : Steady I) {now : ℚ} (hslot : Slots J I now)
    {next : ToolsState → Result} (hnext : ∀ {s h}, I s h → Keeps I h (next s)) (hs : J s h)
    (id : ℕ) : Keeps I h (askSlot s id now next) := by
  have hafter := hslot id hs
  unfold slotEvent at hafter
  unfold askSlot
  dsimp only
  cases hr : (s.guard.checkRateLimit now).2 with
  | none =>
    rw [hr] at hafter
    exact keeps_andThen (hnext hafter)
  | some reason =>
    rw [hr] at hafter
    exact keeps_andThen (hI.keeps_refuse hafter id _)

theorem passGates_keeps (hJ : Steady J) (hI : Steady I) (hJI : ∀ {s h}, J s h → I s h)
    {now : ℚ} (hslot : Slots J I now) {next : ToolsState → Result}
    (hnext : ∀ {s h}, I s h → Keeps I h (next s)) (hs : J s h) (id : ℕ) :
    Keeps I h (passGates s id now next) := by
  unfold passGates
  cases s.gate.checkKillSwitch with
  | error reason => exact hI.keeps_refuse (hJI hs) id _
  | ok _ =>
    exact askBreaker_keeps hJ hI hJI (fun hs => askSlot_keeps hI hslot hnext hs id) hs id now

/-- **The execution of a tool.** Only an order tool that calls the client has to
be looked at. -/
theorem execute_keeps (hJ : Steady J) (hI : Steady I) (hJI : ∀ {s h}, J s h → I s h)
    {now : ℚ} (hs : J s h) (id : ℕ) (context : ToolContext) (reachable : Bool) (tool : Tool)
    (hslot : tool.asksSlot = true → Slots J I now)
    (hcall : ∀ {order call}, tool = .order order →
      directCall context (getOrders s reachable) order = .ok call →
        Keeps I h (callClient s id (.ordering call))) :
    Keeps I h (execute s id context reachable now tool) := by
  cases tool with
  | flashOpenPosition rules market side collateral leverage takeProfit stopLoss =>
    unfold execute
    dsimp only
    cases checkOpen context rules market side collateral leverage takeProfit stopLoss with
    | error reason => exact hI.keeps_refuse (hJI hs) id _
    | ok o =>
      dsimp only
      cases s.gate.checkKillSwitch with
      | error reason => exact hI.keeps_refuse (hJI hs) id _
      | ok _ => exact hI.keeps_withTask (hJI hs) id _
  | flashClosePosition rules market side closePercent closeAmount =>
    unfold execute
    dsimp only
    cases checkClose context rules market closePercent closeAmount with
    | error reason => exact hI.keeps_refuse (hJI hs) id _
    | ok numbers =>
      exact passGates_keeps hJ hI hJI (hslot rfl) (fun hs => hI.keeps_preview hs id _ _) hs id
  | flashAddCollateral rules market side amount =>
    unfold execute
    dsimp only
    cases checkCollateral context rules market amount with
    | error reason => exact hI.keeps_refuse (hJI hs) id _
    | ok amount =>
      exact passGates_keeps hJ hI hJI (hslot rfl) (fun hs => hI.keeps_preview hs id _ _) hs id
  | flashRemoveCollateral rules market side amount =>
    unfold execute
    dsimp only
    cases checkCollateral context rules market amount with
    | error reason => exact hI.keeps_refuse (hJI hs) id _
    | ok amount =>
      exact passGates_keeps hJ hI hJI (hslot rfl) (fun hs => hI.keeps_preview hs id _ _) hs id
  | flashCloseAll =>
    refine passGates_keeps hJ hI hJI (hslot rfl) ?_ hs id
    intro s h hs
    cases getPositions s reachable with
    | error text => exact hI.keeps_refuse hs id _
    | ok positions =>
      cases positions with
      | nil => exact hI.keeps_refuse hs id _
      | cons first rest => exact hI.keeps_preview hs id _ _
  | flashReversePosition market side =>
    unfold execute
    dsimp only
    split
    · exact hI.keeps_refuse (hJI hs) id _
    · split
      · exact hI.keeps_refuse (hJI hs) id _
      · refine passGates_keeps hJ hI hJI (hslot rfl) ?_ hs id
        intro s h hs
        cases getPositions s reachable with
        | error text => exact hI.keeps_refuse hs id _
        | ok positions => exact hI.keeps_preview hs id _ _
  | order order =>
    unfold execute
    dsimp only
    cases hcall' : directCall context (getOrders s reachable) order with
    | error reason => exact hI.keeps_refuse (hJI hs) id _
    | ok call => exact hcall rfl hcall'

theorem checkExposureOf_keeps (hI : Steady I) (hs : I s h) (id : ℕ) (o : OpenOrder)
    (reachable : Bool) (now : ℚ) : Keeps I h (checkExposureOf s id o reachable now) := by
  unfold checkExposureOf
  cases s.gate.checkExposure o.sizeUsd (getPositions s reachable) with
  | error reason => exact hI.keeps_refuse hs id _
  | ok _ =>
    exact askBreaker_keeps hI hI (fun hs => hs) (fun hs => hI.keeps_withTask hs id _) hs id now

theorem checkLimitsOf_keeps (hI : Steady I) (hJI : ∀ {s h}, J s h → I s h) {now : ℚ}
    (hslot : Slots J I now) (hs : J s h) (id : ℕ) (o : OpenOrder)
    (rates : Except ToolRefusal Unit) : Keeps I h (checkLimitsOf s id o rates now) := by
  unfold checkLimitsOf
  cases rates with
  | error reason => exact hI.keeps_refuse (hJI hs) id _
  | ok _ =>
    dsimp only
    cases s.guard.checkTradeLimits o.collateral o.leverage o.sizeUsd with
    | error reason => exact hI.keeps_refuse (hJI hs) id _
    | ok _ => exact askSlot_keeps hI hslot (fun hs => hI.keeps_preview hs id _ _) hs id

end Questions

/-! ## Calls and recordings -/

/-- A property that survives, besides, calls of the client. -/
structure Calm (I : ToolsState → List ToolsEvent → Prop) : Prop extends Steady I where
  called {s : ToolsState} {h : List ToolsEvent} (id : ℕ) (call : ClientCall)
    (tradingEnabled : Bool) (tripped : Option CircuitBreaker.TripReason) :
    I s h → I s (h ++ [.called id call tradingEnabled tripped])

/-- A property that survives, besides, what is recorded at the time `now`, but for
the PnL of a close. -/
structure Silent (I : ToolsState → List ToolsEvent → Prop) (now : ℚ) : Prop extends Calm I where
  completed {s : ToolsState} {h : List ToolsEvent} (id : ℕ) :
    I s h → I { s with guard := s.guard.recordSigning now } (h ++ [.signing id (.completed now)])
  opened {s : ToolsState} {h : List ToolsEvent} :
    I s h → I { s with breaker := s.breaker.recordOpen } h

section Calls

variable {I : ToolsState → List ToolsEvent → Prop} {s : ToolsState} {h : List ToolsEvent} {now : ℚ}

theorem Calm.keeps_callClient (hI : Calm I) (hs : I s h) (id : ℕ) (waiting : Waiting) :
    Keeps I h (callClient s id waiting) :=
  hI.called id _ _ _ (hI.task _ hs)

theorem Calm.keeps_closeNext (hI : Calm I) (hs : I s h) (id : ℕ)
    (rest : List OpenPosition) : Keeps I h (closeNext s id rest) := by
  cases rest with
  | nil => exact hI.keeps_endTask hs id
  | cons pos rest => exact hI.keeps_callClient hs id _

theorem Calm.keeps_placeStopLoss (hI : Calm I) (hs : I s h) (id : ℕ) (o : OpenOrder) :
    Keeps I h (placeStopLoss s id o) := by
  unfold placeStopLoss
  cases o.stopLoss with
  | none => exact hI.keeps_endTask hs id
  | some stopLoss => exact hI.keeps_callClient hs id _

theorem Calm.keeps_placeTriggers (hI : Calm I) (hs : I s h) (id : ℕ)
    (context : ToolContext) (o : OpenOrder) : Keeps I h (placeTriggers s id context o) := by
  unfold placeTriggers
  split
  · cases o.takeProfit with
    | none => exact hI.keeps_placeStopLoss hs id o
    | some takeProfit => exact hI.keeps_callClient hs id _
  · exact hI.keeps_endTask hs id

theorem Calm.keeps_runAction (hI : Calm I) (hs : I s h) (id : ℕ) (context : ToolContext)
    (action : ExecuteAction) : Keeps I h (runAction s id context action) := by
  cases action with
  | openPosition o => exact hI.keeps_callClient hs id _
  | closePosition market side closePercent closeAmount => exact hI.keeps_callClient hs id _
  | addCollateral market side amount => exact hI.keeps_callClient hs id _
  | removeCollateral market side amount => exact hI.keeps_callClient hs id _
  | closeAll first rest => exact hI.keeps_callClient hs id _
  | reversePosition market side => exact hI.keeps_callClient hs id _

theorem Calm.keeps_failed (hI : Calm I) (hs : I s h) (id : ℕ) (waiting : Waiting) :
    Keeps I h (failed s id waiting) := by
  cases waiting with
  | closingAll pos rest => exact hI.keeps_closeNext hs id rest
  | placingTakeProfit o takeProfit => exact hI.keeps_placeStopLoss hs id o
  | _ => exact hI.keeps_endTask hs id

theorem Silent.keeps_signAndEnd (hI : Silent I now) (hs : I s h) (id : ℕ) :
    Keeps I h (signAndEnd s id now) :=
  hI.task _ (hI.completed id hs)

theorem Silent.keeps_succeeded (hI : Silent I now) (hs : I s h) (id : ℕ) (landing : Landing)
    (triggerOrdersIncluded : Bool) {waiting : Waiting}
    (hpnl : waiting.isClosing → Keeps I h (recordPnl s landing.pnl now)) :
    Keeps I h (succeeded s id landing triggerOrdersIncluded now waiting) := by
  cases waiting with
  | opening o useAtomic =>
    have hsigned := hI.completed id (hI.opened hs)
    cases triggerOrdersIncluded with
    | true => exact hI.task _ hsigned
    | false => exact hI.task _ hsigned
  | closing market side closePercent closeAmount =>
    exact keeps_andThen (hI.keeps_signAndEnd (hpnl trivial) id)
  | addingCollateral market side amount => exact hI.keeps_signAndEnd hs id
  | removingCollateral market side amount => exact hI.keeps_signAndEnd hs id
  | closingAll pos rest => exact hI.keeps_closeNext hs id rest
  | reversing market side => exact hI.keeps_signAndEnd hs id
  | placingTakeProfit o takeProfit => exact hI.keeps_placeStopLoss hs id o
  | placingStopLoss o stopLoss => exact hI.keeps_endTask hs id
  | ordering call => exact hI.keeps_endTask hs id

/-- **The answer of the client.** What has to be looked at is the landing, and the
PnL of a single close. -/
theorem Silent.keeps_answered (hI : Silent I now) (id : ℕ) (waiting : Waiting) (answer : Answer)
    (hlost : answer = .failed none →
      I { s with unsettled := s.unsettled ++ [(id, waiting.call)] } h)
    (hland : ∀ landing, answer.landing? = some landing →
      Keeps I h (land s id waiting.call landing))
    (hpnl : ∀ landing included, answer = .ok landing included → waiting.isClosing →
      ∀ {s h}, I s h → Keeps I h (recordPnl s landing.pnl now)) :
    Keeps I h (answered s id waiting answer now) := by
  cases answer with
  | ok landing included =>
    have hlanded := hland landing rfl
    exact keeps_andThen (hI.keeps_succeeded hlanded id landing included
      fun hw => hpnl landing included rfl hw hlanded)
  | failed landing? =>
    cases landing? with
    | none => exact hI.keeps_failed (hlost rfl) id waiting
    | some landing => exact keeps_andThen (hI.keeps_failed (hland landing rfl) id waiting)

end Calls

end TradeTools

end FlashEdge
