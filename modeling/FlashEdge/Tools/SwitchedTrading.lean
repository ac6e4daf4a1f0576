import FlashEdge.Tools.ToolSteps

/-!
# Trading only while the switches are on

"If false, all trade execution is blocked", "trading halts": no call of the
client is meant to be made while the kill switch is off or the breaker is
tripped. The tools ask both when they make a preview, never again. A preview
that is confirmed later, the second and later closes of a close-all, the TP and SL
that follow an open, and the order tools, which ask nothing at all, call the
client whatever the switches say by then.

- `SwitchedOn`: the kill switch is on and the breaker is not tripped.
- `WhileOn`: the condition on a step; of the executions it says something about
  the order tools only, since no other tool calls the client before it is
  confirmed (`execute_keeps`).
- `tradedOn_iff`: the runs on which every call is made while both are on.
-/

namespace FlashEdge

namespace TradeTools

/-- The kill switch is on and the breaker is not tripped. -/
def SwitchedOn (s : ToolsState) : Prop :=
  s.gate.tradingEnabled = true ∧ s.breaker.tripped = none

instance (s : ToolsState) : Decidable (SwitchedOn s) := by
  unfold SwitchedOn
  infer_instance

/-- A call that is made while both are on. -/
def CalledOn : ToolsEvent → Prop
  | .called _ _ tradingEnabled tripped => tradingEnabled = true ∧ tripped = none
  | _ => True

/-- Every call so far was made while both were on. -/
def TradedOn (_ : ToolsState) (h : List ToolsEvent) : Prop := ∀ e ∈ h, CalledOn e

/-- Whether the tool calls the client again when the call it waits for ends. -/
def Waiting.callsAgain : Waiting → Prop
  | .closingAll _ rest => rest ≠ []
  | .placingTakeProfit o _ => o.stopLoss ≠ none
  | _ => False

/-- The condition on a step. Both are on when an order tool reaches the client,
when a preview is confirmed, when a call ends after which the tool makes another,
and when the TP or the SL of an open is placed. -/
def WhileOn (s : ToolsState) (_ : List ToolsEvent) : ToolsAction → Prop
  | .execute context (.order tool) reachable _ =>
    ∀ call, directCall context (getOrders s reachable) tool = .ok call → SwitchedOn s
  | .confirm _ _ => SwitchedOn s
  | .answer id _ _ =>
    ∀ waiting, s.tasks id = some (.calling waiting) → waiting.callsAgain → SwitchedOn s
  | .resume id context =>
    ∀ o, s.tasks id = some (.triggers o) → context.client.placeTriggerOrder →
      context.simulationMode = false → o.takeProfit ≠ none ∨ o.stopLoss ≠ none → SwitchedOn s
  | _ => True

/-! ## Calls -/

theorem tradedOn_append {s s' : ToolsState} {h es : List ToolsEvent} :
    TradedOn s' (h ++ es) ↔ TradedOn s h ∧ ∀ e ∈ es, CalledOn e :=
  List.forall_mem_append

/-- After a call every call was made while both were on if and only if that held
before and both are on now. -/
theorem keeps_callClient_iff {s : ToolsState} {h : List ToolsEvent} {id : ℕ}
    {waiting : Waiting} :
    Keeps TradedOn h (callClient s id waiting) ↔ TradedOn s h ∧ SwitchedOn s := by
  unfold Keeps callClient
  rw [tradedOn_append (s := s), List.forall_mem_singleton]
  exact Iff.rfl

theorem steady_tradedOn : Steady TradedOn where
  task _ hs := hs
  started _ hs := hs
  refused _ _ hs := tradedOn_append.mpr ⟨hs, List.forall_mem_singleton.mpr trivial⟩
  checked _ _ hs := tradedOn_append.mpr ⟨hs, List.forall_mem_singleton.mpr trivial⟩

theorem slots_tradedOn (now : ℚ) : Slots TradedOn TradedOn now := by
  intro s h id hs
  exact tradedOn_append.mpr ⟨hs, List.forall_mem_singleton.mpr trivial⟩

theorem keeps_tradedOn_end {s : ToolsState} {h : List ToolsEvent} {id : ℕ} :
    Keeps TradedOn h (endTask s id, []) ↔ TradedOn s h := by
  unfold Keeps
  rw [List.append_nil]
  exact Iff.rfl

/-! ## One step -/

section Step

variable {s : ToolsState} {h : List ToolsEvent}

theorem keeps_closeNext_iff {id : ℕ} {rest : List OpenPosition} :
    Keeps TradedOn h (closeNext s id rest) ↔ TradedOn s h ∧ (rest ≠ [] → SwitchedOn s) := by
  cases rest with
  | nil =>
    rw [closeNext, keeps_tradedOn_end]
    exact ⟨fun hs => ⟨hs, fun hne => absurd rfl hne⟩, fun hs => hs.1⟩
  | cons pos rest =>
    rw [closeNext, keeps_callClient_iff]
    exact ⟨fun hs => ⟨hs.1, fun _ => hs.2⟩, fun hs => ⟨hs.1, hs.2 (List.cons_ne_nil _ _)⟩⟩

theorem keeps_placeStopLoss_iff {id : ℕ} {o : OpenOrder} :
    Keeps TradedOn h (placeStopLoss s id o) ↔
      TradedOn s h ∧ (o.stopLoss ≠ none → SwitchedOn s) := by
  unfold placeStopLoss
  cases o.stopLoss with
  | none =>
    rw [keeps_tradedOn_end]
    exact ⟨fun hs => ⟨hs, fun hne => absurd rfl hne⟩, fun hs => hs.1⟩
  | some stopLoss =>
    rw [keeps_callClient_iff]
    exact ⟨fun hs => ⟨hs.1, fun _ => hs.2⟩, fun hs => ⟨hs.1, hs.2 (Option.some_ne_none _)⟩⟩

theorem keeps_placeTriggers_iff {id : ℕ} {context : ToolContext} {o : OpenOrder} :
    Keeps TradedOn h (placeTriggers s id context o) ↔
      TradedOn s h ∧ (context.client.placeTriggerOrder → context.simulationMode = false →
        o.takeProfit ≠ none ∨ o.stopLoss ≠ none → SwitchedOn s) := by
  unfold placeTriggers
  by_cases hplaces : context.client.placeTriggerOrder ∧ ¬ context.simulationMode
  · rw [if_pos hplaces]
    have hlive : context.simulationMode = false := Bool.eq_false_iff.mpr hplaces.2
    cases htake : o.takeProfit with
    | none =>
      dsimp only
      rw [keeps_placeStopLoss_iff]
      constructor
      · rintro ⟨hs, hon⟩
        refine ⟨hs, fun _ _ hone => ?_⟩
        rcases hone with hone | hone
        · exact absurd rfl hone
        · exact hon hone
      · rintro ⟨hs, hon⟩
        exact ⟨hs, fun hstop => hon hplaces.1 hlive (.inr hstop)⟩
    | some takeProfit =>
      dsimp only
      rw [keeps_callClient_iff]
      exact ⟨fun hs => ⟨hs.1, fun _ _ _ => hs.2⟩,
        fun hs => ⟨hs.1, hs.2 hplaces.1 hlive (.inl (Option.some_ne_none _))⟩⟩
  · rw [if_neg hplaces, keeps_tradedOn_end]
    refine ⟨fun hs => ⟨hs, fun hplace hlive _ => ?_⟩, fun hs => hs.1⟩
    exact absurd ⟨hplace, Bool.eq_false_iff.mp hlive⟩ hplaces

/-- The first call of a confirmed action, whichever it is. -/
theorem keeps_runAction_iff {id : ℕ} {context : ToolContext} {action : ExecuteAction} :
    Keeps TradedOn h (runAction s id context action) ↔ TradedOn s h ∧ SwitchedOn s := by
  cases action with
  | openPosition o => exact keeps_callClient_iff
  | closePosition market side closePercent closeAmount => exact keeps_callClient_iff
  | addCollateral market side amount => exact keeps_callClient_iff
  | removeCollateral market side amount => exact keeps_callClient_iff
  | closeAll first rest => exact keeps_callClient_iff
  | reversePosition market side => exact keeps_callClient_iff

/-- A tool that ends does not call again. -/
theorem keeps_tradedOn_end_iff {id : ℕ} :
    Keeps TradedOn h (endTask s id, []) ↔ TradedOn s h ∧ (False → SwitchedOn s) :=
  keeps_tradedOn_end.trans ⟨fun hs => ⟨hs, False.elim⟩, fun hs => hs.1⟩

theorem keeps_failed_iff {id : ℕ} {waiting : Waiting} :
    Keeps TradedOn h (failed s id waiting) ↔
      TradedOn s h ∧ (waiting.callsAgain → SwitchedOn s) := by
  cases waiting with
  | closingAll pos rest => exact keeps_closeNext_iff
  | placingTakeProfit o takeProfit => exact keeps_placeStopLoss_iff
  | _ => exact keeps_tradedOn_end_iff

/-- Recording is not a call. -/
theorem forall_recordPnl (s : ToolsState) (pnl : JsNumber) (now : ℚ) :
    ∀ e ∈ (recordPnl s pnl now).2, CalledOn e := by
  cases pnl with
  | finite q => exact List.forall_mem_singleton.mpr trivial
  | posInfinity => exact List.forall_mem_nil _
  | negInfinity => exact List.forall_mem_nil _
  | nan => exact List.forall_mem_nil _

theorem keeps_signAndEnd_iff {id : ℕ} {now : ℚ} :
    Keeps TradedOn h (signAndEnd s id now) ↔ TradedOn s h ∧ (False → SwitchedOn s) :=
  tradedOn_append.trans ⟨fun hs => ⟨hs.1, False.elim⟩,
    fun hs => ⟨hs.1, List.forall_mem_singleton.mpr trivial⟩⟩

theorem keeps_succeeded_iff {id : ℕ} {landing : Landing} {triggerOrdersIncluded : Bool} {now : ℚ}
    {waiting : Waiting} :
    Keeps TradedOn h (succeeded s id landing triggerOrdersIncluded now waiting) ↔
      TradedOn s h ∧ (waiting.callsAgain → SwitchedOn s) := by
  cases waiting with
  | opening o useAtomic =>
    have hres : (succeeded s id landing triggerOrdersIncluded now (.opening o useAtomic)).2 =
        [.signing id (.completed now)] := by
      cases triggerOrdersIncluded <;> rfl
    unfold Keeps
    rw [hres, tradedOn_append (s := s)]
    refine ⟨fun hs => ⟨hs.1, False.elim⟩, fun hs => ⟨hs.1, ?_⟩⟩
    exact List.forall_mem_singleton.mpr trivial
  | closing market side closePercent closeAmount =>
    refine tradedOn_append.trans ⟨fun hs => ⟨hs.1, False.elim⟩, fun hs => ⟨hs.1, ?_⟩⟩
    exact List.forall_mem_append.mpr
      ⟨forall_recordPnl s landing.pnl now, List.forall_mem_singleton.mpr trivial⟩
  | addingCollateral market side amount => exact keeps_signAndEnd_iff
  | removingCollateral market side amount => exact keeps_signAndEnd_iff
  | closingAll pos rest => exact keeps_closeNext_iff
  | reversing market side => exact keeps_signAndEnd_iff
  | placingTakeProfit o takeProfit => exact keeps_placeStopLoss_iff
  | placingStopLoss o stopLoss => exact keeps_tradedOn_end_iff
  | ordering call => exact keeps_tradedOn_end_iff

/-- Landing is not a call, and the switches are as they were. -/
theorem tradedOn_landed {id : ℕ} {call : ClientCall} {landing : Landing} :
    TradedOn s (h ++ [ToolsEvent.landed id call landing]) ↔ TradedOn s h :=
  tradedOn_append.trans ⟨fun hs => hs.1, fun hs => ⟨hs, List.forall_mem_singleton.mpr trivial⟩⟩

theorem keeps_answered_iff {id : ℕ} {waiting : Waiting} {answer : Answer} {now : ℚ} :
    Keeps TradedOn h (answered s id waiting answer now) ↔
      TradedOn s h ∧ (waiting.callsAgain → SwitchedOn s) := by
  unfold answered
  cases answer with
  | ok landing triggerOrdersIncluded =>
    dsimp only [andThen]
    unfold Keeps
    rw [← List.append_assoc]
    refine keeps_succeeded_iff.trans ?_
    exact and_congr_left' tradedOn_landed
  | failed landing =>
    cases landing with
    | none => exact keeps_failed_iff
    | some landing =>
      dsimp only [andThen]
      unfold Keeps
      rw [← List.append_assoc]
      refine keeps_failed_iff.trans ?_
      exact and_congr_left' tradedOn_landed

/-- **A step keeps the calls under the switches exactly when it meets the
condition.** -/
theorem tradedOn_step_iff {s' : ToolsState} {es : List ToolsEvent} {a : ToolsAction}
    (hs : TradedOn s h) (hstep : step s a = some (s', es)) :
    TradedOn s' (h ++ es) ↔ WhileOn s h a := by
  cases a with
  | execute context tool reachable now =>
    obtain ⟨-, -, hr⟩ := step_execute hstep
    by_cases horder : ∃ order, tool = .order order
    · obtain ⟨order, rfl⟩ := horder
      simp only [execute, getOrders] at hr
      simp only [WhileOn, getOrders]
      cases hcall : directCall context
        (if reachable then Except.ok s.orders else .error "getUserOrders failed") order with
      | error reason =>
        rw [hcall] at hr
        obtain ⟨rfl, rfl⟩ := Prod.mk.inj hr
        refine ⟨fun _ call hok => (by cases hok), fun _ => ?_⟩
        exact tradedOn_append.mpr ⟨hs, List.forall_mem_singleton.mpr trivial⟩
      | ok call =>
        rw [hcall] at hr
        have hcalled : callClient { s with clock := now, nextTask := s.nextTask + 1 } s.nextTask
            (.ordering call) = (s', es) := hr
        have hiff : Keeps TradedOn h (callClient { s with clock := now, nextTask := s.nextTask + 1 }
            s.nextTask (.ordering call)) ↔ _ := keeps_callClient_iff
        unfold Keeps at hiff
        rw [hcalled] at hiff
        refine hiff.trans ⟨fun hon call' hok => ?_, fun hon => ⟨hs, hon call rfl⟩⟩
        exact hon.2
    · -- a tool with a preview calls nobody
      have hkeeps := execute_keeps steady_tradedOn steady_tradedOn (fun hs => hs)
        (s := { s with clock := now, nextTask := s.nextTask + 1 }) (h := h) hs s.nextTask context
        reachable tool (fun _ => slots_tradedOn now)
        (fun heq => absurd ⟨_, heq⟩ horder)
      unfold Keeps at hkeeps
      rw [hr] at hkeeps
      refine ⟨fun _ => ?_, fun _ => hkeeps⟩
      cases tool with
      | order order => exact absurd ⟨order, rfl⟩ horder
      | _ => exact trivial
  | positionsFetched id reachable now =>
    obtain ⟨o, -, -, -, hr⟩ := step_positionsFetched hstep
    have hkeeps := checkExposureOf_keeps steady_tradedOn (s := { s with clock := now }) hs id o
      reachable now
    unfold Keeps at hkeeps
    rw [hr] at hkeeps
    exact ⟨fun _ => trivial, fun _ => hkeeps⟩
  | feeRatesFetched id rates now =>
    obtain ⟨o, -, -, -, hr⟩ := step_feeRatesFetched hstep
    have hkeeps := checkLimitsOf_keeps steady_tradedOn (fun hs => hs) (slots_tradedOn now)
      (s := { s with clock := now }) hs id o rates
    unfold Keeps at hkeeps
    rw [hr] at hkeeps
    exact ⟨fun _ => trivial, fun _ => hkeeps⟩
  | confirm id context =>
    obtain ⟨action, -, hr⟩ := step_confirm hstep
    have hiff : Keeps TradedOn h (runAction s id context action) ↔ _ := keeps_runAction_iff
    unfold Keeps at hiff
    rw [hr] at hiff
    exact hiff.trans ⟨fun hon => hon.2, fun hon => ⟨hs, hon⟩⟩
  | sign id now =>
    obtain ⟨-, -, -, hr⟩ := step_sign hstep
    obtain ⟨rfl, rfl⟩ := Prod.mk.inj hr
    refine ⟨fun _ => trivial, fun _ => ?_⟩
    exact tradedOn_append.mpr ⟨hs, List.forall_mem_singleton.mpr trivial⟩
  | answer id answer now =>
    obtain ⟨waiting, htask, -, -, hr⟩ := step_answer hstep
    have hiff : Keeps TradedOn h (answered { s with clock := now } id waiting answer now) ↔ _ :=
      keeps_answered_iff
    unfold Keeps at hiff
    rw [hr] at hiff
    refine hiff.trans ⟨fun hon waiting' htask' hagain => ?_, fun hon => ⟨hs, ?_⟩⟩
    · rw [htask] at htask'
      cases htask'
      exact hon.2 hagain
    · exact hon waiting htask
  | resume id context =>
    obtain ⟨o, htask, hr⟩ := step_resume hstep
    have hiff : Keeps TradedOn h (placeTriggers s id context o) ↔ _ := keeps_placeTriggers_iff
    unfold Keeps at hiff
    rw [hr] at hiff
    refine hiff.trans ⟨fun hon o' htask' => ?_, fun hon => ⟨hs, hon o htask⟩⟩
    rw [htask] at htask'
    cases htask'
    exact hon.2
  | landLate id call landing =>
    obtain ⟨rfl, rfl⟩ := Prod.mk.inj (step_landLate hstep)
    exact ⟨fun _ => trivial, fun _ => tradedOn_landed.mpr hs⟩
  | fill order =>
    obtain ⟨-, hr⟩ := step_fill hstep
    obtain ⟨rfl, rfl⟩ := Prod.mk.inj hr
    refine ⟨fun _ => trivial, fun _ => ?_⟩
    exact tradedOn_append.mpr ⟨hs, List.forall_mem_singleton.mpr trivial⟩
  | disable =>
    obtain ⟨rfl, rfl⟩ := Machine.some_pair hstep
    rw [List.append_nil]
    exact ⟨fun _ => trivial, fun _ => hs⟩
  | enable =>
    obtain ⟨rfl, rfl⟩ := Machine.some_pair hstep
    rw [List.append_nil]
    exact ⟨fun _ => trivial, fun _ => hs⟩
  | checkBreaker now =>
    obtain ⟨-, -, hr⟩ := step_checkBreaker hstep
    obtain ⟨rfl, rfl⟩ := Prod.mk.inj hr
    refine ⟨fun _ => trivial, fun _ => ?_⟩
    exact tradedOn_append.mpr ⟨hs, List.forall_mem_singleton.mpr trivial⟩
  | resetBreaker =>
    obtain ⟨rfl, rfl⟩ := Machine.some_pair hstep
    refine ⟨fun _ => trivial, fun _ => ?_⟩
    exact tradedOn_append.mpr ⟨hs, List.forall_mem_singleton.mpr trivial⟩

end Step

/-! ## The runs -/

/-- **When trading stays under the switches.** In every state of a run the calls
so far were made while the kill switch was on and the breaker was not tripped, if
and only if every step of the run meets `WhileOn`. -/
theorem tradedOn_iff (gate : TradingGate) (session : CircuitBreaker.CircuitBreakerConfig)
    (signing : SigningGuardConfig) (actions : List ToolsAction) :
    (tradeTools gate session signing).Always TradedOn (tradeTools gate session signing).init []
        actions ↔
      (tradeTools gate session signing).Along WhileOn (tradeTools gate session signing).init []
        actions :=
  Machine.always_iff_along (M := tradeTools gate session signing) (I := TradedOn) (fun hs => hs)
    (fun hs hC hstep => (tradedOn_step_iff hs hstep).mpr hC)
    (fun hs hC hstep hP => hC ((tradedOn_step_iff hs hstep).mp hP)) (List.forall_mem_nil _) actions

/-! ## A call while the switch is off -/

/-- A preview of a close of all positions is confirmed after the switch has been
turned off. -/
def confirmedOff : List ToolsAction :=
  [.execute {} (.order (.limitOrderPlaceTool "SOL" .Long (10 : ℕ) (100 : ℕ) 20)) true 1000,
    .answer 0 (.ok {} false) 2000, .fill ⟨0, "SOL", .Long, (100 : ℕ), (10 : ℕ)⟩,
    .execute {} .flashCloseAll true 3000, .disable, .confirm 1 {}]

/-- The position is closed all the same. -/
theorem not_tradedOn :
    ¬ ∀ (gate : TradingGate) (session : CircuitBreaker.CircuitBreakerConfig)
      (signing : SigningGuardConfig) (s : ToolsState) (h : List ToolsEvent),
      (tradeTools gate session signing).Reachable s h → TradedOn s h := by
  intro hall
  have hrun : ((tradeTools {} {} {}).run confirmedOff).map (fun r => r.2.getLast?) =
      some (some (.called 1 (.closePosition "SOL" .Long none none) false none)) := by
    decide +kernel
  obtain ⟨⟨s, h⟩, hs, hh⟩ := Option.map_eq_some_iff.mp hrun
  have hon := hall {} {} {} s h (Machine.reachable_of_run hs)
  have hlast := hon _ (List.mem_of_getLast? hh)
  exact absurd hlast.1 Bool.false_ne_true

end TradeTools

end FlashEdge
