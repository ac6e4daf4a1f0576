import FlashEdge.Security.LossLimits
import FlashEdge.Tools.ToolSteps

/-!
# The losses the trade tools report to the breaker

"Halts trading when losses exceed limits": the session loss of the breaker is
meant to be what the closes of the session have lost. It is what has been
reported: `flash_close_position` reports the PnL of a close that has returned,
`flash_close_all` and `flash_reverse_position` report nothing, and neither does a
close that throws although its transaction lands.

- `realizedLosses`: what landed transactions have lost since the last reset.
- `LossReported`: the condition on a step, that what it realizes is reported.
- `lossesReported_iff`: the runs on which the session loss is what the closes
  have lost, and the breaker is tripped once that reaches the limit.
-/

namespace FlashEdge

namespace TradeTools

/-! ## Losses on chain -/

/-- One event more: a reset starts the session again. -/
def nextRealized (total : ℚ) : ToolsEvent → ℚ
  | .landed _ call landing => total + realizedLoss landing call
  | .session .wasReset => 0
  | _ => total

/-- The losses that landed transactions have realized since the last reset. -/
def realizedLosses (h : List ToolsEvent) : ℚ := h.foldl nextRealized 0

@[simp] theorem realizedLosses_snoc (h : List ToolsEvent) (e : ToolsEvent) :
    realizedLosses (h ++ [e]) = nextRealized (realizedLosses h) e :=
  List.foldl_append

/-- The session loss is what has been lost, and trading is halted once that
reaches the limit. -/
structure LossesReported (session : CircuitBreaker.CircuitBreakerConfig) (s : ToolsState)
    (h : List ToolsEvent) : Prop where
  counted : s.breaker.sessionLossUsd = realizedLosses h
  halted : 0 < session.maxSessionLossUsd → session.maxSessionLossUsd ≤ realizedLosses h →
    s.breaker.tripped ≠ none

/-- The condition on a step: a transaction that lands realizes no loss, unless it
is that of a single close that returns. -/
def LossReported (s : ToolsState) (_ : List ToolsEvent) : ToolsAction → Prop
  | .answer id (.ok landing _) _ =>
    ∀ waiting, s.tasks id = some (.calling waiting) →
      waiting.isClosing ∨ realizedLoss landing waiting.call = 0
  | .answer id (.failed (some landing)) _ =>
    ∀ waiting, s.tasks id = some (.calling waiting) → realizedLoss landing waiting.call = 0
  | .landLate _ call landing => realizedLoss landing call = 0
  | _ => True

/-! ## Steps that report nothing

`QuietSince b total`: nothing has been lost or reported since the breaker was `b`
and `total` was lost. -/

structure QuietSince (b : CircuitBreaker) (total : ℚ) (s : ToolsState)
    (h : List ToolsEvent) : Prop where
  loss : s.breaker.sessionLossUsd = b.sessionLossUsd
  config : s.breaker.config = b.config
  trips : b.tripped ≠ none → s.breaker.tripped ≠ none
  realized : realizedLosses h = total

theorem quietSince_self (s : ToolsState) (h : List ToolsEvent) :
    QuietSince s.breaker (realizedLosses h) s h where
  loss := rfl
  config := rfl
  trips ht := ht
  realized := rfl

/-- A check keeps the configuration, and what is tripped stays tripped. -/
theorem check_config_tripped (b : CircuitBreaker) (now : ℚ) :
    (b.check now).1.config = b.config ∧ (b.tripped ≠ none → (b.check now).1.tripped ≠ none) := by
  by_cases hopen : b.tripped = none
  · obtain ⟨tripped, hr⟩ := check_rollover hopen now
    rw [hr]
    refine ⟨?_, fun ht => absurd hopen ht⟩
    rcases b.rollover_cases (CircuitBreaker.todayStr now) with ⟨-, hroll⟩ | ⟨-, hroll⟩
    · rw [hroll]
    · rw [hroll]
  · rw [check_tripped hopen now]
    exact ⟨rfl, fun ht => ht⟩

section Quiet

variable {b : CircuitBreaker} {total : ℚ} {s : ToolsState} {h : List ToolsEvent}

/-- Events that are neither a landing nor a reset lose nothing. -/
theorem QuietSince.event (hq : QuietSince b total s h) {e : ToolsEvent}
    (he : nextRealized total e = total) : QuietSince b total s (h ++ [e]) where
  loss := hq.loss
  config := hq.config
  trips := hq.trips
  realized := by rw [realizedLosses_snoc, hq.realized, he]

theorem steady_quietSince (b : CircuitBreaker) (total : ℚ) : Steady (QuietSince b total) where
  task _ hq := ⟨hq.loss, hq.config, hq.trips, hq.realized⟩
  started _ hq := ⟨hq.loss, hq.config, hq.trips, hq.realized⟩
  refused _ _ hq := hq.event rfl
  checked {s} h now allowed hq := by
    obtain ⟨hconfig, htrips⟩ := check_config_tripped s.breaker now
    have hquiet : QuietSince b total { s with breaker := (s.breaker.check now).1 } h :=
      ⟨(check_sessionLossUsd s.breaker now).trans hq.loss, hconfig.trans hq.config,
        fun ht => htrips (hq.trips ht), hq.realized⟩
    exact hquiet.event rfl

theorem slots_quietSince (b : CircuitBreaker) (total now : ℚ) :
    Slots (QuietSince b total) (QuietSince b total) now := by
  intro s h id hq
  have hquiet : QuietSince b total { s with guard := (s.guard.checkRateLimit now).1 } h :=
    ⟨hq.loss, hq.config, hq.trips, hq.realized⟩
  exact hquiet.event rfl

/-- An open counts as a trade, and may trip the breaker. -/
theorem recordOpen_keeps (b : CircuitBreaker) :
    b.recordOpen.sessionLossUsd = b.sessionLossUsd ∧ b.recordOpen.config = b.config ∧
      (b.tripped ≠ none → b.recordOpen.tripped ≠ none) := by
  unfold CircuitBreaker.recordOpen
  dsimp only
  split
  · exact ⟨rfl, rfl, fun _ => Option.some_ne_none _⟩
  · exact ⟨rfl, rfl, fun ht => ht⟩

theorem calm_quietSince (b : CircuitBreaker) (total : ℚ) : Calm (QuietSince b total) where
  toSteady := steady_quietSince b total
  called _ _ _ _ hq := hq.event rfl

theorem silent_quietSince (b : CircuitBreaker) (total now : ℚ) :
    Silent (QuietSince b total) now where
  toCalm := calm_quietSince b total
  completed {s} h id hq := by
    have hquiet : QuietSince b total { s with guard := s.guard.recordSigning now } h :=
      ⟨hq.loss, hq.config, hq.trips, hq.realized⟩
    exact hquiet.event rfl
  opened {s} h hq := by
    obtain ⟨hloss, hconfig, htrips⟩ := recordOpen_keeps s.breaker
    exact ⟨hloss.trans hq.loss, hconfig.trans hq.config, fun ht => htrips (hq.trips ht),
      hq.realized⟩

end Quiet

/-! ## A close that is reported -/

/-- A trade that is recorded halts trading once the limit is reached. -/
theorem recordTrade_keeps (b : CircuitBreaker) (pnl : JsNumber) (now : ℚ) :
    (b.recordTrade pnl now).sessionLossUsd = b.sessionLossUsd + CircuitBreaker.lossOf pnl ∧
      (b.recordTrade pnl now).config = b.config ∧
      (0 < b.config.maxSessionLossUsd →
        b.config.maxSessionLossUsd ≤ b.sessionLossUsd + CircuitBreaker.lossOf pnl →
          (b.recordTrade pnl now).tripped ≠ none) := by
  set b' := b.addLoss (CircuitBreaker.lossOf pnl) with hb'
  have hsession : (b'.check now).1.sessionLossUsd = b'.sessionLossUsd := check_sessionLossUsd b' now
  obtain ⟨hconfig, -⟩ := check_config_tripped b' now
  refine ⟨hsession, hconfig, fun hon hreached => ?_⟩
  show (b'.check now).1.tripped ≠ none
  rcases b'.check_cases now with ⟨reason, ht, hr⟩ | ⟨reason, -, hr⟩ | ⟨-, hlimit, hr⟩
  · rw [hr, ht]
    exact Option.some_ne_none reason
  · rw [hr]
    exact Option.some_ne_none reason
  · -- below the limit, which the loss has reached
    have hbelow := (CircuitBreaker.below_of_limitReached hlimit).1
    have hroll : (b'.rollover (CircuitBreaker.todayStr now)).config = b.config ∧
        (b'.rollover (CircuitBreaker.todayStr now)).sessionLossUsd =
          b.sessionLossUsd + CircuitBreaker.lossOf pnl := by
      rcases b'.rollover_cases (CircuitBreaker.todayStr now) with ⟨-, hroll⟩ | ⟨-, hroll⟩
      · rw [hroll]
        exact ⟨rfl, rfl⟩
      · rw [hroll]
        exact ⟨rfl, rfl⟩
    rw [hroll.1, hroll.2] at hbelow
    exact absurd hreached (not_le.mpr (hbelow hon))

/-! ## One step -/

/-- The invariant: the reports are right, and the configuration is the one the
breaker was made with. -/
structure ReportedInv (session : CircuitBreaker.CircuitBreakerConfig) (s : ToolsState)
    (h : List ToolsEvent) : Prop extends LossesReported session s h where
  config_eq : s.breaker.config = session

theorem reportedInv_init (gate : TradingGate) (session : CircuitBreaker.CircuitBreakerConfig)
    (signing : SigningGuardConfig) :
    ReportedInv session (tradeTools gate session signing).init [] where
  counted := rfl
  halted hon hreached := absurd hon (not_lt.mpr hreached)
  config_eq := rfl

section Step

variable {session : CircuitBreaker.CircuitBreakerConfig} {s s' : ToolsState}
  {h es : List ToolsEvent}

theorem ReportedInv.quiet (hI : ReportedInv session s h)
    (hq : QuietSince s.breaker (realizedLosses h) s' (h ++ es)) :
    ReportedInv session s' (h ++ es) := by
  refine ⟨⟨?_, fun hon hreached => ?_⟩, hq.config.trans hI.config_eq⟩
  · rw [hq.loss, hq.realized]
    exact hI.counted
  · rw [hq.realized] at hreached
    exact hq.trips (hI.halted hon hreached)

/-- A loss that is not reported makes the session loss too small. -/
theorem not_lossesReported_of_quiet (hI : ReportedInv session s h) {lost : ℚ}
    (hlost : lost ≠ 0) (hq : QuietSince s.breaker (realizedLosses h + lost) s' (h ++ es)) :
    ¬ LossesReported session s' (h ++ es) := by
  intro hP
  have hcounted := hP.counted
  rw [hq.loss, hq.realized, hI.counted] at hcounted
  exact hlost (left_eq_add.mp hcounted)

/-- The state after a landing, before the tool goes on. -/
theorem quietSince_landed (s : ToolsState) (h : List ToolsEvent) (id : ℕ) (call : ClientCall)
    (landing : Landing) :
    QuietSince s.breaker (realizedLosses h + realizedLoss landing call)
      (land s id call landing).1 (h ++ [ToolsEvent.landed id call landing]) where
  loss := rfl
  config := rfl
  trips ht := ht
  realized := realizedLosses_snoc h _

/-- What is lost and not reported by the step, in a state where the reports are
right. -/
theorem reported_or_not (hI : ReportedInv session s h) {lost : ℚ}
    (hq : QuietSince s.breaker (realizedLosses h + lost) s' (h ++ es)) :
    (lost = 0 → ReportedInv session s' (h ++ es)) ∧
      (lost ≠ 0 → ¬ LossesReported session s' (h ++ es)) := by
  refine ⟨fun hzero => ?_, fun hne => not_lossesReported_of_quiet hI hne hq⟩
  rw [hzero, add_zero] at hq
  exact hI.quiet hq

/-- A single close that returns is reported, unless its PnL is no number. -/
theorem closed_cases (s : ToolsState) (id : ℕ) (landing : Landing) (included : Bool) (now : ℚ)
    (market : String) (side : TradeSide) (closePercent closeAmount : Option ℚ) :
    let waiting := Waiting.closing market side closePercent closeAmount
    let r := answered s id waiting (.ok landing included) now
    (r.1.breaker = s.breaker.recordTrade landing.pnl now ∨
        r.1.breaker = s.breaker ∧ CircuitBreaker.lossOf landing.pnl = 0) ∧
      ∀ h, realizedLosses (h ++ r.2) = realizedLosses h + CircuitBreaker.lossOf landing.pnl := by
  dsimp only [answered, andThen, land, succeeded, signAndEnd, recordSigning, endTask]
  cases hpnl : landing.pnl with
  | finite q =>
    refine ⟨.inl rfl, fun h => ?_⟩
    simp only [recordPnl, ← List.append_assoc, realizedLosses_snoc, nextRealized]
    show realizedLosses h + CircuitBreaker.lossOf landing.pnl = _
    rw [hpnl]
  | posInfinity =>
    refine ⟨.inr ⟨rfl, rfl⟩, fun h => ?_⟩
    simp only [recordPnl, ← List.append_assoc, List.append_nil, realizedLosses_snoc, nextRealized]
    show realizedLosses h + CircuitBreaker.lossOf landing.pnl = _
    rw [hpnl]
  | negInfinity =>
    refine ⟨.inr ⟨rfl, rfl⟩, fun h => ?_⟩
    simp only [recordPnl, ← List.append_assoc, List.append_nil, realizedLosses_snoc, nextRealized]
    show realizedLosses h + CircuitBreaker.lossOf landing.pnl = _
    rw [hpnl]
  | nan =>
    refine ⟨.inr ⟨rfl, rfl⟩, fun h => ?_⟩
    simp only [recordPnl, ← List.append_assoc, List.append_nil, realizedLosses_snoc, nextRealized]
    show realizedLosses h + CircuitBreaker.lossOf landing.pnl = _
    rw [hpnl]

theorem reportedInv_closed (hI : ReportedInv session s h) {id : ℕ} {waiting : Waiting}
    {landing : Landing} {included : Bool} {now : ℚ} (hw : waiting.isClosing)
    (hr : answered s id waiting (.ok landing included) now = (s', es)) :
    ReportedInv session s' (h ++ es) := by
  cases waiting with
  | closing market side closePercent closeAmount =>
    obtain ⟨hbreaker, hrealized⟩ :=
      closed_cases s id landing included now market side closePercent closeAmount
    rw [hr] at hbreaker hrealized
    have hrealized : realizedLosses (h ++ es) = _ := hrealized h
    rcases hbreaker with hbreaker | ⟨hbreaker, hzero⟩
    · obtain ⟨hloss, hconfig, htrips⟩ :=
        recordTrade_keeps s.breaker landing.pnl now
      rw [hI.config_eq, hI.counted, ← hrealized] at htrips
      refine ⟨⟨?_, ?_⟩, ?_⟩
      · rw [hrealized, ← hI.counted, ← hloss]
        exact congrArg _ hbreaker
      · intro hon hreached
        rw [show s'.breaker = _ from hbreaker]
        exact htrips hon hreached
      · rw [show s'.breaker = _ from hbreaker]
        exact hconfig.trans hI.config_eq
    · rw [hzero, add_zero] at hrealized
      refine ⟨⟨?_, ?_⟩, ?_⟩
      · rw [hrealized, ← hI.counted]
        exact congrArg _ hbreaker
      · rw [hrealized, show s'.breaker = _ from hbreaker]
        exact hI.halted
      · rw [show s'.breaker = _ from hbreaker]
        exact hI.config_eq
  | _ => exact absurd hw (fun hf => hf)

/-- **A step keeps the reports right exactly when it meets the condition.** -/
theorem lossesReported_step (hI : ReportedInv session s h) {a : ToolsAction}
    (hstep : step s a = some (s', es)) :
    (LossReported s h a → ReportedInv session s' (h ++ es)) ∧
      (¬ LossReported s h a → ¬ LossesReported session s' (h ++ es)) := by
  have hself := quietSince_self s h
  have hcalm := calm_quietSince s.breaker (realizedLosses h)
  -- a step of which the condition says nothing reports and loses nothing
  have hquiet : LossReported s h a → QuietSince s.breaker (realizedLosses h) s' (h ++ es) →
      (LossReported s h a → ReportedInv session s' (h ++ es)) ∧
        (¬ LossReported s h a → ¬ LossesReported session s' (h ++ es)) :=
    fun hC hq => ⟨fun _ => hI.quiet hq, fun hn => absurd hC hn⟩
  cases a with
  | execute context tool reachable now =>
    obtain ⟨-, -, hr⟩ := step_execute hstep
    have hsteady := steady_quietSince s.breaker (realizedLosses h)
    have hstart : QuietSince s.breaker (realizedLosses h)
        { s with clock := now, nextTask := s.nextTask + 1 } h :=
      ⟨hself.loss, hself.config, hself.trips, hself.realized⟩
    have hkeeps := execute_keeps hsteady hsteady (fun hq => hq) hstart s.nextTask context
      reachable tool (fun _ => slots_quietSince _ _ now)
      (fun _ _ => hcalm.keeps_callClient hstart _ _)
    unfold Keeps at hkeeps
    rw [hr] at hkeeps
    exact hquiet trivial hkeeps
  | positionsFetched id reachable now =>
    obtain ⟨o, -, -, -, hr⟩ := step_positionsFetched hstep
    have hstart : QuietSince s.breaker (realizedLosses h) { s with clock := now } h :=
      ⟨hself.loss, hself.config, hself.trips, hself.realized⟩
    have hkeeps := checkExposureOf_keeps (steady_quietSince _ _) hstart id o reachable now
    unfold Keeps at hkeeps
    rw [hr] at hkeeps
    exact hquiet trivial hkeeps
  | feeRatesFetched id rates now =>
    obtain ⟨o, -, -, -, hr⟩ := step_feeRatesFetched hstep
    have hstart : QuietSince s.breaker (realizedLosses h) { s with clock := now } h :=
      ⟨hself.loss, hself.config, hself.trips, hself.realized⟩
    have hkeeps := checkLimitsOf_keeps (steady_quietSince _ _) (fun hq => hq)
      (slots_quietSince _ _ now) hstart id o rates
    unfold Keeps at hkeeps
    rw [hr] at hkeeps
    exact hquiet trivial hkeeps
  | confirm id context =>
    obtain ⟨action, -, hr⟩ := step_confirm hstep
    have hkeeps := hcalm.keeps_runAction hself id context action
    unfold Keeps at hkeeps
    rw [hr] at hkeeps
    exact hquiet trivial hkeeps
  | sign id now =>
    obtain ⟨-, -, -, hr⟩ := step_sign hstep
    obtain ⟨rfl, rfl⟩ := Prod.mk.inj hr
    have hstart : QuietSince s.breaker (realizedLosses h) { s with clock := now } h :=
      ⟨hself.loss, hself.config, hself.trips, hself.realized⟩
    exact hquiet trivial (hstart.event rfl)
  | answer id answer now =>
    obtain ⟨waiting, htask, -, -, hr⟩ := step_answer hstep
    cases answer with
    | ok landing included =>
      have hmet : LossReported s h (.answer id (.ok landing included) now) ↔
          waiting.isClosing ∨ realizedLoss landing waiting.call = 0 := by
        show (∀ waiting', s.tasks id = some (.calling waiting') → _) ↔ _
        rw [htask]
        exact ⟨fun hC => hC waiting rfl, fun hC _ heq => by cases heq; exact hC⟩
      by_cases hw : waiting.isClosing
      · have hstart : ReportedInv session { s with clock := now } h :=
          ⟨⟨hI.counted, hI.halted⟩, hI.config_eq⟩
        exact ⟨fun _ => reportedInv_closed hstart hw hr, fun hn => absurd (hmet.mpr (.inl hw)) hn⟩
      · have hkeeps := (silent_quietSince _ _ now).keeps_succeeded
          (quietSince_landed { s with clock := now } h id waiting.call landing) id landing included
          (fun hclosing => absurd hclosing hw)
        have hq : Keeps (QuietSince s.breaker
            (realizedLosses h + realizedLoss landing waiting.call)) h (s', es) := by
          rw [← hr]
          exact keeps_andThen hkeeps
        obtain ⟨hgood, hbad⟩ := reported_or_not hI hq
        rw [hmet, or_iff_right hw]
        exact ⟨hgood, hbad⟩
    | failed landing? =>
      cases landing? with
      | none =>
        have hstart : QuietSince s.breaker (realizedLosses h)
            { s with clock := now, unsettled := s.unsettled ++ [(id, waiting.call)] } h :=
          ⟨hself.loss, hself.config, hself.trips, hself.realized⟩
        have hkeeps := hcalm.keeps_failed hstart id waiting
        unfold Keeps at hkeeps
        rw [show TradeTools.failed _ _ _ = (s', es) from hr] at hkeeps
        exact hquiet trivial hkeeps
      | some landing =>
        have hmet : LossReported s h (.answer id (.failed (some landing)) now) ↔
            realizedLoss landing waiting.call = 0 := by
          show (∀ waiting', s.tasks id = some (.calling waiting') → _) ↔ _
          rw [htask]
          exact ⟨fun hC => hC waiting rfl, fun hC _ heq => by cases heq; exact hC⟩
        have hkeeps := (calm_quietSince _ _).keeps_failed
          (quietSince_landed { s with clock := now } h id waiting.call landing) id waiting
        have hq : Keeps (QuietSince s.breaker
            (realizedLosses h + realizedLoss landing waiting.call)) h (s', es) := by
          rw [← hr]
          exact keeps_andThen hkeeps
        obtain ⟨hgood, hbad⟩ := reported_or_not hI hq
        rw [hmet]
        exact ⟨hgood, hbad⟩
  | resume id context =>
    obtain ⟨o, -, hr⟩ := step_resume hstep
    have hkeeps := hcalm.keeps_placeTriggers hself id context o
    unfold Keeps at hkeeps
    rw [hr] at hkeeps
    exact hquiet trivial hkeeps
  | landLate id call landing =>
    have hr := step_landLate hstep
    have hq := quietSince_landed { s with unsettled := s.unsettled.erase (id, call) } h id call
      landing
    obtain ⟨rfl, rfl⟩ := Prod.mk.inj hr
    exact reported_or_not hI hq
  | fill order =>
    obtain ⟨-, hr⟩ := step_fill hstep
    obtain ⟨rfl, rfl⟩ := Prod.mk.inj hr
    have hstart : QuietSince s.breaker (realizedLosses h) { s with
        positions := addPosition order.market order.side order.sizeUsd order.collateral s.positions
        orders := s.orders.erase order } h :=
      ⟨hself.loss, hself.config, hself.trips, hself.realized⟩
    exact hquiet trivial (hstart.event rfl)
  | disable =>
    obtain ⟨rfl, rfl⟩ := Machine.some_pair hstep
    rw [List.append_nil] at hquiet ⊢
    exact hquiet trivial ⟨hself.loss, hself.config, hself.trips, hself.realized⟩
  | enable =>
    obtain ⟨rfl, rfl⟩ := Machine.some_pair hstep
    rw [List.append_nil] at hquiet ⊢
    exact hquiet trivial ⟨hself.loss, hself.config, hself.trips, hself.realized⟩
  | checkBreaker now =>
    obtain ⟨-, -, hr⟩ := step_checkBreaker hstep
    obtain ⟨rfl, rfl⟩ := Prod.mk.inj hr
    have hstart : QuietSince s.breaker (realizedLosses h) { s with clock := now } h :=
      ⟨hself.loss, hself.config, hself.trips, hself.realized⟩
    exact hquiet trivial ((steady_quietSince _ _).checked now _ hstart)
  | resetBreaker =>
    obtain ⟨rfl, rfl⟩ := Machine.some_pair hstep
    refine ⟨fun _ => ⟨⟨?_, fun hon hreached => ?_⟩, hI.config_eq⟩, fun hn => absurd trivial hn⟩
    · rw [realizedLosses_snoc]
      rfl
    · rw [realizedLosses_snoc] at hreached
      exact absurd hon (not_lt.mpr hreached)

end Step

/-! ## The runs -/

/-- **When the session loss is what the closes have lost.** In every state of a
run the session loss of the breaker is the sum of the losses that landed closes
have realized since the last reset, and the breaker is tripped once that sum has
reached the limit, if and only if every step of the run meets `LossReported`. -/
theorem lossesReported_iff (gate : TradingGate) (session : CircuitBreaker.CircuitBreakerConfig)
    (signing : SigningGuardConfig) (actions : List ToolsAction) :
    (tradeTools gate session signing).Always (LossesReported session)
        (tradeTools gate session signing).init [] actions ↔
      (tradeTools gate session signing).Along LossReported
        (tradeTools gate session signing).init [] actions :=
  Machine.always_iff_along (M := tradeTools gate session signing) (I := ReportedInv session)
    (fun hI => hI.toLossesReported) (fun hI hC hstep => (lossesReported_step hI hstep).1 hC)
    (fun hI hC hstep => (lossesReported_step hI hstep).2 hC)
    (reportedInv_init gate session signing) actions

/-! ## A loss that is not reported -/

/-- With a session limit of 100, a close-all that loses 500. -/
def lostByCloseAll : List ToolsAction :=
  [.execute {} (.order (.limitOrderPlaceTool "SOL" .Long (10 : ℕ) (100 : ℕ) 20)) true 1000,
    .answer 0 (.ok {} false) 2000, .fill ⟨0, "SOL", .Long, (100 : ℕ), (10 : ℕ)⟩,
    .execute {} .flashCloseAll true 3000, .confirm 1 {},
    .answer 1 (.ok { pnl := .finite (-500), closedSizeUsd := (1000 : ℕ) } false) 4000]

/-- The breaker knows nothing of it. -/
theorem not_lossesReported :
    ¬ ∀ (gate : TradingGate) (session : CircuitBreaker.CircuitBreakerConfig)
      (signing : SigningGuardConfig) (s : ToolsState) (h : List ToolsEvent),
      (tradeTools gate session signing).Reachable s h → LossesReported session s h := by
  intro hall
  have hrun : ((tradeTools {} { maxSessionLossUsd := 100 } {}).run lostByCloseAll).map
      (fun r => (r.1.breaker.sessionLossUsd, realizedLosses r.2)) = some (0, 500) := by
    decide +kernel
  obtain ⟨⟨s, h⟩, hs, hh⟩ := Option.map_eq_some_iff.mp hrun
  obtain ⟨hloss, hrealized⟩ := Prod.mk.inj hh
  have hcounted := (hall {} { maxSessionLossUsd := 100 } {} s h
    (Machine.reachable_of_run hs)).counted
  rw [hloss, hrealized] at hcounted
  exact absurd hcounted (by decide)

end TradeTools

end FlashEdge
