import FlashEdge.Tools.ToolSteps

/-!
# The cap on the portfolio exposure

"If the total portfolio exposure would exceed this after opening a new position,
the trade is rejected": the open positions are meant to stay under
`maxPortfolioExposure`. The check is made when an open is previewed, on the
positions of that moment, and passes when they cannot be fetched; the exposure
comes when the confirmed open lands, when a limit order fills and when a reverse
opens the other side, and neither of the last two is ever checked.

- `CheckedExposure`: the condition on a step: at the moment the exposure is added
  the check, made on the positions of that moment, would allow it.
- `withinExposure_iff`: the runs that stay under the cap.
-/

namespace FlashEdge

namespace TradeTools

/-- With a cap, the open positions are not larger than it. -/
def WithinExposure (s : ToolsState) (_ : List ToolsEvent) : Prop :=
  0 < s.gate.maxPortfolioExposure → (totalExposure s.positions : ℚ) ≤ s.gate.maxPortfolioExposure

/-- The check of the gate, on the open positions that are left when the call takes
what it closes, allows what the landing of the call adds. -/
def Fits (s : ToolsState) (landing : Landing) : ClientCall → Prop
  | .openPosition o => s.gate.checkExposure o.sizeUsd (.ok s.positions) = .ok ()
  | .openPositionAtomic o => s.gate.checkExposure o.sizeUsd (.ok s.positions) = .ok ()
  | .reversePosition market side =>
    s.gate.checkExposure landing.newSizeUsd (.ok (removePosition market side s.positions)) = .ok ()
  | _ => True

/-- The condition on a step: what it adds to the open positions fits under the cap
by the check of the gate. -/
def CheckedExposure (s : ToolsState) (_ : List ToolsEvent) : ToolsAction → Prop
  | .answer id answer _ =>
    ∀ waiting landing, s.tasks id = some (.calling waiting) → answer.landing? = some landing →
      Fits s landing waiting.call
  | .landLate _ call landing => Fits s landing call
  | .fill order => s.gate.checkExposure order.sizeUsd (.ok s.positions) = .ok ()
  | _ => True

/-! ## Sizes -/

theorem totalExposure_addPosition (market : String) (side : TradeSide) (sizeUsd : ℚ≥0)
    (collateralUsd : ℚ) (positions : List OpenPosition) :
    totalExposure (addPosition market side sizeUsd collateralUsd positions) =
      totalExposure positions + sizeUsd := by
  induction positions with
  | nil => simp [addPosition]
  | cons p ps ih =>
    unfold addPosition
    split
    · rw [totalExposure_cons, totalExposure_cons, add_right_comm]
    · rw [totalExposure_cons, totalExposure_cons, ih, add_assoc]

theorem totalExposure_closeSize_le (market : String) (side : TradeSide) (closed : ℚ≥0)
    (positions : List OpenPosition) :
    totalExposure (closeSize market side closed positions) ≤ totalExposure positions := by
  induction positions with
  | nil => exact le_refl _
  | cons p ps ih =>
    unfold closeSize
    split
    · split
      · rw [totalExposure_cons]
        exact le_add_self
      · rw [totalExposure_cons, totalExposure_cons]
        gcongr
        exact tsub_le_self
    · rw [totalExposure_cons, totalExposure_cons]
      gcongr

@[simp] theorem totalExposure_changeCollateral (market : String) (side : TradeSide) (change : ℚ)
    (positions : List OpenPosition) :
    totalExposure (changeCollateral market side change positions) = totalExposure positions := by
  unfold totalExposure changeCollateral
  rw [List.map_map]
  congr 1
  refine List.map_congr_left fun p _ => ?_
  show (if p.isOn market side then { p with collateralUsd := p.collateralUsd + change } else p :
    OpenPosition).sizeUsd = p.sizeUsd
  split <;> rfl

/-! ## One step -/

/-- An addition that the check allows stays under the cap, and no other does. -/
theorem withinExposure_add_iff {s : ToolsState} (s' : ToolsState) (hgate : s'.gate = s.gate)
    {positions : List OpenPosition} {size : ℚ≥0}
    (htotal : totalExposure s'.positions = totalExposure positions + size)
    (h : List ToolsEvent) :
    WithinExposure s' h ↔ s.gate.checkExposure size (.ok positions) = .ok () := by
  unfold WithinExposure
  rw [hgate, htotal]
  by_cases hlimit : 0 < s.gate.maxPortfolioExposure
  · rw [TradingGate.checkExposure_eq_ok hlimit]
    exact ⟨fun hle => hle hlimit, fun hle _ => hle⟩
  · have hoff : s.gate.checkExposure size (.ok positions) = .ok () :=
      if_pos (not_lt.mp hlimit)
    exact ⟨fun _ => hoff, fun _ hon => absurd hon hlimit⟩

section Step

variable {s s' : ToolsState} {h es : List ToolsEvent}

/-- What does not add to the positions stays under the cap. -/
theorem WithinExposure.of_le (hs : WithinExposure s h) (s' : ToolsState)
    (hgate : s'.gate = s.gate)
    (hle : totalExposure s'.positions ≤ totalExposure s.positions) (h' : List ToolsEvent) :
    WithinExposure s' h' := by
  intro hlimit
  rw [hgate] at hlimit ⊢
  exact le_trans (NNRat.coe_le_coe.mpr hle) (hs hlimit)

/-- A landing stays under the cap exactly when what it adds fits. -/
theorem withinExposure_land_iff (hs : WithinExposure s h) (id : ℕ) (call : ClientCall)
    (landing : Landing) :
    Keeps WithinExposure h (land s id call landing) ↔ Fits s landing call := by
  have hother : totalExposure (landedPositions s.positions landing call) ≤
      totalExposure s.positions → Keeps WithinExposure h (land s id call landing) :=
    fun hle => hs.of_le (land s id call landing).1 rfl hle _
  cases call with
  | openPosition o =>
    exact withinExposure_add_iff (land s id (.openPosition o) landing).1 rfl
      (totalExposure_addPosition _ _ _ _ _) _
  | openPositionAtomic o =>
    exact withinExposure_add_iff (land s id (.openPositionAtomic o) landing).1 rfl
      (totalExposure_addPosition _ _ _ _ _) _
  | reversePosition market side =>
    exact withinExposure_add_iff (land s id (.reversePosition market side) landing).1 rfl
      (totalExposure_addPosition _ _ _ _ _) _
  | closePosition market side closePercent closeAmount =>
    exact ⟨fun _ => trivial, fun _ => hother (totalExposure_closeSize_le _ _ _ _)⟩
  | addCollateral market side amount =>
    exact ⟨fun _ => trivial, fun _ => hother (totalExposure_changeCollateral _ _ _ _).le⟩
  | removeCollateral market side amount =>
    exact ⟨fun _ => trivial, fun _ => hother (totalExposure_changeCollateral _ _ _ _).le⟩
  | _ => exact ⟨fun _ => trivial, fun _ => hother (le_refl _)⟩

/-- The gate and the positions are the ones of `s`. -/
def SamePositions (s : ToolsState) (s' : ToolsState) (_ : List ToolsEvent) : Prop :=
  s'.gate = s.gate ∧ s'.positions = s.positions

theorem calm_samePositions (s : ToolsState) : Calm (SamePositions s) where
  task _ hs := hs
  started _ hs := hs
  refused _ _ hs := hs
  checked _ _ hs := hs
  called _ _ _ _ hs := hs

theorem silent_samePositions (s : ToolsState) (now : ℚ) : Silent (SamePositions s) now where
  toCalm := calm_samePositions s
  completed _ hs := hs
  opened hs := hs

theorem slots_samePositions (s : ToolsState) (now : ℚ) :
    Slots (SamePositions s) (SamePositions s) now :=
  fun _ hs => hs

theorem recordPnl_samePositions {s s' : ToolsState} {h : List ToolsEvent} {now : ℚ}
    (hs : SamePositions s s' h) (pnl : JsNumber) :
    Keeps (SamePositions s) h (recordPnl s' pnl now) := by
  cases pnl with
  | finite q => exact hs
  | posInfinity => exact hs
  | negInfinity => exact hs
  | nan => exact hs

theorem WithinExposure.of_same (hs : WithinExposure s h) {h' : List ToolsEvent}
    (hsame : SamePositions s s' h') : WithinExposure s' h' :=
  hs.of_le s' hsame.1 (by rw [hsame.2]) _

/-- After an answer the positions are those after the landing, if there is one. -/
theorem withinExposure_answered_iff (hs : WithinExposure s h) (id : ℕ) (waiting : Waiting)
    (answer : Answer) (now : ℚ) :
    Keeps WithinExposure h (answered s id waiting answer now) ↔
      ∀ landing, answer.landing? = some landing → Fits s landing waiting.call := by
  cases hlanding : answer.landing? with
  | none =>
    refine ⟨fun _ landing heq => (by cases heq), fun _ => ?_⟩
    have hkeeps := (silent_samePositions s now).keeps_answered (s := s) (h := h) id waiting answer
      (fun _ => ⟨rfl, rfl⟩)
      (fun landing heq => by rw [hlanding] at heq; cases heq)
      (fun landing included heq => by rw [heq] at hlanding; cases hlanding)
    exact hs.of_same hkeeps
  | some landing =>
    -- the landing, and then nothing that adds or takes away
    have hkeeps := (silent_samePositions (land s id waiting.call landing).1 now).keeps_answered
      (s := s) (h := h) id waiting answer
      (fun heq => by rw [heq] at hlanding; cases hlanding)
      (fun landing' heq => by
        rw [hlanding] at heq
        cases heq
        exact ⟨rfl, rfl⟩)
      (fun landing' included _ _ => fun hsame => recordPnl_samePositions hsame _)
    have hland := withinExposure_land_iff hs id waiting.call landing
    constructor
    · intro hwithin landing' heq
      cases heq
      refine hland.mp ?_
      intro hlimit
      have hle := hwithin (by rw [hkeeps.1]; exact hlimit)
      rw [hkeeps.1, hkeeps.2] at hle
      exact hle
    · intro hfits
      have hwithin := hland.mpr (hfits landing rfl)
      exact WithinExposure.of_same hwithin hkeeps

/-- **A step stays under the cap exactly when it meets the condition.** -/
theorem withinExposure_step_iff (hs : WithinExposure s h) {a : ToolsAction}
    (hstep : step s a = some (s', es)) :
    WithinExposure s' (h ++ es) ↔ CheckedExposure s h a := by
  have hcalm := calm_samePositions s
  have hself : SamePositions s s h := ⟨rfl, rfl⟩
  -- a step of which the condition says nothing leaves the positions as they are
  have hsame : CheckedExposure s h a → SamePositions s s' (h ++ es) →
      (WithinExposure s' (h ++ es) ↔ CheckedExposure s h a) :=
    fun hC hsame => ⟨fun _ => hC, fun _ => hs.of_same hsame⟩
  cases a with
  | execute context tool reachable now =>
    obtain ⟨-, -, hr⟩ := step_execute hstep
    have hkeeps := execute_keeps (s := { s with clock := now, nextTask := s.nextTask + 1 }) (h := h)
      hcalm.toSteady hcalm.toSteady (fun hs => hs) hself s.nextTask context reachable tool
      (fun _ => slots_samePositions s now) (fun {_ call} _ _ => hcalm.keeps_callClient
        (s := { s with clock := now, nextTask := s.nextTask + 1 }) hself s.nextTask
        (.ordering call))
    unfold Keeps at hkeeps
    rw [hr] at hkeeps
    exact hsame trivial hkeeps
  | positionsFetched id reachable now =>
    obtain ⟨o, -, -, -, hr⟩ := step_positionsFetched hstep
    have hkeeps := checkExposureOf_keeps (s := { s with clock := now }) (h := h) hcalm.toSteady
      hself id o reachable now
    unfold Keeps at hkeeps
    rw [hr] at hkeeps
    exact hsame trivial hkeeps
  | feeRatesFetched id rates now =>
    obtain ⟨o, -, -, -, hr⟩ := step_feeRatesFetched hstep
    have hkeeps := checkLimitsOf_keeps (s := { s with clock := now }) (h := h) hcalm.toSteady
      (fun hs => hs) (slots_samePositions s now) hself id o rates
    unfold Keeps at hkeeps
    rw [hr] at hkeeps
    exact hsame trivial hkeeps
  | confirm id context =>
    obtain ⟨action, -, hr⟩ := step_confirm hstep
    have hkeeps := hcalm.keeps_runAction hself id context action
    unfold Keeps at hkeeps
    rw [hr] at hkeeps
    exact hsame trivial hkeeps
  | sign id now =>
    obtain ⟨-, -, -, hr⟩ := step_sign hstep
    obtain ⟨rfl, rfl⟩ := Prod.mk.inj hr
    exact hsame trivial hself
  | answer id answer now =>
    obtain ⟨waiting, htask, -, -, hr⟩ := step_answer hstep
    have hiff := withinExposure_answered_iff (s := { s with clock := now }) (h := h) hs id waiting
      answer now
    unfold Keeps at hiff
    rw [hr] at hiff
    refine hiff.trans ⟨fun hfits waiting' landing htask' heq => ?_, fun hC landing heq => ?_⟩
    · rw [htask] at htask'
      cases htask'
      exact hfits landing heq
    · exact hC waiting landing htask heq
  | resume id context =>
    obtain ⟨o, -, hr⟩ := step_resume hstep
    have hkeeps := hcalm.keeps_placeTriggers hself id context o
    unfold Keeps at hkeeps
    rw [hr] at hkeeps
    exact hsame trivial hkeeps
  | landLate id call landing =>
    have hr := step_landLate hstep
    have hiff := withinExposure_land_iff
      (s := { s with unsettled := s.unsettled.erase (id, call) }) (h := h) hs id call landing
    rw [hr] at hiff
    exact hiff
  | fill order =>
    obtain ⟨-, hr⟩ := step_fill hstep
    obtain ⟨rfl, rfl⟩ := Prod.mk.inj hr
    exact withinExposure_add_iff (s := s) { s with
        positions := addPosition order.market order.side order.sizeUsd order.collateral s.positions
        orders := s.orders.erase order } rfl (totalExposure_addPosition _ _ _ _ _) _
  | disable =>
    obtain ⟨rfl, rfl⟩ := Machine.some_pair hstep
    exact ⟨fun _ => trivial, fun _ => hs⟩
  | enable =>
    obtain ⟨rfl, rfl⟩ := Machine.some_pair hstep
    exact ⟨fun _ => trivial, fun _ => hs⟩
  | checkBreaker now =>
    obtain ⟨-, -, hr⟩ := step_checkBreaker hstep
    obtain ⟨rfl, rfl⟩ := Prod.mk.inj hr
    exact hsame trivial hself
  | resetBreaker =>
    obtain ⟨rfl, rfl⟩ := Machine.some_pair hstep
    exact hsame trivial hself

end Step

/-! ## The runs -/

/-- **When the portfolio stays under the cap.** In every state of a run the open
positions are not larger than the cap, if and only if every step of the run meets
`CheckedExposure`. -/
theorem withinExposure_iff (gate : TradingGate) (session : CircuitBreaker.CircuitBreakerConfig)
    (signing : SigningGuardConfig) (actions : List ToolsAction) :
    (tradeTools gate session signing).Always WithinExposure
        (tradeTools gate session signing).init [] actions ↔
      (tradeTools gate session signing).Along CheckedExposure
        (tradeTools gate session signing).init [] actions :=
  Machine.always_iff_along (M := tradeTools gate session signing) (I := WithinExposure)
    (fun hs => hs) (fun hs hC hstep => (withinExposure_step_iff hs hstep).mpr hC)
    (fun hs hC hstep hP => hC ((withinExposure_step_iff hs hstep).mp hP))
    (fun hlimit => (by simpa [tradeTools] using hlimit.le)) actions

/-! ## Two previews -/

/-- Two opens of 800 each are previewed under a cap of 1000, and then both are
confirmed. -/
def twoPreviews : List ToolsAction :=
  let preview (id : ℕ) (now : ℚ) : List ToolsAction :=
    [.execute {} (.flashOpenPosition {} "SOL" .Long (.finite 100) (.finite 8) none none) true now,
      .positionsFetched id true now, .feeRatesFetched id (.ok ()) now]
  preview 0 1000 ++ preview 1 9000 ++
    [.confirm 0 {}, .answer 0 (.ok {} false) 10000, .confirm 1 {}, .answer 1 (.ok {} false) 11000]

/-- Each was allowed, and together they are above the cap. -/
theorem not_withinExposure :
    ¬ ∀ (gate : TradingGate) (session : CircuitBreaker.CircuitBreakerConfig)
      (signing : SigningGuardConfig) (s : ToolsState) (h : List ToolsEvent),
      (tradeTools gate session signing).Reachable s h → WithinExposure s h := by
  intro hall
  have hrun : ((tradeTools { maxPortfolioExposure := 1000 } {} {}).run twoPreviews).map
      (fun r => (r.1.gate.maxPortfolioExposure, totalExposure r.1.positions)) =
        some (1000, 1600) := by
    decide +kernel
  obtain ⟨⟨s, h⟩, hs, hh⟩ := Option.map_eq_some_iff.mp hrun
  obtain ⟨hcap, htotal⟩ := Prod.mk.inj hh
  have hle := hall _ {} {} s h (Machine.reachable_of_run hs)
  unfold WithinExposure at hle
  rw [hcap, htotal] at hle
  exact absurd (hle (by norm_num)) (by norm_num)

end TradeTools

end FlashEdge
