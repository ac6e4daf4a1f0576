import FlashEdge.Markets.PerfMonitor
import Mathlib.Tactic.Linarith

/-!
# Safe mode is as strict as its causes, and ends with them

Safe mode should never be weaker than one of its causes asks for (`AsStrict`), and it
should be possible to leave it once the causes are gone (`Recovers`). A cause that fires
overwrites the record of the one before it, so a slow tick weakens the safe mode of a
CRITICAL health, and a HEALTHY report ends that of a slow tick if another report came
between; and no report ends it if none did. `safeModeRight_iff` says that these are all
the ways to go wrong.
-/

namespace FlashEdge

namespace MarketPerfMonitor

/-! ## The causes -/

/-- The health of the last report. -/
def health (h : List PerfEvent) : HealthState :=
  h.foldl (fun last e => match e with
    | .reported state => state
    | .checked _ _ => last) .HEALTHY

/-- P99 is over its budget. -/
def overP99 (measured : Option (ℚ × ℚ)) : Prop :=
  ∃ p ∈ measured, TICK_BUDGET_P99_MS < p.2

/-- What the last check that looked at the latencies has found. -/
def lastMeasured (h : List PerfEvent) : Option (ℚ × ℚ) :=
  h.foldl (fun last e => match e with
    | .checked (some p) _ => some p
    | _ => last) none

/-- The latencies are within budget. -/
def WithinBudget (tickLatencies : List ℚ) : Prop :=
  ∀ p ∈ percentiles tickLatencies, p.1 ≤ TICK_BUDGET_P90_MS ∧ p.2 ≤ TICK_BUDGET_P99_MS

/-! ## The property -/

/-- Sizes are reduced to this multiplier at least, and these tiers are disabled. -/
structure Enforces (m : SafeModeState) (multiplier : ℚ) (tiers : List MarketTier) : Prop where
  size : m.globalSizeMultiplier ≤ multiplier
  disabled : ∀ tier ∈ tiers, tier ∈ m.disabledTiers

/-- Safe mode enforces what each cause that holds asks for. -/
structure AsStrict (s : MarketPerfMonitor) (h : List PerfEvent) : Prop where
  critical : health h = .CRITICAL → Enforces s.safeMode (1 / 2) [.TIER_2, .TIER_3]
  degraded : health h = .DEGRADED → Enforces s.safeMode (7 / 10) [.TIER_3]
  slow : overP99 (lastMeasured h) → Enforces s.safeMode (7 / 10) [.TIER_3]

/-- Without a cause, a check and a report end safe mode. -/
def Recovers (s : MarketPerfMonitor) (h : List PerfEvent) : Prop :=
  health h = .HEALTHY → WithinBudget s.tickLatencies →
    ∀ now ranking, 1000 ≤ now - s.lastBudgetCheck →
      ((s.enforceBudget now ranking).1.onHealthStateChange .HEALTHY).safeMode.active = false

def SafeModeRight (s : MarketPerfMonitor) (h : List PerfEvent) : Prop :=
  AsStrict s h ∧ Recovers s h

/-! ## The condition -/

/-- Safe mode was last activated by the budget. -/
def BySlowTicks (s : MarketPerfMonitor) : Prop :=
  s.safeMode.active = true ∧ s.safeMode.reason = "Tick P99 exceeded budget"

/-- No check finds slow ticks while health is CRITICAL, no HEALTHY report ends the safe
mode of slow ticks, and the ticks are not fast again while slow ticks are the reason of
safe mode and health is HEALTHY. -/
def CausesApart (s : MarketPerfMonitor) (h : List PerfEvent) : PerfCall → Prop
  | .recordTickLatency ms =>
    ¬ (health h = .HEALTHY ∧ BySlowTicks s ∧
      WithinBudget (s.recordTickLatency ms).tickLatencies)
  | .enforceBudget now _ => ¬ (health h = .CRITICAL ∧ overP99 (s.measured now))
  | .onHealthStateChange .HEALTHY =>
    ¬ (BySlowTicks s ∧ WithinBudget s.tickLatencies) ∧
      ¬ (s.safeMode.active = true ∧ ¬ BySlowTicks s ∧ overP99 (lastMeasured h))
  | .onHealthStateChange _ => True

/-! ## The four records of safe mode -/

def criticalMode : SafeModeState where
  active := true
  reason := "System health CRITICAL"
  globalSizeMultiplier := 1 / 2
  disabledTiers := [.TIER_2, .TIER_3]

def degradedMode : SafeModeState where
  active := true
  reason := "System health DEGRADED"
  globalSizeMultiplier := 7 / 10
  disabledTiers := [.TIER_3]

def slowMode : SafeModeState where
  active := true
  reason := "Tick P99 exceeded budget"
  globalSizeMultiplier := 7 / 10
  disabledTiers := [.TIER_3]

/-- Which record stands for which causes. -/
inductive Records (m : SafeModeState) (health : HealthState) (measured : Option (ℚ × ℚ)) : Prop
  | off : m = {} → health = .HEALTHY → ¬ overP99 measured → Records m health measured
  | critical : m = criticalMode → health = .CRITICAL → Records m health measured
  | degraded : m = degradedMode → health = .DEGRADED → Records m health measured
  | slow : m = slowMode → health ≠ .CRITICAL → Records m health measured

/-- What an observer knows agrees with the record, and slow ticks that are the reason
while health is HEALTHY are still slow. -/
structure SafeModeInv (s : MarketPerfMonitor) (h : List PerfEvent) : Prop where
  records : Records s.safeMode (health h) (lastMeasured h)
  slow : health h = .HEALTHY → s.safeMode = slowMode → ¬ WithinBudget s.tickLatencies

theorem bySlowTicks_iff {s : MarketPerfMonitor} {st : HealthState} {measured : Option (ℚ × ℚ)}
    (hr : Records s.safeMode st measured) : BySlowTicks s ↔ s.safeMode = slowMode := by
  unfold BySlowTicks
  constructor
  · rintro ⟨hactive, hreason⟩
    cases hr with
    | off hm => rw [hm] at hactive; cases hactive
    | critical hm => rw [hm] at hreason; exact absurd hreason (by decide)
    | degraded hm => rw [hm] at hreason; exact absurd hreason (by decide)
    | slow hm => exact hm
  · intro hm
    rw [hm]
    exact ⟨rfl, rfl⟩

/-! ## What the calls do to safe mode -/

@[simp] theorem health_snoc (h : List PerfEvent) (e : PerfEvent) :
    health (h ++ [e]) = match e with
      | .reported state => state
      | .checked _ _ => health h := by
  unfold health
  rw [List.foldl_append]
  rfl

@[simp] theorem lastMeasured_snoc (h : List PerfEvent) (e : PerfEvent) :
    lastMeasured (h ++ [e]) = match e with
      | .checked (some p) _ => some p
      | _ => lastMeasured h := by
  unfold lastMeasured
  rw [List.foldl_append]
  rfl

theorem recordTickLatency_safeMode (s : MarketPerfMonitor) (ms : JsNumber) :
    (s.recordTickLatency ms).safeMode = s.safeMode := by
  unfold recordTickLatency
  split
  · split <;> rfl
  · rfl

/-- Only a check that finds slow ticks touches safe mode. -/
theorem enforceBudget_safeMode (s : MarketPerfMonitor) (now : ℚ) (ranking : Ranking) :
    (overP99 (s.measured now) → (s.enforceBudget now ranking).1.safeMode =
      (s.activateSafeMode "Tick P99 exceeded budget" (7 / 10) [.TIER_3]).safeMode) ∧
    (¬ overP99 (s.measured now) → (s.enforceBudget now ranking).1.safeMode = s.safeMode) := by
  unfold enforceBudget measured overP99
  by_cases hearly : now - s.lastBudgetCheck < 1000
  · simp [hearly]
  simp only [if_neg hearly]
  cases percentiles s.tickLatencies with
  | none => simp
  | some p =>
    by_cases hslow : TICK_BUDGET_P99_MS < p.2
    · simp only [if_pos hslow]
      refine ⟨fun _ => ?_, fun hnot => absurd ⟨p, rfl, hslow⟩ hnot⟩
      unfold activateSafeMode
      split <;> rfl
    · simp only [if_neg hslow]
      refine ⟨fun ⟨q, hq, hover⟩ => absurd (Option.some.inj hq ▸ hover) hslow, fun _ => ?_⟩
      split <;> rfl

theorem enforceBudget_tickLatencies (s : MarketPerfMonitor) (now : ℚ) (ranking : Ranking) :
    (s.enforceBudget now ranking).1.tickLatencies = s.tickLatencies := by
  unfold enforceBudget activateSafeMode
  dsimp only
  split
  · rfl
  · split
    · rfl
    · split
      · split <;> rfl
      · split <;> rfl

/-- The reason of slow ticks is written over any other. -/
theorem activateSafeMode_slow {s : MarketPerfMonitor} {st : HealthState}
    {measured : Option (ℚ × ℚ)} (hr : Records s.safeMode st measured) :
    (s.activateSafeMode "Tick P99 exceeded budget" (7 / 10) [.TIER_3]).safeMode = slowMode := by
  unfold activateSafeMode
  split
  · next hsame => exact (bySlowTicks_iff hr).mp hsame
  · rfl

/-- A bad report is the reason from then on. -/
theorem onHealthStateChange_bad {s : MarketPerfMonitor} {st : HealthState}
    {measured : Option (ℚ × ℚ)} (hr : Records s.safeMode st measured) :
    (s.onHealthStateChange .CRITICAL).safeMode = criticalMode ∧
      (s.onHealthStateChange .DEGRADED).safeMode = degradedMode := by
  obtain ⟨tickLatencies, safeMode, shedMarkets, lastBudgetCheck⟩ := s
  cases hr with
  | off hm => obtain rfl := hm; exact ⟨rfl, rfl⟩
  | critical hm => obtain rfl := hm; exact ⟨rfl, rfl⟩
  | degraded hm => obtain rfl := hm; exact ⟨rfl, rfl⟩
  | slow hm => obtain rfl := hm; exact ⟨rfl, rfl⟩

/-- Which of the records a HEALTHY report clears. -/
theorem cleared_records :
    (criticalMode.active && "System health".toList.isPrefixOf criticalMode.reason.toList) = true ∧
    (degradedMode.active && "System health".toList.isPrefixOf degradedMode.reason.toList) = true ∧
    (slowMode.active && "System health".toList.isPrefixOf slowMode.reason.toList) = false := by
  decide

/-- A HEALTHY report ends safe mode, unless slow ticks are the reason. -/
theorem onHealthStateChange_healthy {s : MarketPerfMonitor} {st : HealthState}
    {measured : Option (ℚ × ℚ)} (hr : Records s.safeMode st measured) :
    (s.onHealthStateChange .HEALTHY).safeMode = if s.safeMode = slowMode then slowMode else {} := by
  obtain ⟨hcritical, hdegraded, hslow⟩ := cleared_records
  unfold onHealthStateChange deactivateSafeMode
  dsimp only
  cases hr with
  | off hm => rw [hm, if_neg (by decide), if_neg (by decide), hm]
  | critical hm => rw [hm, hcritical, if_pos rfl, if_pos (by decide), if_neg (by decide)]
  | degraded hm => rw [hm, hdegraded, if_pos rfl, if_pos (by decide), if_neg (by decide)]
  | slow hm => rw [hm, hslow, if_neg (by decide), if_pos rfl, hm]

theorem onHealthStateChange_tickLatencies (s : MarketPerfMonitor) (state : HealthState) :
    (s.onHealthStateChange state).tickLatencies = s.tickLatencies := by
  unfold onHealthStateChange activateSafeMode deactivateSafeMode
  cases state with
  | HEALTHY =>
    dsimp only
    split
    · split <;> rfl
    · rfl
  | DEGRADED => dsimp only; split <;> rfl
  | CRITICAL => dsimp only; split <;> rfl

/-! ## The invariant gives the property -/

theorem enforces_self (m : SafeModeState) :
    Enforces m m.globalSizeMultiplier m.disabledTiers :=
  ⟨le_rfl, fun _ htier => htier⟩

theorem enforces_critical : Enforces criticalMode (7 / 10) [.TIER_3] :=
  ⟨by decide +kernel, by decide⟩

theorem asStrict_of_records {s : MarketPerfMonitor} {h : List PerfEvent}
    (hr : Records s.safeMode (health h) (lastMeasured h)) : AsStrict s h := by
  cases hr with
  | off hm hst hover =>
    exact ⟨fun hc => (nomatch hst.symm.trans hc), fun hd => (nomatch hst.symm.trans hd),
      fun hslow => absurd hslow hover⟩
  | critical hm hst =>
    exact ⟨fun _ => hm ▸ enforces_self criticalMode, fun _ => hm ▸ enforces_critical,
      fun _ => hm ▸ enforces_critical⟩
  | degraded hm hst =>
    exact ⟨fun hc => (nomatch hst.symm.trans hc), fun _ => hm ▸ enforces_self degradedMode,
      fun _ => hm ▸ enforces_self degradedMode⟩
  | slow hm hst =>
    exact ⟨fun hc => absurd hc hst, fun _ => hm ▸ enforces_self slowMode,
      fun _ => hm ▸ enforces_self slowMode⟩

/-- Fast ticks are not found slow. -/
theorem not_overP99_of_withinBudget {s : MarketPerfMonitor} {now : ℚ}
    (hw : WithinBudget s.tickLatencies) : ¬ overP99 (s.measured now) := by
  rintro ⟨p, hp, hover⟩
  unfold measured at hp
  split at hp
  · cases hp
  · exact absurd hover (not_lt.mpr (hw p hp).2)

/-- Once the causes are gone, safe mode ends unless slow ticks are the reason. -/
theorem recovers_iff {s : MarketPerfMonitor} {h : List PerfEvent}
    (hr : Records s.safeMode (health h) (lastMeasured h)) :
    Recovers s h ↔
      (health h = .HEALTHY → s.safeMode = slowMode → ¬ WithinBudget s.tickLatencies) := by
  -- a check of fast ticks leaves safe mode to the report
  have hafter : WithinBudget s.tickLatencies → ∀ now ranking,
      ((s.enforceBudget now ranking).1.onHealthStateChange .HEALTHY).safeMode =
        if s.safeMode = slowMode then slowMode else {} := by
    intro hw now ranking
    have hsame := (enforceBudget_safeMode s now ranking).2 (not_overP99_of_withinBudget hw)
    rw [onHealthStateChange_healthy (hsame.symm ▸ hr), hsame]
  constructor
  · intro hrec hst hm hw
    have hend := hrec hst hw (s.lastBudgetCheck + 1000) (fun _ _ => []) (by linarith)
    rw [hafter hw, if_pos hm] at hend
    cases hend
  · intro hslow hst hw now ranking _
    rw [hafter hw, if_neg fun hm => hslow hst hm hw]

theorem safeModeRight_of_inv {s : MarketPerfMonitor} {h : List PerfEvent}
    (hI : SafeModeInv s h) : SafeModeRight s h :=
  ⟨asStrict_of_records hI.records, (recovers_iff hI.records).mpr hI.slow⟩

/-! ## Steps -/

variable {s : MarketPerfMonitor} {h : List PerfEvent}

/-- A latency changes no cause yet. -/
theorem safeModeInv_recordTickLatency {ms : JsNumber} (hI : SafeModeInv s h)
    (hC : CausesApart s h (.recordTickLatency ms)) : SafeModeInv (s.recordTickLatency ms) h := by
  have hmode := recordTickLatency_safeMode s ms
  constructor
  · rw [hmode]
    exact hI.records
  · intro hst hm hw
    rw [hmode] at hm
    exact hC ⟨hst, (bySlowTicks_iff hI.records).mpr hm, hw⟩

theorem safeModeInv_enforceBudget {now : ℚ} {ranking : Ranking} {status : TickBudgetStatus}
    (hI : SafeModeInv s h) (hC : CausesApart s h (.enforceBudget now ranking)) :
    SafeModeInv (s.enforceBudget now ranking).1
      (h ++ [PerfEvent.checked (s.measured now) status]) := by
  obtain ⟨hslow, hsame⟩ := enforceBudget_safeMode s now ranking
  have hticks := enforceBudget_tickLatencies s now ranking
  by_cases hover : overP99 (s.measured now)
  · -- slow ticks are the reason from now on, and health is not CRITICAL
    have hm := (hslow hover).trans (activateSafeMode_slow hI.records)
    constructor
    · rw [health_snoc]
      exact .slow hm fun hst => hC ⟨hst, hover⟩
    · rw [hticks]
      exact fun _ _ hw => not_overP99_of_withinBudget hw hover
  · constructor
    · rw [hsame hover, health_snoc, lastMeasured_snoc]
      cases hmeasured : s.measured now with
      | none => exact hI.records
      | some p =>
        rw [hmeasured] at hover
        cases hI.records with
        | off hm hst => exact .off hm hst hover
        | critical hm hst => exact .critical hm hst
        | degraded hm hst => exact .degraded hm hst
        | slow hm hst => exact .slow hm hst
    · rw [hsame hover, hticks, health_snoc]
      exact hI.slow

theorem safeModeInv_onHealthStateChange {state : HealthState} (hI : SafeModeInv s h)
    (hC : CausesApart s h (.onHealthStateChange state)) :
    SafeModeInv (s.onHealthStateChange state) (h ++ [PerfEvent.reported state]) := by
  obtain ⟨hcritical, hdegraded⟩ := onHealthStateChange_bad hI.records
  have hhealthy := onHealthStateChange_healthy hI.records
  have hst : health (h ++ [PerfEvent.reported state]) = state := health_snoc h _
  cases state with
  | CRITICAL => exact ⟨.critical hcritical hst, fun hfine => (nomatch hst.symm.trans hfine)⟩
  | DEGRADED => exact ⟨.degraded hdegraded hst, fun hfine => (nomatch hst.symm.trans hfine)⟩
  | HEALTHY =>
    obtain ⟨hfast, hended⟩ := hC
    by_cases hm : s.safeMode = slowMode
    · rw [if_pos hm] at hhealthy
      refine ⟨.slow hhealthy (by rw [hst]; decide), fun _ _ hw => ?_⟩
      rw [onHealthStateChange_tickLatencies] at hw
      exact hfast ⟨(bySlowTicks_iff hI.records).mpr hm, hw⟩
    · rw [if_neg hm] at hhealthy
      refine ⟨.off hhealthy hst fun hover => ?_, fun _ hslow => ?_⟩
      · rw [lastMeasured_snoc] at hover
        cases hI.records with
        | off _ _ hnot => exact hnot hover
        | critical hc => exact hended ⟨by rw [hc]; rfl, by rwa [bySlowTicks_iff hI.records], hover⟩
        | degraded hc => exact hended ⟨by rw [hc]; rfl, by rwa [bySlowTicks_iff hI.records], hover⟩
        | slow hc => exact hm hc
      · rw [hhealthy] at hslow
        cases hslow

/-- Steps that keep the causes apart keep the invariant. -/
theorem safeModeInv_step {a : PerfCall} (hI : SafeModeInv s h) (hC : CausesApart s h a) :
    SafeModeInv (s.call a).1 (h ++ (s.call a).2) := by
  cases a with
  | recordTickLatency ms =>
    rw [call, List.append_nil]
    exact safeModeInv_recordTickLatency hI hC
  | enforceBudget now ranking => exact safeModeInv_enforceBudget hI hC
  | onHealthStateChange state => exact safeModeInv_onHealthStateChange hI hC

/-- The others lead to a safe mode that is too weak or does not end. -/
theorem not_right_of_causes {a : PerfCall} (hI : SafeModeInv s h) (hC : ¬ CausesApart s h a) :
    ¬ SafeModeRight (s.call a).1 (h ++ (s.call a).2) := by
  cases a with
  | recordTickLatency ms =>
    rw [CausesApart, not_not] at hC
    obtain ⟨hst, hslow, hw⟩ := hC
    rw [call, List.append_nil]
    rintro ⟨-, hrec⟩
    have hmode := recordTickLatency_safeMode s ms
    have hr : Records (s.recordTickLatency ms).safeMode (health h) (lastMeasured h) := by
      rw [hmode]
      exact hI.records
    exact (recovers_iff hr).mp hrec hst
      (hmode.trans ((bySlowTicks_iff hI.records).mp hslow)) hw
  | enforceBudget now ranking =>
    rw [CausesApart, not_not] at hC
    obtain ⟨hst, hover⟩ := hC
    rintro ⟨hstrict, -⟩
    have hm : (s.enforceBudget now ranking).1.safeMode = slowMode :=
      ((enforceBudget_safeMode s now ranking).1 hover).trans (activateSafeMode_slow hI.records)
    have hsize := (hstrict.critical (by rw [call, health_snoc]; exact hst)).size
    rw [call, hm] at hsize
    exact absurd hsize (by decide +kernel)
  | onHealthStateChange state =>
    cases state with
    | CRITICAL => exact absurd trivial hC
    | DEGRADED => exact absurd trivial hC
    | HEALTHY =>
      have hhealthy := onHealthStateChange_healthy hI.records
      rw [CausesApart, ← not_or, not_not] at hC
      rintro ⟨hstrict, hrec⟩
      have hst : health (h ++ (s.call (.onHealthStateChange .HEALTHY)).2) = .HEALTHY :=
        health_snoc h _
      rcases hC with ⟨hslow, hw⟩ | ⟨-, hother, hover⟩
      · have hm := (bySlowTicks_iff hI.records).mp hslow
        rw [if_pos hm] at hhealthy
        refine (recovers_iff (.slow hhealthy (by rw [hst]; decide))).mp hrec hst hhealthy ?_
        show WithinBudget (s.onHealthStateChange .HEALTHY).tickLatencies
        rw [onHealthStateChange_tickLatencies]
        exact hw
      · rw [bySlowTicks_iff hI.records] at hother
        rw [if_neg hother] at hhealthy
        have hsize := (hstrict.slow (by rw [call, lastMeasured_snoc]; exact hover)).size
        rw [call, hhealthy] at hsize
        exact absurd hsize (by decide +kernel)

/-- **Safe mode.** All along a run safe mode is as strict as its causes ask for, and ends
once they are gone, exactly if the causes stay apart: no check finds slow ticks while
health is CRITICAL, no HEALTHY report comes while the last check found slow ticks and
another report is the reason, and the ticks are not fast again while slow ticks are the
reason and health is HEALTHY. -/
theorem safeModeRight_iff (as : List PerfCall) :
    perfMonitor.Always SafeModeRight perfMonitor.init [] as ↔
      perfMonitor.Along CausesApart perfMonitor.init [] as := by
  refine Machine.always_iff_along (I := SafeModeInv) safeModeRight_of_inv ?_ ?_
    ⟨.off rfl rfl (by rintro ⟨p, hp, -⟩; cases hp), fun _ hm => by cases hm⟩ as
  · intro s h a s' es hI hC hs
    obtain ⟨rfl, rfl⟩ := Machine.some_pair hs
    exact safeModeInv_step hI hC
  · intro s h a s' es hI hC hs
    obtain ⟨rfl, rfl⟩ := Machine.some_pair hs
    exact not_right_of_causes hI hC

/-- A check that finds slow ticks raises the multiplier of a CRITICAL health from 0.5 to
0.7. -/
theorem not_safeModeRight : ¬ ∀ s h, perfMonitor.Reachable s h → SafeModeRight s h := by
  intro hall
  have hrun : (perfMonitor.run (.onHealthStateChange .CRITICAL ::
      List.replicate 10 (.recordTickLatency (.finite 6000)) ++
      [.enforceBudget 100000 fun _ _ => []])).map (fun p => (p.1.safeMode, health p.2)) =
      some (slowMode, .CRITICAL) := by
    decide +kernel
  obtain ⟨⟨s, h⟩, hs, hend⟩ := Option.map_eq_some_iff.mp hrun
  obtain ⟨hmode, hst⟩ := Prod.mk.inj hend
  have hsize := ((hall s h (Machine.reachable_of_run hs)).1.critical hst).size
  dsimp only at hmode
  rw [hmode] at hsize
  exact absurd hsize (by decide +kernel)

end MarketPerfMonitor

end FlashEdge
