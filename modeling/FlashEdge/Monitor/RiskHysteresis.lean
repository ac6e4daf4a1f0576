import FlashEdge.Monitor.RiskMonitor
import FlashEdge.Theory.Machine

/-!
# Levels that do not flicker, alerts that are not lost

The level a position is reported at should follow an automaton that runs from SAFE and
reads one distance per tick (`documented`), and a tick that reports CRITICAL after one
that did not should alert (`TickRight`). The monitor reads both from the level of the
last alert, which a partial recovery from CRITICAL to WARNING leaves at CRITICAL, and
which a tick without positions leaves as it is. `followsHysteresis_iff` says when that
makes no difference.
-/

namespace FlashEdge

open RiskMonitor

/-- The documented automaton: worse below 30% and 15%, better above 35% and 18%. -/
def documented (level : RiskLevel) (distance : ℚ) : RiskLevel :=
  if distance < 15 / 100 then .Critical
  else
    match level with
    | .Safe => if distance < 30 / 100 then .Warning else .Safe
    | .Warning => if 35 / 100 < distance then .Safe else .Warning
    | .Critical =>
      if 35 / 100 < distance then .Safe
      else if 18 / 100 < distance then .Warning
      else .Critical

/-- The level of a position at the last tick; SAFE if it was not assessed then. -/
def reported (h : List RiskTick) (key : PositionKey) : RiskLevel :=
  match h.getLast? with
  | some t => ((t.assessed.get? key).map PositionRisk.riskLevel).getD .Safe
  | none => .Safe

/-- Every position's level follows the automaton, and a CRITICAL one that was not at the
last tick has its alert. -/
def TickRight (h : List RiskTick) (t : RiskTick) : Prop :=
  ∀ key r, t.assessed.get? key = some r →
    r.riskLevel = documented (reported h key) r.distanceToLiquidation ∧
    (r.riskLevel = .Critical → reported h key ≠ .Critical → (key, .critical) ∈ t.alerts)

/-- All ticks so far are right. -/
def FollowsHysteresis (_ : RiskMonitor) (h : List RiskTick) : Prop := Each TickRight h

/-! ## One position -/

theorem classify_eq_documented (distance : ℚ) (level : RiskLevel) :
    classifyRiskWithHysteresis distance level = documented level distance := by
  have hlow : WARNING_ENTER = 15 / 100 := rfl
  have hmid : WARNING_RECOVER = 18 / 100 := rfl
  have hsafe : SAFE_ENTER = 30 / 100 := by norm_num [SAFE_ENTER]
  have hhigh : SAFE_RECOVER = 35 / 100 := rfl
  unfold documented
  cases level with
  | Safe => simp only [classifyRiskWithHysteresis, hlow, hsafe]
  | Warning => simp only [classifyRiskWithHysteresis, hlow, hhigh]
  | Critical =>
    simp only [classifyRiskWithHysteresis, hmid, hhigh]
    by_cases hd : distance < 15 / 100
    · rw [if_pos hd, if_neg (by linarith), if_neg (by linarith)]
    · rw [if_neg hd]

/-- The level of the last alert. -/
def alerted (s : RiskMonitor) (key : PositionKey) : RiskLevel :=
  (s.lastAlertLevel.get? key).getD .Safe

/-- What the code remembers is at least as bad as what it reported. -/
structure Covers (alerted reported : RiskLevel) : Prop where
  critical : reported = .Critical → alerted = .Critical
  safe : alerted = .Safe → reported = .Safe

/-- A position at which the remembered level leads astray: remembered as CRITICAL, though
no longer reported so, it falls to 18% or below; or remembered as not safe, though
reported as SAFE, it is between 30% and 35%. -/
def Relapse (alerted reported : RiskLevel) (distance : ℚ) : Prop :=
  (alerted = .Critical ∧ reported ≠ .Critical ∧ distance ≤ 18 / 100) ∨
  (alerted ≠ .Safe ∧ reported = .Safe ∧ 30 / 100 ≤ distance ∧ distance ≤ 35 / 100)

/-- The level is the documented one and a new CRITICAL is not taken for an old one,
unless the position relapses. -/
theorem right_iff_not_relapse {alerted reported : RiskLevel} (hc : Covers alerted reported)
    (distance : ℚ) :
    (documented alerted distance = documented reported distance ∧
      (documented alerted distance = .Critical → reported ≠ .Critical → alerted ≠ .Critical)) ↔
    ¬ Relapse alerted reported distance := by
  unfold Relapse
  cases alerted with
  | Safe =>
    obtain rfl := hc.safe rfl
    simp
  | Warning =>
    cases reported with
    | Safe => grind [documented]
    | Warning => simp
    | Critical => exact absurd (hc.critical rfl) (by decide)
  | Critical =>
    cases reported with
    | Safe => grind [documented]
    | Warning => grind [documented]
    | Critical => simp

/-! ## All positions of a tick -/

/-- What is remembered of a position after its turn. -/
def remembered (prevLevel : Option RiskLevel) (riskLevel : RiskLevel) : Option RiskLevel :=
  (emitAlert prevLevel riskLevel).1.or prevLevel

/-- A partial recovery is not remembered. -/
theorem remembered_eq (prevLevel : Option RiskLevel) (riskLevel : RiskLevel) :
    remembered prevLevel riskLevel =
      some (if prevLevel = some .Critical ∧ riskLevel = .Warning then .Critical
        else riskLevel) := by
  rcases prevLevel with _ | _ | _ | _ <;> cases riskLevel <;> rfl

theorem critical_alert_iff (prevLevel : Option RiskLevel) (riskLevel : RiskLevel) :
    (emitAlert prevLevel riskLevel).2 = some .critical ↔
      riskLevel = .Critical ∧ prevLevel ≠ some .Critical := by
  rcases prevLevel with _ | _ | _ | _ <;> cases riskLevel <;> simp [emitAlert]

theorem get?_emitFor (state : OrderedMap PositionKey RiskLevel × List (PositionKey × RiskAlert))
    (entry : PositionKey × PositionRisk) (key : PositionKey) :
    (emitFor state entry).1.get? key =
      if key = entry.1 then remembered (state.1.get? key) entry.2.riskLevel
      else state.1.get? key := by
  unfold emitFor remembered
  dsimp only
  split
  · next level hlevel =>
    by_cases hkey : key = entry.1
    · rw [if_pos hkey, hkey, hlevel, OrderedMap.get?_set_self]
      rfl
    · rw [if_neg hkey, OrderedMap.get?_set_of_ne hkey]
  · next hlevel =>
    by_cases hkey : key = entry.1
    · rw [if_pos hkey, hkey, hlevel]
      rfl
    · rw [if_neg hkey]

/-- The alert of a position, if there is one, is added. -/
theorem mem_emitFor {state : OrderedMap PositionKey RiskLevel × List (PositionKey × RiskAlert)}
    {entry : PositionKey × PositionRisk} {key : PositionKey} {alert : RiskAlert} :
    (key, alert) ∈ (emitFor state entry).2 ↔ (key, alert) ∈ state.2 ∨
      (key = entry.1 ∧ (emitAlert (state.1.get? key) entry.2.riskLevel).2 = some alert) := by
  unfold emitFor
  dsimp only
  rw [List.mem_append, Option.mem_toList]
  refine or_congr_right ⟨fun h => ?_, fun ⟨hkey, halert⟩ => ?_⟩
  · obtain ⟨a, ha, heq⟩ := Option.map_eq_some_iff.mp h
    obtain ⟨rfl, rfl⟩ := Prod.mk.inj heq
    exact ⟨rfl, ha⟩
  · rw [hkey] at halert
    rw [halert, hkey]
    rfl

/-- Each position has its turn once. -/
theorem foldl_emitFor {entries : List (PositionKey × PositionRisk)}
    (hnodup : (entries.map Prod.fst).Nodup)
    (state : OrderedMap PositionKey RiskLevel × List (PositionKey × RiskAlert))
    {key : PositionKey} {r : PositionRisk} (hr : (key, r) ∈ entries) :
    (entries.foldl emitFor state).1.get? key =
        remembered (state.1.get? key) r.riskLevel ∧
      ∀ alert, (key, alert) ∈ (entries.foldl emitFor state).2 ↔ (key, alert) ∈ state.2 ∨
        (emitAlert (state.1.get? key) r.riskLevel).2 = some alert := by
  -- a position that is not among the entries is left alone
  have hother : ∀ (entries : List (PositionKey × PositionRisk)) state,
      key ∉ entries.map Prod.fst → (entries.foldl emitFor state).1.get? key = state.1.get? key ∧
        ∀ alert, (key, alert) ∈ (entries.foldl emitFor state).2 ↔ (key, alert) ∈ state.2 := by
    intro entries
    induction entries with
    | nil => exact fun state _ => ⟨rfl, fun _ => Iff.rfl⟩
    | cons entry entries ih =>
      intro state hkey
      rw [List.map_cons, List.mem_cons, not_or] at hkey
      obtain ⟨hget, halerts⟩ := ih (emitFor state entry) hkey.2
      refine ⟨hget.trans ((get?_emitFor state entry key).trans (if_neg hkey.1)), fun alert => ?_⟩
      rw [List.foldl_cons, halerts, mem_emitFor]
      exact ⟨fun h => h.elim id fun ⟨h, _⟩ => absurd h hkey.1, .inl⟩
  induction entries generalizing state with
  | nil => cases hr
  | cons entry entries ih =>
    rw [List.map_cons, List.nodup_cons] at hnodup
    rw [List.foldl_cons]
    rcases List.mem_cons.mp hr with rfl | hr
    · obtain ⟨hget, halerts⟩ := hother entries (emitFor state (key, r)) hnodup.1
      refine ⟨hget.trans ((get?_emitFor state (key, r) key).trans (if_pos rfl)), fun alert => ?_⟩
      rw [halerts, mem_emitFor]
      exact or_congr_right (and_iff_right rfl)
    · have hne : key ≠ entry.1 := by
        rintro rfl
        exact hnodup.1 (List.mem_map.mpr ⟨_, hr, rfl⟩)
      obtain ⟨hget, halerts⟩ := ih hnodup.2 (emitFor state entry) hr
      rw [get?_emitFor, if_neg hne] at hget halerts
      refine ⟨hget, fun alert => (halerts alert).trans ?_⟩
      rw [mem_emitFor]
      exact or_congr_left ⟨fun h => h.elim id fun ⟨h, _⟩ => absurd h hne, .inl⟩

theorem emitAlerts_spec (s : RiskMonitor) (assessed : OrderedMap PositionKey PositionRisk)
    {key : PositionKey} {r : PositionRisk} (hr : assessed.get? key = some r) :
    (s.emitAlerts assessed).1.lastAlertLevel.get? key =
        remembered (s.lastAlertLevel.get? key) r.riskLevel ∧
      ∀ alert, (key, alert) ∈ (s.emitAlerts assessed).2 ↔
        (emitAlert (s.lastAlertLevel.get? key) r.riskLevel).2 = some alert := by
  obtain ⟨hget, halerts⟩ := foldl_emitFor assessed.nodup (s.lastAlertLevel, [])
    (OrderedMap.get?_eq_some_iff.mp hr)
  have hhas : assessed.has key = true := by
    rw [OrderedMap.has, hr]
    rfl
  refine ⟨?_, fun alert => (halerts alert).trans (by simp)⟩
  rw [remembered_eq] at hget ⊢
  exact OrderedMap.get?_filter.mpr ⟨hget, hhas⟩

/-! ## Ticks -/

/-- How far a position is from its liquidation; 1 if values are missing. -/
def assessedDistance (p : Position) : ℚ :=
  if assessedPrice p ≤ 0 ∨ safeNumber p.entryPrice ≤ 0 ∨ safeNumber p.sizeUsd ≤ 0 then 1
  else distanceToLiquidation p

/-- The positions that a tick assesses; none if it is skipped. -/
def positionsAt (s : RiskMonitor) (input : TickInput) : OrderedMap PositionKey Position :=
  if input.critical ∧ (s.tickCount + 1) % 4 ≠ 0 then .empty
  else (((s.tickPositions input).2).getD .empty).filter fun _ p => isValid p

/-- No position of the tick relapses. -/
def NoRelapse (s : RiskMonitor) (h : List RiskTick) (input : TickInput) : Prop :=
  ∀ key p, (positionsAt s input).get? key = some p →
    ¬ Relapse (alerted s key) (reported h key) (assessedDistance p)

/-- The level comes from the distance and the level of the last alert. -/
theorem assessPosition_eq (s : RiskMonitor) (key : PositionKey) (p : Position) :
    s.assessPosition key p =
      { distanceToLiquidation := assessedDistance p
        riskLevel := documented (alerted s key) (assessedDistance p) } := by
  unfold assessPosition assessedDistance
  split
  · congr 1
    unfold documented
    cases alerted s key <;> norm_num
  · dsimp only
    rw [classify_eq_documented]
    rfl

theorem tickPositions_spec (s : RiskMonitor) (input : TickInput) (tickCount : ℕ) :
    ({ s with tickCount }.tickPositions input).1.lastAlertLevel = s.lastAlertLevel ∧
      ({ s with tickCount }.tickPositions input).2 = (s.tickPositions input).2 := by
  unfold tickPositions
  dsimp only
  split
  · split
    · exact ⟨rfl, rfl⟩
    · split <;> exact ⟨rfl, rfl⟩
  · exact ⟨rfl, rfl⟩

/-- A tick reports nothing, or that there are no positions, or assesses its positions. -/
theorem tick_cases (s : RiskMonitor) (input : TickInput) :
    ((s.tick input).1.lastAlertLevel = s.lastAlertLevel ∧ positionsAt s input = .empty ∧
      ((s.tick input).2 = [] ∨ (s.tick input).2 = [{ assessed := .empty }])) ∨
    ∃ s₁ : RiskMonitor, s₁.lastAlertLevel = s.lastAlertLevel ∧
      ∃ assessed, assessed = (positionsAt s input).mapValues (assessPosition s₁) ∧
        s.tick input = ((s₁.emitAlerts assessed).1,
          [{ assessed, alerts := (s₁.emitAlerts assessed).2 }]) := by
  obtain ⟨hlevels, hpositions⟩ := tickPositions_spec s input (s.tickCount + 1)
  unfold tick positionsAt
  dsimp only
  split
  · exact .inl ⟨rfl, rfl, .inl rfl⟩
  split
  · next s₁ positions htick =>
    rw [htick] at hlevels hpositions
    rw [← hpositions, Option.getD_some]
    unfold assessAll
    by_cases hsize : positions.size = 0
    · rw [if_pos hsize, OrderedMap.eq_empty_of_size hsize]
      exact .inl ⟨hlevels, rfl, .inr rfl⟩
    · rw [if_neg hsize]
      exact .inr ⟨s₁, hlevels, _, rfl, rfl⟩
  · next s₁ htick =>
    rw [htick] at hlevels hpositions
    rw [← hpositions]
    exact .inl ⟨hlevels, rfl, .inl rfl⟩

/-- What the monitor remembers of a position covers what it reported last. -/
structure MonitorInv (s : RiskMonitor) (h : List RiskTick) : Prop where
  right : Each TickRight h
  covers : ∀ key, Covers (alerted s key) (reported h key)

theorem reported_snoc (h : List RiskTick) (t : RiskTick) (key : PositionKey) :
    reported (h ++ [t]) key = ((t.assessed.get? key).map PositionRisk.riskLevel).getD .Safe := by
  unfold reported
  rw [List.getLast?_concat]

theorem covers_safe (level : RiskLevel) : Covers level .Safe where
  critical := fun h => nomatch h
  safe := fun _ => rfl

/-- What is remembered of a position after its turn. -/
theorem alerted_emitAlerts (s : RiskMonitor) {assessed : OrderedMap PositionKey PositionRisk}
    {key : PositionKey} {r : PositionRisk} (hr : assessed.get? key = some r) :
    Covers (alerted (s.emitAlerts assessed).1 key) r.riskLevel := by
  unfold alerted
  rw [(emitAlerts_spec s assessed hr).1, remembered_eq, Option.getD_some]
  split
  · next hpart =>
    rw [hpart.2]
    refine ⟨fun _ => rfl, fun hsafe => ?_⟩
    cases hsafe
  · exact ⟨id, id⟩

/-- A tick that assesses its positions is right exactly if none of them relapses. -/
theorem tickRight_iff {s s₁ : RiskMonitor} {h : List RiskTick} (hI : MonitorInv s h)
    (hlevels : s₁.lastAlertLevel = s.lastAlertLevel)
    {positions : OrderedMap PositionKey Position}
    {assessed : OrderedMap PositionKey PositionRisk}
    (hassessed : assessed = positions.mapValues (assessPosition s₁)) :
    TickRight h { assessed, alerts := (s₁.emitAlerts assessed).2 } ↔
      ∀ key p, positions.get? key = some p →
        ¬ Relapse (alerted s key) (reported h key) (assessedDistance p) := by
  have halerted : ∀ key, alerted s₁ key = alerted s key := fun key => by
    unfold alerted
    rw [hlevels]
  have hprev : ∀ key, s₁.lastAlertLevel.get? key ≠ some .Critical ↔ alerted s key ≠ .Critical := by
    intro key
    rw [hlevels, alerted]
    cases s.lastAlertLevel.get? key with
    | none => simp
    | some level => simp
  have hone : ∀ key p, positions.get? key = some p →
      ((∀ r, assessed.get? key = some r →
        r.riskLevel = documented (reported h key) r.distanceToLiquidation ∧
        (r.riskLevel = .Critical → reported h key ≠ .Critical →
          (key, RiskAlert.critical) ∈ (s₁.emitAlerts assessed).2)) ↔
      ¬ Relapse (alerted s key) (reported h key) (assessedDistance p)) := by
    intro key p hp
    have hr : assessed.get? key = some (assessPosition s₁ key p) := by
      rw [hassessed]
      exact OrderedMap.get?_mapValues.mpr ⟨p, hp, rfl⟩
    have halert := (emitAlerts_spec s₁ assessed hr).2 .critical
    rw [critical_alert_iff, hprev] at halert
    rw [← right_iff_not_relapse (hI.covers key), hr]
    simp only [Option.some.injEq, forall_eq', halert]
    rw [assessPosition_eq, halerted]
    exact and_congr_right fun _ =>
      ⟨fun hc hlevel hnew => (hc hlevel hnew).2, fun hc hlevel hnew => ⟨hlevel, hc hlevel hnew⟩⟩
  constructor
  · intro hright key p hp
    exact (hone key p hp).mp fun r hr => hright key r hr
  · intro hC key r hr
    have hmem := hr
    rw [hassessed, OrderedMap.get?_mapValues] at hmem
    obtain ⟨p, hp, -⟩ := hmem
    exact (hone key p hp).mpr (hC key p hp) r hr

/-- What a tick leaves behind covers what it reports. -/
theorem covers_tick {s : RiskMonitor} {h : List RiskTick} {input : TickInput}
    (hcovers : ∀ key, Covers (alerted s key) (reported h key)) (key : PositionKey) :
    Covers (alerted (s.tick input).1 key) (reported (h ++ (s.tick input).2) key) := by
  rcases tick_cases s input with ⟨hlevels, -, hnone | hempty⟩ | ⟨s₁, -, assessed, -, htick⟩
  · rw [hnone, List.append_nil, alerted, hlevels]
    exact hcovers key
  · rw [hempty, reported_snoc]
    exact covers_safe _
  · rw [htick, reported_snoc]
    cases hr : assessed.get? key with
    | none => exact covers_safe _
    | some r => exact alerted_emitAlerts s₁ hr

/-- A tick whose positions do not relapse reports what is right. -/
theorem monitorInv_step {s : RiskMonitor} {h : List RiskTick} {input : TickInput}
    (hI : MonitorInv s h) (hC : NoRelapse s h input) :
    MonitorInv (s.tick input).1 (h ++ (s.tick input).2) where
  covers := covers_tick hI.covers
  right := by
    rcases tick_cases s input with ⟨-, -, hnone | hempty⟩ | ⟨s₁, hlevels, assessed, heq, htick⟩
    · rw [hnone, List.append_nil]
      exact hI.right
    · rw [hempty]
      refine hI.right.snoc fun key r hr => ?_
      cases hr
    · rw [htick]
      exact hI.right.snoc ((tickRight_iff hI hlevels heq).mpr hC)

/-- A tick at which a position relapses does not. -/
theorem not_right_of_relapse {s : RiskMonitor} {h : List RiskTick} {input : TickInput}
    (hI : MonitorInv s h) (hC : ¬ NoRelapse s h input) :
    ¬ Each TickRight (h ++ (s.tick input).2) := by
  rcases tick_cases s input with ⟨-, hempty, -⟩ | ⟨s₁, hlevels, assessed, heq, htick⟩
  · -- without positions there is none to relapse
    refine absurd (fun key p hp => ?_) hC
    rw [hempty] at hp
    cases hp
  · rw [htick]
    intro hright
    exact hC ((tickRight_iff hI hlevels heq).mp (hright.of_split rfl))

/-- **Hysteresis.** All ticks of a run report the levels of the documented automaton and
alert whenever a position becomes CRITICAL exactly if no position relapses: remembered as
CRITICAL, but last reported otherwise, it falls to 18% or below, or remembered as not
SAFE, but last reported as SAFE, it is between 30% and 35%. -/
theorem followsHysteresis_iff (as : List TickInput) :
    riskMonitor.Always FollowsHysteresis riskMonitor.init [] as ↔
      riskMonitor.Along NoRelapse riskMonitor.init [] as := by
  refine Machine.always_iff_along (fun {_ _} hI => hI.right) ?_ ?_
    (I := MonitorInv) ⟨Each.nil, fun key => covers_safe _⟩ as
  · intro s h input s' es hI hC hs
    obtain ⟨rfl, rfl⟩ := Machine.some_pair hs
    exact monitorInv_step hI hC
  · intro s h input s' es hI hC hs
    obtain ⟨rfl, rfl⟩ := Machine.some_pair hs
    exact not_right_of_relapse hI hC

/-- A long position at a mark price of 100, and so far from its liquidation. -/
def positionAt (distance : ℚ) : OrderedMap PositionKey Position :=
  OrderedMap.empty.set ("SOL", .Long)
    { markPrice := .finite 100, currentPrice := .finite 100, entryPrice := .finite 120
      liquidationPrice := .finite (100 - 100 * distance), collateralUsd := .finite 50
      sizeUsd := .finite 100 }

/-- What a tick reports of one position. -/
def reportOf (distance : ℚ) (riskLevel : RiskLevel) (alerts : List RiskAlert) : RiskTick where
  assessed := OrderedMap.empty.set ("SOL", .Long) { distanceToLiquidation := distance, riskLevel }
  alerts := alerts.map fun alert => (("SOL", .Long), alert)

/-- At 10%, 20% and 10% a position is CRITICAL, WARNING and CRITICAL, and there is one
alert. -/
theorem not_followsHysteresis :
    ¬ ∀ s h, riskMonitor.Reachable s h → FollowsHysteresis s h := by
  intro hall
  let pre : List RiskTick :=
    [reportOf (1 / 10) .Critical [.critical], reportOf (2 / 10) .Warning []]
  have hrun : (riskMonitor.run
      [{ now := 20000, fetched := some (positionAt (1 / 10)) },
        { now := 40000, fetched := some (positionAt (2 / 10)) },
        { now := 60000, fetched := some (positionAt (1 / 10)) }]).map Prod.snd =
      some (pre ++ reportOf (1 / 10) .Critical [] :: []) := by
    decide +kernel
  obtain ⟨⟨s, h⟩, hs, hh⟩ := Option.map_eq_some_iff.mp hrun
  have hright := (hall s h (Machine.reachable_of_run hs)).of_split hh
  have halert := (hright ("SOL", .Long) { distanceToLiquidation := 1 / 10, riskLevel := .Critical }
    rfl).2 rfl (by decide)
  cases halert

end FlashEdge
