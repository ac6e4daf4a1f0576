import FlashEdge.Js
import FlashEdge.Theory.Machine
import FlashEdge.Theory.OrderedMap
import Mathlib.Tactic.Linarith

/-!
# The risk monitor (`monitor/risk-monitor.ts`)

Every tick assesses the open positions by their distance to liquidation and prints
alerts. The level of a position depends on the level before it, so that it does not
flicker at a threshold; what the monitor remembers for that is the level of the last
alert, in `lastAlertLevel`.

A position is known by its market and side, so the positions of a tick are a map. A
tick reads the clock, the health of the system and, when the cached positions are old,
the client; each of them is part of the action.
-/

namespace FlashEdge

namespace RiskMonitor

inductive RiskLevel where
  | Safe
  | Warning
  | Critical
deriving DecidableEq, Repr

def SAFE_ENTER : ℚ := 3 / 10
def SAFE_RECOVER : ℚ := 35 / 100
def WARNING_ENTER : ℚ := 15 / 100
def WARNING_RECOVER : ℚ := 18 / 100

def POSITION_INTERVAL_MS : ℚ := 20000
def MAX_POSITION_STALE_MS : ℚ := 120000

/-- The market and the side. -/
abbrev PositionKey := String × TradeSide

/-- What is read of a position to assess it. -/
structure Position where
  markPrice : JsNumber
  currentPrice : JsNumber
  entryPrice : JsNumber
  liquidationPrice : JsNumber
  collateralUsd : JsNumber
  sizeUsd : JsNumber
deriving DecidableEq, Repr

structure PositionRisk where
  distanceToLiquidation : ℚ
  riskLevel : RiskLevel
deriving DecidableEq, Repr

/-- What is printed for a position. -/
inductive RiskAlert where
  | recovered
  | warning
  | critical
deriving DecidableEq, Repr

end RiskMonitor

open RiskMonitor

structure RiskMonitor where
  lastAlertLevel : OrderedMap PositionKey RiskLevel := .empty
  cachedPositions : OrderedMap PositionKey Position := .empty
  lastPositionFetch : ℚ := 0
  tickCount : ℕ := 0
deriving DecidableEq

namespace RiskMonitor

/-! ## One position -/

/-- `safeNumber(x, 0)`. -/
def safeNumber : JsNumber → ℚ
  | .finite q => q
  | _ => 0

/-- The numbers of a position that is assessed at all. -/
def isValid (p : Position) : Bool :=
  p.sizeUsd.finitePositive?.isSome && p.collateralUsd.finitePositive?.isSome &&
    p.entryPrice.finitePositive?.isSome

/-- The price that a position is assessed at. -/
def assessedPrice (p : Position) : ℚ :=
  safeNumber (if p.markPrice.isPositive then p.markPrice else p.currentPrice)

/-- How far the price is from the liquidation price, as a part of the price; 1 if
nothing is known. -/
def distanceToLiquidation (p : Position) : ℚ :=
  let currentPrice := assessedPrice p
  let liqPrice := safeNumber p.liquidationPrice
  let distance := if 0 < liqPrice ∧ 0 < currentPrice then |currentPrice - liqPrice| / currentPrice
    else 1
  min (max distance 0) 1

/-- Entering a worse level takes a smaller distance than leaving it. -/
def classifyRiskWithHysteresis (distance : ℚ) : RiskLevel → RiskLevel
  | .Safe =>
    if distance < WARNING_ENTER then .Critical
    else if distance < SAFE_ENTER then .Warning
    else .Safe
  | .Warning =>
    if distance < WARNING_ENTER then .Critical
    else if SAFE_RECOVER < distance then .Safe
    else .Warning
  | .Critical =>
    if SAFE_RECOVER < distance then .Safe
    else if WARNING_RECOVER < distance then .Warning
    else .Critical

/-- The level is chosen by the level of the last alert. -/
def assessPosition (s : RiskMonitor) (key : PositionKey) (p : Position) : PositionRisk :=
  -- values that are missing
  if assessedPrice p ≤ 0 ∨ safeNumber p.entryPrice ≤ 0 ∨ safeNumber p.sizeUsd ≤ 0 then
    { distanceToLiquidation := 1, riskLevel := .Safe }
  else
    let distance := distanceToLiquidation p
    let prevLevel := (s.lastAlertLevel.get? key).getD .Safe
    { distanceToLiquidation := distance
      riskLevel := classifyRiskWithHysteresis distance prevLevel }

/-! ## Alerts -/

/-- One position: the level to remember, if one is written, and the alert. -/
def emitAlert (prevLevel : Option RiskLevel) (riskLevel : RiskLevel) :
    Option RiskLevel × Option RiskAlert :=
  if riskLevel = .Safe then
    (some .Safe, if prevLevel ≠ none ∧ prevLevel ≠ some .Safe then some .recovered else none)
  -- the same level as the last alert, or a better one
  else if prevLevel = some riskLevel then (none, none)
  else if prevLevel = some .Critical ∧ riskLevel = .Warning then (none, none)
  else (some riskLevel, some (if riskLevel = .Critical then .critical else .warning))

/-- The position of one entry. -/
def emitFor (state : OrderedMap PositionKey RiskLevel × List (PositionKey × RiskAlert))
    (entry : PositionKey × PositionRisk) :
    OrderedMap PositionKey RiskLevel × List (PositionKey × RiskAlert) :=
  let (level, alert) := emitAlert (state.1.get? entry.1) entry.2.riskLevel
  (match level with
    | some level => state.1.set entry.1 level
    | none => state.1,
    state.2 ++ (alert.map fun alert => (entry.1, alert)).toList)

/-- All positions, and then what is remembered of positions that are gone is dropped. -/
def emitAlerts (s : RiskMonitor) (assessed : OrderedMap PositionKey PositionRisk) :
    RiskMonitor × List (PositionKey × RiskAlert) :=
  let (levels, alerts) := assessed.entries.foldl emitFor (s.lastAlertLevel, [])
  ({ s with lastAlertLevel := levels.filter fun key _ => assessed.has key }, alerts)

/-! ## Ticks -/

/-- What a tick reports: the assessed positions, and the alerts. -/
structure RiskTick where
  assessed : OrderedMap PositionKey PositionRisk
  alerts : List (PositionKey × RiskAlert) := []
deriving DecidableEq

/-- A tick: the time, whether the system's health is critical, and what the client would
answer, `none` if it fails. -/
structure TickInput where
  now : ℚ
  critical : Bool := false
  fetched : Option (OrderedMap PositionKey Position)

/-- The positions of a tick; none if they are too old. -/
def tickPositions (s : RiskMonitor) (input : TickInput) :
    RiskMonitor × Option (OrderedMap PositionKey Position) :=
  let positionAge := input.now - s.lastPositionFetch
  if POSITION_INTERVAL_MS ≤ positionAge ∨ s.cachedPositions.size = 0 then
    match input.fetched with
    | some positions =>
      ({ s with cachedPositions := positions, lastPositionFetch := input.now }, some positions)
    | none =>
      if MAX_POSITION_STALE_MS < positionAge then (s, none) else (s, some s.cachedPositions)
  else (s, some s.cachedPositions)

/-- The positions are assessed. -/
def assessAll (s : RiskMonitor) (positions : OrderedMap PositionKey Position) :
    RiskMonitor × RiskTick :=
  if positions.size = 0 then (s, { assessed := .empty })
  else
    let assessed := (positions.filter fun _ p => isValid p).mapValues (assessPosition s)
    let (s, alerts) := s.emitAlerts assessed
    (s, { assessed, alerts })

/-- `_tick`; ticks that are skipped report nothing. -/
def tick (s : RiskMonitor) (input : TickInput) : RiskMonitor × List RiskTick :=
  let s := { s with tickCount := s.tickCount + 1 }
  -- under pressure only every fourth tick runs
  if input.critical ∧ s.tickCount % 4 ≠ 0 then (s, [])
  else
    match s.tickPositions input with
    | (s, some positions) =>
      let (s, report) := s.assessAll positions
      (s, [report])
    | (s, none) => (s, [])

end RiskMonitor

/-- A monitor that has been started, tick after tick. -/
def riskMonitor : Machine RiskMonitor TickInput RiskTick where
  init := {}
  step s input := some (s.tick input)

end FlashEdge
