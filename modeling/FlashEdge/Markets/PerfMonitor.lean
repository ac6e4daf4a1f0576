import FlashEdge.Js
import FlashEdge.Theory.Machine
import Mathlib.Data.List.Sort

/-!
# The performance monitor of the markets (`markets/market-perf-monitor.ts`)

Slow ticks and bad health put the monitor into a safe mode, which reduces every size and
disables tiers of markets. The causes share one record: whichever fires last writes its
reason, and only a HEALTHY report, which looks at the reason, clears it.

The ranking by which markets are shed is a parameter of the budget check; it reads what
the trades of the session left behind.
-/

namespace FlashEdge

namespace MarketPerfMonitor

inductive MarketTier where
  | TIER_1
  | TIER_2
  | TIER_3
deriving DecidableEq, Repr

/-- What `onHealthStateChange` is told. -/
inductive HealthState where
  | HEALTHY
  | DEGRADED
  | CRITICAL
deriving DecidableEq, Repr

def MAX_SAMPLES : ℕ := 200
def TICK_BUDGET_P90_MS : ℚ := 2200
def TICK_BUDGET_P99_MS : ℚ := 5000

structure SafeModeState where
  active : Bool := false
  reason : String := ""
  globalSizeMultiplier : ℚ := 1
  disabledTiers : List MarketTier := []
deriving DecidableEq, Repr

structure TickBudgetStatus where
  withinBudget : Bool
  tickP90Ms : ℚ := 0
  tickP99Ms : ℚ := 0
  budgetP90Ms : ℚ := TICK_BUDGET_P90_MS
  budgetP99Ms : ℚ := TICK_BUDGET_P99_MS
  marketsShed : List String
  safeMode : Bool
deriving DecidableEq, Repr

/-- The markets that may still be shed, best first: `getRankedMarkets` without those that
are shed or disabled. -/
abbrev Ranking := SafeModeState → List String → List String

end MarketPerfMonitor

open MarketPerfMonitor

structure MarketPerfMonitor where
  tickLatencies : List ℚ := []
  safeMode : SafeModeState := {}
  shedMarkets : List String := []
  lastBudgetCheck : ℚ := 0
deriving DecidableEq, Repr

namespace MarketPerfMonitor

/-- Only the last latencies are kept. -/
def recordTickLatency (s : MarketPerfMonitor) : JsNumber → MarketPerfMonitor
  | .finite ms =>
    if ms < 0 then s
    else
      let tickLatencies := s.tickLatencies ++ [ms]
      { s with
        tickLatencies :=
          if MAX_SAMPLES < tickLatencies.length then tickLatencies.tail else tickLatencies }
  | _ => s

/-! ## Safe mode -/

/-- A reason that is the current one changes nothing. -/
def activateSafeMode (s : MarketPerfMonitor) (reason : String) (sizeMultiplier : ℚ)
    (disabledTiers : List MarketTier) : MarketPerfMonitor :=
  if s.safeMode.active ∧ s.safeMode.reason = reason then s
  else
    { s with
      safeMode :=
        { active := true, reason, globalSizeMultiplier := sizeMultiplier, disabledTiers } }

def deactivateSafeMode (s : MarketPerfMonitor) : MarketPerfMonitor :=
  if s.safeMode.active then { s with safeMode := {}, shedMarkets := [] } else s

def onHealthStateChange (s : MarketPerfMonitor) : HealthState → MarketPerfMonitor
  | .CRITICAL => s.activateSafeMode "System health CRITICAL" (1 / 2) [.TIER_2, .TIER_3]
  | .DEGRADED => s.activateSafeMode "System health DEGRADED" (7 / 10) [.TIER_3]
  | .HEALTHY =>
    if s.safeMode.active && "System health".toList.isPrefixOf s.safeMode.reason.toList then
      s.deactivateSafeMode
    else s

/-! ## The latency budget -/

/-- The worst `count` of the markets in the ranking are not scanned any more. -/
def shedLowestPriorityMarkets (s : MarketPerfMonitor) (ranking : Ranking) (count : ℕ) :
    MarketPerfMonitor :=
  let ranked := (ranking s.safeMode s.shedMarkets).filter fun m => m ∉ s.shedMarkets
  { s with shedMarkets := s.shedMarkets ++ ranked.drop (ranked.length - count) }

/-- One market per check comes back. -/
def restoreShedMarkets (s : MarketPerfMonitor) : MarketPerfMonitor :=
  { s with shedMarkets := s.shedMarkets.tail }

/-- P90 and P99 of the latencies; `none` if there are too few. -/
def percentiles (tickLatencies : List ℚ) : Option (ℚ × ℚ) :=
  if tickLatencies.length < 10 then none
  else
    let sorted := tickLatencies.insertionSort (· ≤ ·)
    some (sorted.getD (sorted.length * 9 / 10) 0, sorted.getD (sorted.length * 99 / 100) 0)

def enforceBudget (s : MarketPerfMonitor) (now : ℚ) (ranking : Ranking) :
    MarketPerfMonitor × TickBudgetStatus :=
  -- not more than once per second
  if now - s.lastBudgetCheck < 1000 then
    (s, { withinBudget := !s.safeMode.active, marketsShed := s.shedMarkets
          safeMode := s.safeMode.active })
  else
    let s := { s with lastBudgetCheck := now }
    match percentiles s.tickLatencies with
    | none => (s, { withinBudget := true, marketsShed := [], safeMode := s.safeMode.active })
    | some (p90, p99) =>
      let exceededP90 := TICK_BUDGET_P90_MS < p90
      let exceededP99 := TICK_BUDGET_P99_MS < p99
      let s :=
        if exceededP99 then
          (s.activateSafeMode "Tick P99 exceeded budget" (7 / 10)
            [.TIER_3]).shedLowestPriorityMarkets ranking 5
        else if exceededP90 then s.shedLowestPriorityMarkets ranking 3
        else s.restoreShedMarkets
      (s, { withinBudget := !decide exceededP90 && !decide exceededP99
            tickP90Ms := p90, tickP99Ms := p99
            marketsShed := s.shedMarkets, safeMode := s.safeMode.active })

/-! ## The machine -/

inductive PerfCall where
  | recordTickLatency (ms : JsNumber)
  | enforceBudget (now : ℚ) (ranking : Ranking)
  | onHealthStateChange (state : HealthState)

/-- What happened: a budget check, with the percentiles if it looked at them, or a health
report. -/
inductive PerfEvent where
  | checked (measured : Option (ℚ × ℚ)) (status : TickBudgetStatus)
  | reported (state : HealthState)
deriving DecidableEq, Repr

/-- What a check at this time looks at; nothing if it comes too early. -/
def measured (s : MarketPerfMonitor) (now : ℚ) : Option (ℚ × ℚ) :=
  if now - s.lastBudgetCheck < 1000 then none else percentiles s.tickLatencies

def call (s : MarketPerfMonitor) : PerfCall → MarketPerfMonitor × List PerfEvent
  | .recordTickLatency ms => (s.recordTickLatency ms, [])
  | .enforceBudget now ranking =>
    let (s', status) := s.enforceBudget now ranking
    (s', [.checked (s.measured now) status])
  | .onHealthStateChange state => (s.onHealthStateChange state, [.reported state])

end MarketPerfMonitor

/-- A monitor, call after call. -/
def perfMonitor : Machine MarketPerfMonitor PerfCall PerfEvent where
  init := {}
  step s a := some (s.call a)

end FlashEdge
