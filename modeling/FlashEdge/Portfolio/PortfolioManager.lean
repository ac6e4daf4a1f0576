import FlashEdge.Js
import FlashEdge.Theory.OrderedMap
import Mathlib.Data.Rat.Floor

/-!
# The portfolio manager

What a trade the scanner recommends goes through: a filter over all recommendations, a risk
check of the best one, and an allocation of capital to it. Each of the three has its own view of
the positions and its own figure for the size of the trade. The texts of the rejections are kept
as their cases with the numbers they show.
-/

namespace FlashEdge

namespace Portfolio

/-! ## Limits (`core/risk-config.ts`) -/

def MAX_POSITION_ALLOCATION : ℚ := 2 / 10
def MAX_MARKET_EXPOSURE : ℚ := 3 / 10
def MAX_DIRECTIONAL_EXPOSURE : ℚ := 6 / 10
def MAX_CORRELATED_EXPOSURE : ℚ := 3 / 10
def MAX_POSITIONS : ℕ := 5

/-! ## Positions and opportunities -/

/-- What is read of an open position. -/
structure Position where
  market : String
  side : TradeSide
  entryPrice : JsNumber
  leverage : JsNumber
  sizeUsd : JsNumber
  collateralUsd : JsNumber
  timestamp : JsNumber
  unrealizedPnlPercent : JsNumber
deriving DecidableEq, Repr

/-- What is read of an opportunity of the scanner. -/
structure Opportunity where
  market : String
  direction : TradeSide
  recommendedLeverage : JsNumber
  recommendedCollateral : JsNumber
deriving DecidableEq, Repr

/-- `recommendedCollateral * recommendedLeverage`, `0` if it is not finite. -/
def Opportunity.notional (o : Opportunity) : ℚ :=
  (o.recommendedCollateral * o.recommendedLeverage).finiteOr0

/-- `exposureByMarket`, `longExposure` and `shortExposure`. -/
structure Exposures where
  exposureByMarket : OrderedMap String JsNumber := .empty
  longExposure : JsNumber := 0
  shortExposure : JsNumber := 0
deriving DecidableEq

namespace Exposures

/-- `exposureByMarket[key] ?? 0`. -/
def ofMarket (x : Exposures) (key : String) : JsNumber := (x.exposureByMarket.get? key).getD 0

/-- The exposure on one side. -/
def ofSide (x : Exposures) : TradeSide → JsNumber
  | .Long => x.longExposure
  | .Short => x.shortExposure

/-- A size is added to the exposure of its market and of its side. -/
def add (x : Exposures) (key : String) (side : TradeSide) (size : JsNumber) : Exposures where
  exposureByMarket := x.exposureByMarket.set key (x.ofMarket key + size)
  longExposure := if side = .Long then x.longExposure + size else x.longExposure
  shortExposure := if side = .Long then x.shortExposure else x.shortExposure + size

end Exposures

/-! ## Correlation (`correlation.ts`) -/

def CORRELATION_GROUPS : List (List String) :=
  [["SOL", "JTO", "JUP", "PYTH", "RAY", "BONK", "WIF", "PENGU", "PUMP"],
   ["BTC"],
   ["ETH"],
   ["BNB"],
   ["XAU", "XAG"],
   ["EUR", "GBP"],
   ["CRUDEOIL"],
   ["HYPE"],
   ["FARTCOIN"],
   ["ORE"]]

/-- The index of the group of a symbol; `none` is the source's `-1`. -/
def getCorrelationGroup (symbol : String) : Option ℕ :=
  CORRELATION_GROUPS.findIdx? fun group => (group.map toUpperCase).contains (toUpperCase symbol)

def getCorrelatedMarkets (symbol : String) : List String :=
  match getCorrelationGroup symbol with
  | none => [toUpperCase symbol]
  | some groupIdx => (CORRELATION_GROUPS[groupIdx]?.getD []).map toUpperCase

/-- Why a correlation check fails. -/
inductive CorrelationReason where
  | zeroCapital
  | groupExposure (correlated : List String) (projectedExposure : JsNumber)
      (maxCorrelatedPct maxAllowed : ℚ)
deriving DecidableEq, Repr

structure CorrelationCheck where
  passed : Bool
  reason : Option CorrelationReason := none
  groupExposure : JsNumber
  groupSymbols : List String
deriving DecidableEq, Repr

def checkCorrelation (market : String) (exposures : Exposures) (totalCapital maxCorrelatedPct : ℚ)
    (proposedNotional : JsNumber) : CorrelationCheck :=
  if totalCapital ≤ 0 then
    { passed := false, reason := some .zeroCapital, groupExposure := 0, groupSymbols := [] }
  else
    let correlated := getCorrelatedMarkets market
    let groupExposure :=
      correlated.foldl (fun sum sym => sum + exposures.ofMarket (toUpperCase sym)) 0
    let projectedExposure := groupExposure + .finite proposedNotional.finiteOr0
    let maxAllowed := totalCapital * maxCorrelatedPct
    if projectedExposure.gt (.finite maxAllowed) then
      { passed := false,
        reason := some (.groupExposure correlated projectedExposure maxCorrelatedPct maxAllowed),
        groupExposure := projectedExposure, groupSymbols := correlated }
    else { passed := true, groupExposure := projectedExposure, groupSymbols := correlated }

/-! ## The risk check (`portfolio-risk.ts`) -/

/-- Why a portfolio risk check fails. -/
inductive RiskReason where
  | zeroCapital
  | invalidNotional
  | maxPositions
  | maxExposure (newExposure maxExposure : JsNumber)
  | marketExposure (market : String) (newExposure : JsNumber) (maxMarket : ℚ)
  | longExposure (newLong : JsNumber) (maxDirectional : ℚ)
  | shortExposure (newShort : JsNumber) (maxDirectional : ℚ)
  | correlation (reason : Option CorrelationReason)
deriving DecidableEq, Repr

structure PortfolioRiskCheck where
  passed : Bool
  reason : Option RiskReason := none
deriving DecidableEq, Repr

/-- The exposures of all positions, whatever their sizes are. -/
def riskExposures (positions : List Position) : Exposures :=
  positions.foldl (fun x pos => x.add (toUpperCase pos.market) pos.side pos.sizeUsd) {}

/-- The check of a proposed trade. The capital is that of `getState`, which is finite. -/
def checkPortfolioRisk (opportunity : Opportunity) (positions : List Position) (totalCapital : ℚ)
    (maxExposure : JsNumber) : PortfolioRiskCheck :=
  let market := toUpperCase opportunity.market
  let notional := opportunity.notional
  let x := riskExposures positions
  let currentTotalExposure := x.longExposure + x.shortExposure
  let maxMarket := totalCapital * MAX_MARKET_EXPOSURE
  let newLong := if opportunity.direction = .Long then x.longExposure + .finite notional
    else x.longExposure
  let newShort := if opportunity.direction = .Short then x.shortExposure + .finite notional
    else x.shortExposure
  let maxDirectional := totalCapital * MAX_DIRECTIONAL_EXPOSURE
  let corrCheck := checkCorrelation market x totalCapital MAX_CORRELATED_EXPOSURE (.finite notional)
  if totalCapital ≤ 0 then { passed := false, reason := some .zeroCapital }
  else if notional ≤ 0 then { passed := false, reason := some .invalidNotional }
  else if MAX_POSITIONS ≤ positions.length then { passed := false, reason := some .maxPositions }
  else if (currentTotalExposure + .finite notional).gt maxExposure then
    { passed := false,
      reason := some (.maxExposure (currentTotalExposure + .finite notional) maxExposure) }
  else if (x.ofMarket market + .finite notional).gt (.finite maxMarket) then
    { passed := false,
      reason := some (.marketExposure market (x.ofMarket market + .finite notional) maxMarket) }
  else if newLong.gt (.finite maxDirectional) then
    { passed := false, reason := some (.longExposure newLong maxDirectional) }
  else if newShort.gt (.finite maxDirectional) then
    { passed := false, reason := some (.shortExposure newShort maxDirectional) }
  else if corrCheck.passed = false then
    { passed := false, reason := some (.correlation corrCheck.reason) }
  else { passed := true }

/-! ## Allocation and filter (`allocation-engine.ts`) -/

inductive AllocationReason where
  | noFreeCapital
  | tooSmall
  | allocated (collateral : JsNumber) (totalCapital : ℚ)
deriving DecidableEq, Repr

structure AllocationResult where
  collateral : JsNumber
  leverage : JsNumber := 0
  reason : AllocationReason
deriving DecidableEq, Repr

/-- `Math.round(x)`. -/
def mathRound (x : ℚ) : ℚ := ⌊x + 1 / 2⌋

def computeAllocation (totalCapital freeCapital : ℚ) (maxPositionSize : JsNumber) :
    AllocationResult :=
  if totalCapital ≤ 0 ∨ freeCapital ≤ 0 then { collateral := 0, reason := .noFreeCapital }
  else
    let raw := min (freeCapital * (25 / 100)) (totalCapital * MAX_POSITION_ALLOCATION)
    let collateral := maxPositionSize.min (.finite (max 10 (mathRound raw)))
    -- `NaN` is not below 10
    if collateral.ltRat 10 then { collateral := 0, reason := .tooSmall }
    else { collateral, reason := .allocated collateral totalCapital }

inductive FilterReason where
  | maxPositions
  | heldMarket
  | marketExposure (exposure : JsNumber) (totalCapital : ℚ)
  | directionalExposure (direction : TradeSide) (exposure : JsNumber) (maxDirectional : ℚ)
  | correlation (reason : Option CorrelationReason)
  | insufficientFreeCapital
deriving DecidableEq, Repr

structure AllocationRejectReason where
  market : String
  reason : FilterReason
deriving DecidableEq, Repr

/-- What the filter has decided and counted so far. -/
structure PortfolioFilter where
  accepted : List Opportunity := []
  rejected : List AllocationRejectReason := []
  exposures : Exposures
  freeCapital : JsNumber

namespace PortfolioFilter

/-- Why an opportunity is rejected, if it is. -/
def rejects (s : PortfolioFilter) (positions : List Position) (totalCapital : ℚ)
    (opp : Opportunity) : Option FilterReason :=
  let market := toUpperCase opp.market
  let currentMarketExposure := s.exposures.ofMarket market
  let maxMarketAllowed := totalCapital * MAX_MARKET_EXPOSURE
  let directionExposure := s.exposures.ofSide opp.direction + .finite opp.notional
  let maxDirectional := totalCapital * MAX_DIRECTIONAL_EXPOSURE
  let corrCheck := checkCorrelation market s.exposures totalCapital MAX_CORRELATED_EXPOSURE
    (.finite opp.notional)
  if MAX_POSITIONS ≤ positions.length + s.accepted.length then some .maxPositions
  else if (positions.map fun p => toUpperCase p.market).contains market then some .heldMarket
  else if JsNumber.geRat maxMarketAllowed currentMarketExposure then
    some (.marketExposure currentMarketExposure totalCapital)
  else if directionExposure.gt (.finite maxDirectional) then
    some (.directionalExposure opp.direction directionExposure maxDirectional)
  else if corrCheck.passed = false then some (.correlation corrCheck.reason)
  else if s.freeCapital.ltRat 10 then some .insufficientFreeCapital
  else none

/-- The round of the loop for one opportunity. -/
def next (positions : List Position) (totalCapital : ℚ) (s : PortfolioFilter)
    (opp : Opportunity) : PortfolioFilter :=
  let market := toUpperCase opp.market
  match s.rejects positions totalCapital opp with
  | some reason => { s with rejected := s.rejected ++ [⟨market, reason⟩] }
  | none =>
    { s with
      accepted := s.accepted ++ [opp]
      exposures := s.exposures.add market opp.direction (.finite opp.notional)
      freeCapital := s.freeCapital - opp.recommendedCollateral.min s.freeCapital }

end PortfolioFilter

/-- The exposures of the positions that have a market and a finite size. -/
def filterExposures (positions : List Position) : Exposures :=
  positions.foldl (fun x pos =>
    if pos.market = "" ∨ pos.sizeUsd.isFinite = false then x
    else x.add (toUpperCase pos.market) pos.side pos.sizeUsd) {}

structure PortfolioFilterResult where
  accepted : List Opportunity
  rejected : List AllocationRejectReason
deriving DecidableEq, Repr

/-- The filter; `_maxPositionSize` is not read. -/
def filterOpportunities (opportunities : List Opportunity) (positions : List Position)
    (totalCapital freeCapital : ℚ) (_maxPositionSize : JsNumber) : PortfolioFilterResult :=
  let s := opportunities.foldl (PortfolioFilter.next positions totalCapital)
    { exposures := filterExposures positions, freeCapital := .finite freeCapital }
  { accepted := s.accepted, rejected := s.rejected }

/-! ## The manager (`portfolio-manager.ts`) -/

structure PortfolioPosition where
  market : String
  side : TradeSide
  entryPrice : ℚ
  leverage : ℚ
  collateral : ℚ
  notional : ℚ
  timestamp : JsNumber
  pnlPct : ℚ
deriving DecidableEq, Repr

structure PortfolioState where
  totalCapital : ℚ
  allocatedCapital : ℚ
  freeCapital : ℚ
  positions : List PortfolioPosition
  exposures : Exposures
  positionCount : ℕ
  utilizationPct : ℚ
deriving DecidableEq

/-- `getState(positions, balance)`; numbers that are not finite count as `0`. -/
def getState (positions : List Position) (balance : JsNumber) : PortfolioState :=
  let exposures := positions.foldl (fun x pos =>
    x.add (toUpperCase pos.market) pos.side (.finite pos.sizeUsd.finiteOr0)) {}
  let allocatedCapital := (positions.map fun pos => pos.collateralUsd.finiteOr0).sum
  let safeBalance := balance.finiteOr0
  let totalCapital := safeBalance + allocatedCapital
  { totalCapital, allocatedCapital, exposures
    freeCapital := max 0 safeBalance
    positions := positions.map fun pos =>
      { market := pos.market, side := pos.side, entryPrice := pos.entryPrice.finiteOr0
        leverage := pos.leverage.finiteOr0, collateral := pos.collateralUsd.finiteOr0
        notional := pos.sizeUsd.finiteOr0, timestamp := pos.timestamp
        pnlPct := pos.unrealizedPnlPercent.finiteOr0 }
    positionCount := positions.length
    utilizationPct := if 0 < totalCapital then allocatedCapital / totalCapital * 100 else 0 }

/-- `evaluate(…)`: the best opportunity with the collateral that is allocated to it. -/
def evaluate (opportunities : List Opportunity) (positions : List Position)
    (balance maxPositionSize maxExposure : JsNumber) : Option Opportunity :=
  let state := getState positions balance
  if state.freeCapital < 10 then none
  else
    match (filterOpportunities opportunities positions state.totalCapital state.freeCapital
      maxPositionSize).accepted with
    | [] => none
    | best :: _ =>
      if (checkPortfolioRisk best positions state.totalCapital maxExposure).passed = false then
        none
      else
        let allocation := computeAllocation state.totalCapital state.freeCapital maxPositionSize
        if JsNumber.leRat 0 allocation.collateral then none
        else some { best with recommendedCollateral := allocation.collateral }

end Portfolio

end FlashEdge
