import FlashEdge.Js
import FlashEdge.Theory.Machine
import FlashEdge.Theory.OrderedMap

/-!
# The paper-trading client (`client/simulation.ts`)

`SimulatedFlashClient` keeps a balance and a list of positions and trades them at
prices it fetches. Amounts are exact.

Opening, closing, adding and removing collateral and the TP/SL pass run under one
lock, so each of the first four is one step. The pass closes one position after
another and each close fetches prices again, so a pass is a step for every index
of the list (`checkTpSlTriggers` keeps the index); the lock is taken in between.
Refreshing prices and setting a TP/SL take no lock. Prices come from outside: an
operation that refreshes them takes the two answers (`PriceFeed`) as an argument,
and one that pays a fee takes the rates. The maximum leverage and the slippage of
a market are configuration (`Markets`).
-/

namespace FlashEdge

/-! ## Fees and liquidation prices (`utils/protocol-fees.ts`, `utils/protocol-liq.ts`) -/

structure ProtocolFeeRates where
  openFeeRate : ℚ
  closeFeeRate : ℚ
  maintenanceMarginRate : ℚ
deriving DecidableEq, Repr

def calcFeeUsd (sizeUsd feeRate : ℚ) : ℚ :=
  if sizeUsd ≤ 0 || feeRate ≤ 0 then 0 else sizeUsd * feeRate

/-- The price at which the collateral no longer covers the maintenance margin and
the exit fee; 0 is the code's sentinel for "none". -/
def computeSimulationLiquidationPrice (entryPrice sizeUsd collateralUsd : ℚ) (side : TradeSide)
    (maintenanceMarginRate closeFeeRate : ℚ) : ℚ :=
  if entryPrice ≤ 0 || sizeUsd ≤ 0 || collateralUsd ≤ 0 then 0
  else if maintenanceMarginRate < 0 then 0
  else if closeFeeRate < 0 then 0
  else
    let maintenanceMargin := sizeUsd * maintenanceMarginRate
    let exitFee := sizeUsd * closeFeeRate
    let availableCollateral := collateralUsd - maintenanceMargin - exitFee
    if availableCollateral ≤ 0 then 0
    else
      let priceMove := availableCollateral / sizeUsd * entryPrice
      match side with
      | .Long =>
        let liqPrice := entryPrice - priceMove
        if 0 < liqPrice then liqPrice else 0
      | .Short => entryPrice + priceMove

/-! ## The state -/

structure SimulatedPosition where
  id : String
  market : String
  side : TradeSide
  entryPrice : ℚ
  sizeUsd : ℚ
  collateralUsd : ℚ
  leverage : ℚ
  openFee : ℚ
  openedAt : ℚ
  maintenanceMarginRate : ℚ
  closeFeeRate : ℚ
  liquidationPrice : Option ℚ := none
  takeProfit : Option ℚ := none
  stopLoss : Option ℚ := none
deriving DecidableEq, Repr

structure SimulatedTrade where
  id : String
  action : String
  market : String
  side : TradeSide
  sizeUsd : ℚ
  collateralUsd : ℚ
  leverage : ℚ
  price : ℚ
  entryPrice : Option ℚ := none
  pnl : Option ℚ := none
  timestamp : ℚ
deriving DecidableEq, Repr

/-- What the configuration says of a market: `getMaxLeverage(market, true)` and
`getDefaultSlippageBps(market)`. -/
structure Markets where
  maxLeverage : String → ℚ
  slippageBps : String → ℚ

/-- The client. `triggerIndex` is the loop variable of the TP/SL pass that holds
the lock, if one does: the pass looks at the positions below it next. -/
structure SimulatedFlashClient where
  balance : ℚ
  positions : List SimulatedPosition := []
  tradeHistory : List SimulatedTrade := []
  totalRealizedPnl : ℚ := 0
  totalFeesPaid : ℚ := 0
  livePrices : OrderedMap String ℚ := .empty
  priceChanges24h : OrderedMap String ℚ := .empty
  lastPrimaryPrices : OrderedMap String ℚ := .empty
  triggerIndex : Option ℕ := none
deriving DecidableEq

namespace SimulatedFlashClient

def MAX_TRADE_HISTORY : ℕ := 500
def MAX_LIVE_PRICE_ENTRIES : ℕ := 100

/-- The errors the operations throw, with the numbers their texts show. -/
inductive SimulationError where
  | maximumLeverage (market : String) (maxLev : ℚ)
  | invalidTrade
  | noPriceData (market : String)
  | immediatelyLiquidated (leverage : ℚ)
  | insufficientBalanceForFee (need available : ℚ)
  | noOpenPosition (side : TradeSide) (market : String)
  | closeAmountExceedsSize (closeAmount sizeUsd : ℚ)
  | amountNotPositive
  | insufficientBalance (available : ℚ)
  | cannotRemoveAll
  | wouldLiquidate (amount newLev : ℚ)
deriving DecidableEq, Repr

structure OpenPositionResult where
  txSignature : String
  entryPrice : ℚ
  liquidationPrice : ℚ
  sizeUsd : ℚ
deriving DecidableEq, Repr

structure ClosePositionResult where
  txSignature : String
  exitPrice : ℚ
  pnl : ℚ
  isPartial : Bool
  closedSizeUsd : ℚ
  remainingSizeUsd : ℚ
deriving DecidableEq, Repr

structure CollateralResult where
  txSignature : String
  newLeverage : ℚ
deriving DecidableEq, Repr

/-! ## Prices -/

/-- A price of the primary source. -/
structure TokenPrice where
  price : JsNumber
  priceChange24h : ℚ
deriving DecidableEq, Repr

/-- An open position of the secondary source, of which only the price is read. -/
structure RawOpenPosition where
  market_symbol : Option String
  market : Option String
  mark_price : Option ℚ
  entry_price : Option ℚ
deriving DecidableEq, Repr

/-- What the two sources answer to one refresh; `none` when the request fails. -/
structure PriceFeed where
  primary : Option (List (String × TokenPrice))
  secondary : Option (List RawOpenPosition)

/-- The map of live prices is kept bounded. -/
def boundLivePrices (s : SimulatedFlashClient) : SimulatedFlashClient :=
  if MAX_LIVE_PRICE_ENTRIES < s.livePrices.size then
    -- the oldest entries, as a map keeps its insertion order
    let excess := s.livePrices.keys.take 20
    { s with
      livePrices := excess.foldl (fun m k => m.delete k) s.livePrices
      priceChanges24h := excess.foldl (fun m k => m.delete k) s.priceChanges24h }
  else s

/-- One price of the primary source. -/
def takePrimaryPrice (s : SimulatedFlashClient) (sym : String) (tp : TokenPrice) :
    SimulatedFlashClient :=
  let s := match tp.price.finitePositive? with
    | some price =>
      { s with
        livePrices := s.livePrices.set sym price
        lastPrimaryPrices := s.lastPrimaryPrices.set sym price }
    | none => s
  if tp.priceChange24h ≠ 0 then
    { s with priceChanges24h := s.priceChanges24h.set sym tp.priceChange24h }
  else s

/-- The prices of the secondary source by symbol. -/
def secondaryPrices (positions : List RawOpenPosition) : OrderedMap String (List ℚ) :=
  positions.foldl
    (fun m p =>
      let sym := toUpperCase ((p.market_symbol.or p.market).getD "")
      match p.mark_price.or p.entry_price with
      | some price =>
        if sym ≠ "" ∧ 0 < price then m.set sym ((m.get? sym).getD [] ++ [price]) else m
      | none => m)
    .empty

/-- The average of one symbol's prices fills a gap, unless it deviates too far
from the last primary price. -/
def takeSecondaryPrice (s : SimulatedFlashClient) (sym : String) (prices : List ℚ) :
    SimulatedFlashClient :=
  let avg := prices.sum / prices.length
  match s.livePrices.get? sym with
  -- a primary price is never overwritten; a price of zero counts as none
  | some existing => if existing = 0 then fillGap avg else s
  | none => fillGap avg
where
  fillGap (avg : ℚ) : SimulatedFlashClient :=
    match s.lastPrimaryPrices.get? sym with
    | some lastKnown =>
      if 0 < lastKnown ∧ 1 / 10 < |avg - lastKnown| / lastKnown then s
      else { s with livePrices := s.livePrices.set sym avg }
    | none => { s with livePrices := s.livePrices.set sym avg }

def refreshPrices (s : SimulatedFlashClient) (feed : PriceFeed) : SimulatedFlashClient :=
  let s := s.boundLivePrices
  let s := match feed.primary with
    | some prices => prices.foldl (fun s p => s.takePrimaryPrice p.1 p.2) s
    | none => s
  match feed.secondary with
  | some positions =>
    (secondaryPrices positions).entries.foldl (fun s p => s.takeSecondaryPrice p.1 p.2) s
  | none => s

def getPrice (s : SimulatedFlashClient) (market : String) : Except SimulationError ℚ :=
  match s.livePrices.get? (toUpperCase market) with
  | some price => if 0 < price then .ok price else .error (.noPriceData market)
  | none => .error (.noPriceData market)

/-! ## Positions and trades -/

/-- The index of the position of a market and a side. -/
def positionIndex (s : SimulatedFlashClient) (market : String) (side : TradeSide) : Option ℕ :=
  s.positions.findIdx? fun p => p.market = toUpperCase market && p.side = side

/-- The position of a market and a side, with its index. -/
def findPosition (s : SimulatedFlashClient) (market : String) (side : TradeSide) :
    Option (ℕ × SimulatedPosition) :=
  (s.positionIndex market side).bind fun idx => s.positions[idx]?.map fun p => (idx, p)

/-- Record a trade; the history is trimmed to its last entries. -/
def pushTrade (s : SimulatedFlashClient) (trade : SimulatedTrade) : SimulatedFlashClient :=
  let history := s.tradeHistory ++ [trade]
  { s with
    tradeHistory :=
      if MAX_TRADE_HISTORY < history.length then history.drop (history.length - MAX_TRADE_HISTORY)
      else history }

def calcLiquidationPrice (entryPrice leverage : ℚ) (side : TradeSide)
    (maintenanceMarginRate closeFeeRate : ℚ) : ℚ :=
  if leverage ≤ 0 || entryPrice ≤ 0 then 0
  else
    computeSimulationLiquidationPrice entryPrice 1 (1 / leverage) side maintenanceMarginRate
      closeFeeRate

/-- `validateTrade(...).valid` (`types/index.ts`); its warnings are not used. -/
def validateTrade (m : Markets) (market : String) (collateral leverage balance : ℚ) : Bool :=
  let max := if m.maxLeverage market = 0 then 100 else m.maxLeverage market
  !(collateral ≤ 0) && !(balance < collateral) && !(leverage < 11 / 10) && !(max < leverage)

/-! ## Opening -/

/-- An existing position with a further one merged into it. -/
def mergePosition (existing : SimulatedPosition) (collateralAmount leverage sizeUsd fillPrice
    openFee : ℚ) (feeRates : ProtocolFeeRates) : SimulatedPosition :=
  let totalSize := existing.sizeUsd + sizeUsd
  let entryPrice :=
    if 0 < totalSize then
      (existing.entryPrice * existing.sizeUsd + fillPrice * sizeUsd) / totalSize
    else fillPrice
  let collateralUsd := existing.collateralUsd + collateralAmount
  let mergedLev := if 0 < collateralUsd then totalSize / collateralUsd else leverage
  { existing with
    sizeUsd := totalSize
    collateralUsd
    leverage := if 0 < mergedLev then mergedLev else leverage
    entryPrice
    openFee := existing.openFee + openFee
    liquidationPrice := some (computeSimulationLiquidationPrice entryPrice totalSize collateralUsd
      existing.side feeRates.maintenanceMarginRate feeRates.closeFeeRate) }

/-- The fill price: the slippage of the market shifts it against the trader. -/
def fillPrice (m : Markets) (market : String) (side : TradeSide) (price : ℚ) : ℚ :=
  let slippageMult := match side with
    | .Long => 1 + m.slippageBps market / 10000
    | .Short => 1 - m.slippageBps market / 10000
  price * slippageMult

/-- What `_openPosition` computes before it changes anything. -/
structure OpenQuote where
  price : ℚ
  fillPrice : ℚ
  sizeUsd : ℚ
  openFee : ℚ
  liquidationPrice : ℚ
deriving DecidableEq, Repr

/-- The checks of `_openPosition`, after the refresh. -/
def quoteOpen (m : Markets) (s : SimulatedFlashClient) (feeRates : ProtocolFeeRates)
    (market : String) (side : TradeSide) (collateralAmount leverage : ℚ) :
    Except SimulationError OpenQuote :=
  let maxLev := m.maxLeverage market
  if maxLev < leverage then .error (.maximumLeverage market maxLev)
  else if !validateTrade m market collateralAmount leverage s.balance then .error .invalidTrade
  else
    match s.getPrice market with
    | .error error => .error error
    | .ok price =>
      let fillPrice := fillPrice m market side price
      let sizeUsd := collateralAmount * leverage
      let openFee := calcFeeUsd sizeUsd feeRates.openFeeRate
      let liquidationPrice := calcLiquidationPrice fillPrice leverage side
        feeRates.maintenanceMarginRate feeRates.closeFeeRate
      if liquidationPrice = fillPrice ∨ liquidationPrice ≤ 0 then
        .error (.immediatelyLiquidated leverage)
      else if s.balance < collateralAmount + openFee then
        .error (.insufficientBalanceForFee (collateralAmount + openFee) s.balance)
      else .ok { price, fillPrice, sizeUsd, openFee, liquidationPrice }

/-- `_openPosition` once every check has passed; `id` and `now` are the fresh id
and the clock. -/
def applyOpen (s : SimulatedFlashClient) (feeRates : ProtocolFeeRates) (id : String) (now : ℚ)
    (market : String) (side : TradeSide) (collateralAmount leverage : ℚ) (q : OpenQuote) :
    SimulatedFlashClient × OpenPositionResult :=
  let paid := { s with
    balance := s.balance - (collateralAmount + q.openFee)
    totalFeesPaid := s.totalFeesPaid + q.openFee }
  let trade (id : String) : SimulatedTrade :=
    { id, action := "open", market := toUpperCase market, side, sizeUsd := q.sizeUsd
      collateralUsd := collateralAmount, leverage, price := q.price, timestamp := now }
  match s.findPosition market side with
  | some (idx, existing) =>
    let merged :=
      mergePosition existing collateralAmount leverage q.sizeUsd q.fillPrice q.openFee feeRates
    ({ paid with positions := s.positions.set idx merged }.pushTrade (trade existing.id),
      { txSignature := "SIM_ADD_" ++ existing.id, entryPrice := merged.entryPrice
        liquidationPrice := q.liquidationPrice, sizeUsd := q.sizeUsd })
  | none =>
    let position : SimulatedPosition :=
      { id, market := toUpperCase market, side, entryPrice := q.fillPrice, sizeUsd := q.sizeUsd
        collateralUsd := collateralAmount, leverage, openFee := q.openFee, openedAt := now
        maintenanceMarginRate := feeRates.maintenanceMarginRate
        closeFeeRate := feeRates.closeFeeRate }
    ({ paid with positions := s.positions ++ [position] }.pushTrade (trade id),
      { txSignature := "SIM_" ++ id, entryPrice := q.fillPrice
        liquidationPrice := q.liquidationPrice, sizeUsd := q.sizeUsd })

/-- `_openPosition` after the refresh. -/
def openPosition (m : Markets) (s : SimulatedFlashClient) (feeRates : ProtocolFeeRates)
    (id : String) (now : ℚ) (market : String) (side : TradeSide) (collateralAmount leverage : ℚ) :
    Except SimulationError (SimulatedFlashClient × OpenPositionResult × OpenQuote) :=
  match quoteOpen m s feeRates market side collateralAmount leverage with
  | .error error => .error error
  | .ok q =>
    let r := s.applyOpen feeRates id now market side collateralAmount leverage q
    .ok (r.1, r.2, q)

/-! ## Closing -/

/-- The part of a position of size `sizeUsd` that a request closes, before dust. -/
def requestedFraction (sizeUsd : ℚ) (closePercent closeAmount : Option ℚ) :
    Except SimulationError ℚ :=
  match closePercent, closeAmount with
  | some percent, closeAmount =>
    if percent < 100 then .ok (percent / 100) else ofAmount closeAmount
  | none, closeAmount => ofAmount closeAmount
where
  ofAmount : Option ℚ → Except SimulationError ℚ
    | some amount =>
      if sizeUsd < amount then .error (.closeAmountExceedsSize amount sizeUsd)
      else .ok (amount / sizeUsd)
    | none => .ok 1

/-- The request is for a part of the position. -/
def isPartialRequest (closePercent closeAmount : Option ℚ) : Bool :=
  closePercent.any (· < 100) || closeAmount.isSome

/-- What a close moves: the part closed, with its collateral, profit and fee. -/
structure Settlement where
  full : Bool
  closedSizeUsd : ℚ
  closedCollateral : ℚ
  pnl : ℚ
  closeFee : ℚ
deriving DecidableEq, Repr

/-- `returnAmount`: what the close pays back, before the floor at zero. -/
def Settlement.returnAmount (c : Settlement) : ℚ := c.closedCollateral + c.pnl - c.closeFee

/-- The settlement of the part `requested` of a position at a price. A part above
0.999 is the whole, and so is one that leaves less than half a dollar. -/
def settlement (position : SimulatedPosition) (feeRates : ProtocolFeeRates) (price requested : ℚ)
    (isPartial : Bool) : Settlement :=
  let priceDelta := price - position.entryPrice
  let pnlMultiplier : ℚ := match position.side with
    | .Long => 1
    | .Short => -1
  let fullPnl :=
    if 0 < position.entryPrice then
      priceDelta / position.entryPrice * position.sizeUsd * pnlMultiplier
    else 0
  -- a near-full close is snapped to a full one
  let closeFraction := if 999 / 1000 ≤ requested then 1 else requested
  let remainingSize := position.sizeUsd * (1 - closeFraction)
  -- dust: less than half a dollar would be left
  let full := !isPartial || remainingSize < 1 / 2 || 1 ≤ closeFraction
  let effectiveFraction := if full then 1 else closeFraction
  let closedSizeUsd := position.sizeUsd * effectiveFraction
  { full
    closedSizeUsd
    closedCollateral := position.collateralUsd * effectiveFraction
    pnl := fullPnl * effectiveFraction
    closeFee := calcFeeUsd closedSizeUsd feeRates.closeFeeRate }

/-- The position after a partial close. -/
def reducedPosition (position : SimulatedPosition) (c : Settlement) : SimulatedPosition :=
  let sizeUsd := position.sizeUsd - c.closedSizeUsd
  let collateralUsd := position.collateralUsd - c.closedCollateral
  { position with
    sizeUsd
    collateralUsd
    leverage := if 0 < collateralUsd then sizeUsd / collateralUsd else 0 }

/-- `_closePosition` once every check has passed. -/
def applyClose (s : SimulatedFlashClient) (now : ℚ) (side : TradeSide) (idx : ℕ)
    (position : SimulatedPosition) (price : ℚ) (isPartial : Bool) (c : Settlement) :
    SimulatedFlashClient × ClosePositionResult :=
  let rest := reducedPosition position c
  let settled := { s with
    totalFeesPaid := s.totalFeesPaid + c.closeFee
    totalRealizedPnl := s.totalRealizedPnl + c.pnl
    balance := s.balance + max c.returnAmount 0
    positions := if c.full then s.positions.eraseIdx idx else s.positions.set idx rest }
  let trade : SimulatedTrade :=
    { id := position.id, action := if c.full then "close" else "partial_close"
      market := position.market, side, sizeUsd := c.closedSizeUsd
      collateralUsd := c.closedCollateral
      leverage := if c.full then position.leverage else rest.leverage
      price, entryPrice := some position.entryPrice, pnl := some c.pnl, timestamp := now }
  (settled.pushTrade trade,
    { txSignature := (if c.full then "SIM_CLOSE_" else "SIM_PARTIAL_CLOSE_") ++ position.id
      exitPrice := price, pnl := c.pnl, isPartial := isPartial && !c.full
      closedSizeUsd := c.closedSizeUsd
      remainingSizeUsd := if c.full then 0 else rest.sizeUsd })

/-- `_closePosition` after the refresh. -/
def closePosition (s : SimulatedFlashClient) (feeRates : ProtocolFeeRates) (now : ℚ)
    (market : String) (side : TradeSide) (closePercent closeAmount : Option ℚ) :
    Except SimulationError (SimulatedFlashClient × ClosePositionResult × Settlement) :=
  match s.findPosition market side with
  | none => .error (.noOpenPosition side market)
  | some (idx, position) =>
    match s.getPrice market with
    | .error error => .error error
    | .ok price =>
      match requestedFraction position.sizeUsd closePercent closeAmount with
      | .error error => .error error
      | .ok requested =>
        let isPartial := isPartialRequest closePercent closeAmount
        let c := settlement position feeRates price requested isPartial
        let r := s.applyClose now side idx position price isPartial c
        .ok (r.1, r.2, c)

/-! ## Collateral -/

/-- A position with other collateral and the leverage that follows. -/
def withCollateral (pos : SimulatedPosition) (collateralUsd : ℚ) : SimulatedPosition :=
  { pos with
    collateralUsd
    leverage := if 0 < collateralUsd then pos.sizeUsd / collateralUsd else 0 }

/-- The trade that a change of collateral records. -/
def collateralTrade (s : SimulatedFlashClient) (action : String) (now : ℚ) (side : TradeSide)
    (pos : SimulatedPosition) (amount : ℚ) : SimulatedTrade :=
  { id := pos.id, action, market := pos.market, side, sizeUsd := pos.sizeUsd
    collateralUsd := amount, leverage := pos.leverage
    price := (s.livePrices.get? pos.market).getD pos.entryPrice, timestamp := now }

def addCollateral (s : SimulatedFlashClient) (now : ℚ) (market : String) (side : TradeSide)
    (amount : ℚ) : Except SimulationError (SimulatedFlashClient × CollateralResult) :=
  if amount ≤ 0 then .error .amountNotPositive
  else if s.balance < amount then .error (.insufficientBalance s.balance)
  else
    match s.findPosition market side with
    | none => .error (.noOpenPosition side market)
    | some (idx, existing) =>
      let pos := withCollateral existing (existing.collateralUsd + amount)
      let s := { s with balance := s.balance - amount, positions := s.positions.set idx pos }
      .ok (s.pushTrade (s.collateralTrade "add_collateral" now side pos amount),
        { txSignature := "SIM_ADD_" ++ pos.id, newLeverage := pos.leverage })

/-- Whether the position would be liquidated at the current price with the new
leverage, or could not be opened with it. -/
def wouldLiquidate (s : SimulatedFlashClient) (pos : SimulatedPosition) (side : TradeSide)
    (newLev : ℚ) : Bool :=
  let currentPrice := (s.livePrices.get? pos.market).getD pos.entryPrice
  let newLiqPrice := calcLiquidationPrice pos.entryPrice newLev side pos.maintenanceMarginRate
    pos.closeFeeRate
  (match side with
    | .Long => decide (currentPrice ≤ newLiqPrice)
    | .Short => decide (newLiqPrice ≤ currentPrice)) ||
    newLiqPrice ≤ 0 || newLiqPrice = pos.entryPrice

/-- `_removeCollateral` after its check of the amount and the refresh. -/
def removeCollateral (s : SimulatedFlashClient) (now : ℚ) (market : String) (side : TradeSide)
    (amount : ℚ) : Except SimulationError (SimulatedFlashClient × CollateralResult) :=
  match s.findPosition market side with
  | none => .error (.noOpenPosition side market)
  | some (idx, existing) =>
    if existing.collateralUsd ≤ amount then .error .cannotRemoveAll
    else
      let newCollateral := existing.collateralUsd - amount
      let newLev := if 0 < newCollateral then existing.sizeUsd / newCollateral else 0
      if 0 < newLev ∧ s.wouldLiquidate existing side newLev then
        .error (.wouldLiquidate amount newLev)
      else
        let pos := withCollateral existing newCollateral
        let s := { s with balance := s.balance + amount, positions := s.positions.set idx pos }
        .ok (s.pushTrade (s.collateralTrade "remove_collateral" now side pos amount),
          { txSignature := "SIM_RM_" ++ pos.id, newLeverage := pos.leverage })

/-! ## Take profit and stop loss -/

def setTpSl (s : SimulatedFlashClient) (market : String) (side : TradeSide) (tp sl : Option ℚ) :
    SimulatedFlashClient × Bool :=
  match s.findPosition market side with
  | none => (s, false)
  | some (idx, pos) =>
    let pos := { pos with takeProfit := tp.or pos.takeProfit, stopLoss := sl.or pos.stopLoss }
    ({ s with positions := s.positions.set idx pos }, true)

def removeTpSl (s : SimulatedFlashClient) (market : String) (side : TradeSide) :
    SimulatedFlashClient × Bool :=
  match s.findPosition market side with
  | none => (s, false)
  | some (idx, pos) =>
    let pos := { pos with takeProfit := none, stopLoss := none }
    ({ s with positions := s.positions.set idx pos }, true)

/-- The take-profit or the stop-loss condition of a position holds. -/
def triggerHit (pos : SimulatedPosition) (currentPrice : ℚ) : Bool :=
  match pos.side with
  | .Long => pos.takeProfit.any (· ≤ currentPrice) || pos.stopLoss.any (currentPrice ≤ ·)
  | .Short => pos.takeProfit.any (currentPrice ≤ ·) || pos.stopLoss.any (· ≤ currentPrice)

/-- The position that the pass closes at index `i`, if any: its price is known
and its condition holds. -/
def triggeredAt (s : SimulatedFlashClient) (i : ℕ) : Option SimulatedPosition :=
  match s.positions[i]? with
  | none => none
  | some pos =>
    match s.livePrices.get? pos.market with
    | none => none
    | some currentPrice =>
      if currentPrice ≠ 0 ∧ triggerHit pos currentPrice then some pos else none

/-! ## The client as a machine -/

/-- The movements of money an observer sees, and the errors thrown. -/
inductive Event where
  | opened (collateral fee : ℚ)
  | closed (settlement : Settlement)
  | collateralAdded (amount : ℚ)
  | collateralRemoved (amount : ℚ)
  | failed (error : SimulationError)
deriving DecidableEq, Repr

/-- What can happen to the client. -/
inductive Action where
  | refreshPrices (feed : PriceFeed)
  | openPosition (feed : PriceFeed) (feeRates : ProtocolFeeRates) (id : String) (now : ℚ)
      (market : String) (side : TradeSide) (collateralAmount leverage : ℚ)
  | closePosition (feed : PriceFeed) (feeRates : ProtocolFeeRates) (now : ℚ)
      (market : String) (side : TradeSide) (closePercent closeAmount : Option ℚ)
  | addCollateral (now : ℚ) (market : String) (side : TradeSide) (amount : ℚ)
  | removeCollateral (feed : PriceFeed) (now : ℚ) (market : String) (side : TradeSide)
      (amount : ℚ)
  | setTpSl (market : String) (side : TradeSide) (tp sl : Option ℚ)
  | removeTpSl (market : String) (side : TradeSide)
  | checkTpSlTriggers
  | triggerNext (feed : PriceFeed) (feeRates : ProtocolFeeRates) (now : ℚ)

/-- The next index of the TP/SL pass; the lock is released after the last one, and
when a close throws. -/
def triggerNext (s : SimulatedFlashClient) (feed : PriceFeed) (feeRates : ProtocolFeeRates)
    (now : ℚ) : ℕ → SimulatedFlashClient × List Event
  | 0 => ({ s with triggerIndex := none }, [])
  | i + 1 =>
    match s.triggeredAt i with
    | none => ({ s with triggerIndex := some i }, [])
    | some pos =>
      -- the close refreshes the prices again before it settles
      let s := s.refreshPrices feed
      match s.closePosition feeRates now pos.market pos.side none none with
      | .ok (s, _, settlement) => ({ s with triggerIndex := some i }, [.closed settlement])
      | .error error => ({ s with triggerIndex := none }, [.failed error])

/-- The operations that need the lock. -/
def locked (m : Markets) (s : SimulatedFlashClient) : Action → SimulatedFlashClient × List Event
  | .openPosition feed feeRates id now market side collateralAmount leverage =>
    let s := s.refreshPrices feed
    match openPosition m s feeRates id now market side collateralAmount leverage with
    | .ok (s, _, quote) => (s, [.opened collateralAmount quote.openFee])
    | .error error => (s, [.failed error])
  | .closePosition feed feeRates now market side closePercent closeAmount =>
    let s := s.refreshPrices feed
    match s.closePosition feeRates now market side closePercent closeAmount with
    | .ok (s, _, settlement) => (s, [.closed settlement])
    | .error error => (s, [.failed error])
  | .addCollateral now market side amount =>
    match s.addCollateral now market side amount with
    | .ok (s, _) => (s, [.collateralAdded amount])
    | .error error => (s, [.failed error])
  | .removeCollateral feed now market side amount =>
    if amount ≤ 0 then (s, [.failed .amountNotPositive])
    else
      -- the amount is checked before the refresh, the rest after it
      let s := s.refreshPrices feed
      match s.removeCollateral now market side amount with
      | .ok (s, _) => (s, [.collateralRemoved amount])
      | .error error => (s, [.failed error])
  | .checkTpSlTriggers => ({ s with triggerIndex := some s.positions.length }, [])
  | _ => (s, [])

/-- One step. -/
def step (m : Markets) (s : SimulatedFlashClient) :
    Action → Option (SimulatedFlashClient × List Event)
  | .refreshPrices feed => some (s.refreshPrices feed, [])
  | .setTpSl market side tp sl => some ((s.setTpSl market side tp sl).1, [])
  | .removeTpSl market side => some ((s.removeTpSl market side).1, [])
  | .triggerNext feed feeRates now =>
    match s.triggerIndex with
    | some i => some (s.triggerNext feed feeRates now i)
    | none => none
  | a => if s.triggerIndex.isNone then some (s.locked m a) else none

end SimulatedFlashClient

/-- The paper-trading client, started with a balance. -/
def simulation (m : Markets) (initialBalance : ℚ) :
    Machine SimulatedFlashClient SimulatedFlashClient.Action SimulatedFlashClient.Event where
  init := { balance := initialBalance }
  step := SimulatedFlashClient.step m

end FlashEdge
