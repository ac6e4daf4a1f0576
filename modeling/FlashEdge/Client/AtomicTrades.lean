import FlashEdge.Client.SimulationLedger
import FlashEdge.Theory.Throwing

/-!
# The trades of the paper-trading client, statement by statement

`Simulation.lean` says what an operation computes and keeps a failed one apart
from its state. Here the four operations stand as they are written: they change
the fields of the client one after another, and whatever they have changed when
something is thrown stays. `Body` is that reading; everything awaited from
elsewhere (the configuration, the fee rates) may throw as well.

`failed_call_keeps_records`: a call that throws leaves the balance, the positions,
the trade history and the two totals as they were, because every operation makes
all its checks before its first change. `bodies_compute_trades` says that the
operations of `Simulation.lean` are what these compute.

`refreshPrices` catches what it awaits, and `Logger.trade` does not throw; it is
left out.
-/

namespace FlashEdge

namespace SimulatedFlashClient

/-- What a call throws: one of the client's own errors, or that of something it
awaits. -/
inductive Thrown where
  | simulation (error : SimulationError)
  | awaited (message : String)
deriving DecidableEq, Repr

/-- The body of a method. -/
abbrev Body : Type → Type := Throwing Thrown SimulatedFlashClient

namespace Body

/-- `await` of something that is answered from outside. -/
def await {α : Type} : Except String α → Body α
  | .ok a => pure a
  | .error message => throw (.awaited message)

/-- `if (c) throw new Error(...)`. -/
def throwIf (c : Prop) [Decidable c] (error : SimulationError) : Body PUnit :=
  if c then throw (.simulation error) else pure ⟨⟩

/-- A computation that throws and changes nothing. -/
def ofExcept {α : Type} : Except SimulationError α → Body α
  | .ok a => pure a
  | .error error => throw (.simulation error)

/-- `await this.refreshPrices()`. -/
def refreshPrices (feed : PriceFeed) : Body PUnit := modify fun s => s.refreshPrices feed

/-- A change of fields of the position at an index, in place. -/
def assign (idx : ℕ) (f : SimulatedPosition → SimulatedPosition) : Body PUnit :=
  modify fun s => { s with positions := s.positions.modify idx f }

/-- `this.state.tradeHistory.push(trade); this.trimHistory()`. -/
def pushTrade (trade : SimulatedTrade) : Body PUnit := modify fun s => s.pushTrade trade

/-! ## The bodies -/

/-- The checks of `_openPosition`. -/
def checkOpen (m : Markets) (feed : PriceFeed) (config : Except String Unit)
    (fees : Except String ProtocolFeeRates) (market : String) (side : TradeSide)
    (collateralAmount leverage : ℚ) : Body (ProtocolFeeRates × OpenQuote) := do
  refreshPrices feed
  let _ ← await config
  throwIf (m.maxLeverage market < leverage) (.maximumLeverage market (m.maxLeverage market))
  let s ← get
  throwIf (validateTrade m market collateralAmount leverage s.balance = false) .invalidTrade
  let price ← ofExcept (s.getPrice market)
  let fillPrice := fillPrice m market side price
  let sizeUsd := collateralAmount * leverage
  let feeRates ← await fees
  let openFee := calcFeeUsd sizeUsd feeRates.openFeeRate
  let liquidationPrice := calcLiquidationPrice fillPrice leverage side
    feeRates.maintenanceMarginRate feeRates.closeFeeRate
  throwIf (liquidationPrice = fillPrice ∨ liquidationPrice ≤ 0) (.immediatelyLiquidated leverage)
  let s ← get
  throwIf (s.balance < collateralAmount + openFee)
    (.insufficientBalanceForFee (collateralAmount + openFee) s.balance)
  return (feeRates, { price, fillPrice, sizeUsd, openFee, liquidationPrice })

/-- The merge of `_openPosition`, field by field. -/
def mergeInto (idx : ℕ) (existing : SimulatedPosition) (feeRates : ProtocolFeeRates)
    (collateralAmount leverage : ℚ) (q : OpenQuote) : Body ℚ := do
  let totalSize := existing.sizeUsd + q.sizeUsd
  let finalEntryPrice :=
    if 0 < totalSize then
      (existing.entryPrice * existing.sizeUsd + q.fillPrice * q.sizeUsd) / totalSize
    else q.fillPrice
  assign idx fun p => { p with sizeUsd := totalSize }
  assign idx fun p => { p with collateralUsd := p.collateralUsd + collateralAmount }
  assign idx fun p =>
    let mergedLev := if 0 < p.collateralUsd then p.sizeUsd / p.collateralUsd else leverage
    { p with leverage := if 0 < mergedLev then mergedLev else leverage }
  assign idx fun p => { p with entryPrice := finalEntryPrice }
  assign idx fun p => { p with openFee := p.openFee + q.openFee }
  assign idx fun p => { p with
    liquidationPrice := some (computeSimulationLiquidationPrice p.entryPrice p.sizeUsd
      p.collateralUsd p.side feeRates.maintenanceMarginRate feeRates.closeFeeRate) }
  return finalEntryPrice

/-- What `_openPosition` does once every check has passed. The new position and
its trade take an id each. -/
def commitOpen (positionId tradeId : String) (now : ℚ) (market : String) (side : TradeSide)
    (collateralAmount leverage : ℚ) (feeRates : ProtocolFeeRates) (q : OpenQuote) :
    Body OpenPositionResult := do
  modify fun s => { s with balance := s.balance - (collateralAmount + q.openFee) }
  modify fun s => { s with totalFeesPaid := s.totalFeesPaid + q.openFee }
  let s ← get
  let trade (id : String) : SimulatedTrade :=
    { id, action := "open", market := toUpperCase market, side, sizeUsd := q.sizeUsd
      collateralUsd := collateralAmount, leverage, price := q.price, timestamp := now }
  match s.findPosition market side with
  | some (idx, existing) =>
    let finalEntryPrice ← mergeInto idx existing feeRates collateralAmount leverage q
    pushTrade (trade existing.id)
    return { txSignature := "SIM_ADD_" ++ existing.id, entryPrice := finalEntryPrice
             liquidationPrice := q.liquidationPrice, sizeUsd := q.sizeUsd }
  | none =>
    let position : SimulatedPosition :=
      { id := positionId, market := toUpperCase market, side, entryPrice := q.fillPrice
        sizeUsd := q.sizeUsd, collateralUsd := collateralAmount, leverage, openFee := q.openFee
        openedAt := now, maintenanceMarginRate := feeRates.maintenanceMarginRate
        closeFeeRate := feeRates.closeFeeRate }
    modify fun s => { s with positions := s.positions ++ [position] }
    pushTrade (trade tradeId)
    return { txSignature := "SIM_" ++ positionId, entryPrice := q.fillPrice
             liquidationPrice := q.liquidationPrice, sizeUsd := q.sizeUsd }

/-- `_openPosition`. -/
def openPosition (m : Markets) (feed : PriceFeed) (config : Except String Unit)
    (fees : Except String ProtocolFeeRates) (positionId tradeId : String) (now : ℚ)
    (market : String) (side : TradeSide) (collateralAmount leverage : ℚ) :
    Body OpenPositionResult := do
  let r ← checkOpen m feed config fees market side collateralAmount leverage
  commitOpen positionId tradeId now market side collateralAmount leverage r.1 r.2

/-- The checks of `_closePosition`. -/
def checkClose (feed : PriceFeed) (fees : Except String ProtocolFeeRates) (market : String)
    (side : TradeSide) (closePercent closeAmount : Option ℚ) :
    Body (ℕ × SimulatedPosition × ℚ × Settlement) := do
  refreshPrices feed
  let s ← get
  match s.findPosition market side with
  | none => throw (.simulation (.noOpenPosition side market))
  | some (idx, position) =>
    let price ← ofExcept (s.getPrice market)
    let requested ← ofExcept (requestedFraction position.sizeUsd closePercent closeAmount)
    let feeRates ← await fees
    return (idx, position, price, settlement position feeRates price requested
      (isPartialRequest closePercent closeAmount))

/-- The position taken out of the list, or reduced field by field. -/
def reduceOrRemove (idx : ℕ) (c : Settlement) : Body PUnit :=
  if c.full then modify fun s => { s with positions := s.positions.eraseIdx idx }
  else do
    assign idx fun p => { p with sizeUsd := p.sizeUsd - c.closedSizeUsd }
    assign idx fun p => { p with collateralUsd := p.collateralUsd - c.closedCollateral }
    assign idx fun p =>
      { p with leverage := if 0 < p.collateralUsd then p.sizeUsd / p.collateralUsd else 0 }

/-- What `_closePosition` does once every check has passed. -/
def commitClose (now : ℚ) (side : TradeSide) (isPartial : Bool) (idx : ℕ)
    (position : SimulatedPosition) (price : ℚ) (c : Settlement) : Body ClosePositionResult := do
  modify fun s => { s with totalFeesPaid := s.totalFeesPaid + c.closeFee }
  modify fun s => { s with totalRealizedPnl := s.totalRealizedPnl + c.pnl }
  modify fun s => { s with balance := s.balance + max c.returnAmount 0 }
  reduceOrRemove idx c
  -- `position` is the object that was reduced, if it was
  let position := if c.full then position else reducedPosition position c
  pushTrade
    { id := position.id, action := if c.full then "close" else "partial_close"
      market := position.market, side, sizeUsd := c.closedSizeUsd
      collateralUsd := c.closedCollateral, leverage := position.leverage
      price, entryPrice := some position.entryPrice, pnl := some c.pnl, timestamp := now }
  return { txSignature := (if c.full then "SIM_CLOSE_" else "SIM_PARTIAL_CLOSE_") ++ position.id
           exitPrice := price, pnl := c.pnl, isPartial := isPartial && !c.full
           closedSizeUsd := c.closedSizeUsd
           remainingSizeUsd := if c.full then 0 else position.sizeUsd }

/-- `_closePosition`. -/
def closePosition (feed : PriceFeed) (fees : Except String ProtocolFeeRates) (now : ℚ)
    (market : String) (side : TradeSide) (closePercent closeAmount : Option ℚ) :
    Body ClosePositionResult := do
  let r ← checkClose feed fees market side closePercent closeAmount
  commitClose now side (isPartialRequest closePercent closeAmount) r.1 r.2.1 r.2.2.1 r.2.2.2

/-- `if (!Number.isFinite(amount) || amount <= 0) throw ...`. -/
def checkAmount (amount : JsNumber) : Body ℚ :=
  match amount.finitePositive? with
  | some amount => pure amount
  | none => throw (.simulation .amountNotPositive)

/-- `pos.leverage = newLev` with the leverage of the position as it is now. -/
def assignLeverage (idx : ℕ) : Body PUnit :=
  assign idx fun p =>
    { p with leverage := if 0 < p.collateralUsd then p.sizeUsd / p.collateralUsd else 0 }

/-- The trade of a change of collateral, with the position as it is now. -/
def pushCollateralTrade (action : String) (now : ℚ) (side : TradeSide) (idx : ℕ)
    (pos : SimulatedPosition) (amount : ℚ) : Body SimulatedPosition := do
  let s ← get
  let pos := (s.positions[idx]?).getD pos
  pushTrade (s.collateralTrade action now side pos amount)
  return pos

/-- The checks of `_addCollateral`. -/
def checkAddCollateral (market : String) (side : TradeSide) (amount : JsNumber) :
    Body (ℚ × ℕ × SimulatedPosition) := do
  let amount ← checkAmount amount
  let s ← get
  throwIf (s.balance < amount) (.insufficientBalance s.balance)
  match s.findPosition market side with
  | none => throw (.simulation (.noOpenPosition side market))
  | some (idx, pos) => return (amount, idx, pos)

/-- What `_addCollateral` does once every check has passed. -/
def commitAddCollateral (now : ℚ) (side : TradeSide) (amount : ℚ) (idx : ℕ)
    (pos : SimulatedPosition) : Body CollateralResult := do
  modify fun s => { s with balance := s.balance - amount }
  assign idx fun p => { p with collateralUsd := p.collateralUsd + amount }
  assignLeverage idx
  let pos ← pushCollateralTrade "add_collateral" now side idx pos amount
  return { txSignature := "SIM_ADD_" ++ pos.id, newLeverage := pos.leverage }

/-- `_addCollateral`. -/
def addCollateral (now : ℚ) (market : String) (side : TradeSide) (amount : JsNumber) :
    Body CollateralResult := do
  let r ← checkAddCollateral market side amount
  commitAddCollateral now side r.1 r.2.1 r.2.2

/-- The checks of `_removeCollateral`. -/
def checkRemoveCollateral (feed : PriceFeed) (market : String) (side : TradeSide)
    (amount : JsNumber) : Body (ℚ × ℕ × SimulatedPosition) := do
  let amount ← checkAmount amount
  refreshPrices feed
  let s ← get
  match s.findPosition market side with
  | none => throw (.simulation (.noOpenPosition side market))
  | some (idx, pos) =>
    throwIf (pos.collateralUsd ≤ amount) .cannotRemoveAll
    let newCollateral := pos.collateralUsd - amount
    let newLev := if 0 < newCollateral then pos.sizeUsd / newCollateral else 0
    throwIf (0 < newLev ∧ s.wouldLiquidate pos side newLev) (.wouldLiquidate amount newLev)
    return (amount, idx, pos)

/-- What `_removeCollateral` does once every check has passed. -/
def commitRemoveCollateral (now : ℚ) (side : TradeSide) (amount : ℚ) (idx : ℕ)
    (pos : SimulatedPosition) : Body CollateralResult := do
  assign idx fun p => { p with collateralUsd := pos.collateralUsd - amount }
  assignLeverage idx
  modify fun s => { s with balance := s.balance + amount }
  let pos ← pushCollateralTrade "remove_collateral" now side idx pos amount
  return { txSignature := "SIM_RM_" ++ pos.id, newLeverage := pos.leverage }

/-- `_removeCollateral`. -/
def removeCollateral (feed : PriceFeed) (now : ℚ) (market : String) (side : TradeSide)
    (amount : JsNumber) : Body CollateralResult := do
  let r ← checkRemoveCollateral feed market side amount
  commitRemoveCollateral now side r.1 r.2.1 r.2.2

end Body

/-! ## The records of the client -/

/-- What a trade is about. -/
structure Records where
  balance : ℚ
  positions : List SimulatedPosition
  tradeHistory : List SimulatedTrade
  totalRealizedPnl : ℚ
  totalFeesPaid : ℚ
deriving DecidableEq, Repr

def records (s : SimulatedFlashClient) : Records :=
  { balance := s.balance, positions := s.positions, tradeHistory := s.tradeHistory
    totalRealizedPnl := s.totalRealizedPnl, totalFeesPaid := s.totalFeesPaid }

/-- A call of one of the four operations. -/
inductive TradeCall where
  | openPosition (m : Markets) (feed : PriceFeed) (config : Except String Unit)
      (fees : Except String ProtocolFeeRates) (positionId tradeId : String) (now : ℚ)
      (market : String) (side : TradeSide) (collateralAmount leverage : ℚ)
  | closePosition (feed : PriceFeed) (fees : Except String ProtocolFeeRates) (now : ℚ)
      (market : String) (side : TradeSide) (closePercent closeAmount : Option ℚ)
  | addCollateral (now : ℚ) (market : String) (side : TradeSide) (amount : JsNumber)
  | removeCollateral (feed : PriceFeed) (now : ℚ) (market : String) (side : TradeSide)
      (amount : JsNumber)

/-- The body of the called method; its result does not matter here. -/
def TradeCall.body : TradeCall → Body PUnit
  | .openPosition m feed config fees positionId tradeId now market side collateralAmount
      leverage => do
    let _ ← Body.openPosition m feed config fees positionId tradeId now market side
      collateralAmount leverage
    return ⟨⟩
  | .closePosition feed fees now market side closePercent closeAmount => do
    let _ ← Body.closePosition feed fees now market side closePercent closeAmount
    return ⟨⟩
  | .addCollateral now market side amount => do
    let _ ← Body.addCollateral now market side amount
    return ⟨⟩
  | .removeCollateral feed now market side amount => do
    let _ ← Body.removeCollateral feed now market side amount
    return ⟨⟩

namespace Body

open Throwing

/-! ## The checks keep the records -/

theorem keeps_await {α : Type} (answer : Except String α) : Keeps records (await answer) := by
  cases answer with
  | ok a => exact keeps_pure a
  | error message => exact keeps_throw _

theorem keeps_throwIf (c : Prop) [Decidable c] (error : SimulationError) :
    Keeps records (throwIf c error) := by
  unfold throwIf
  split
  · exact keeps_throw _
  · exact keeps_pure _

theorem keeps_ofExcept {α : Type} (r : Except SimulationError α) : Keeps records (ofExcept r) := by
  cases r with
  | ok a => exact keeps_pure a
  | error error => exact keeps_throw _

theorem keeps_refreshPrices (feed : PriceFeed) : Keeps records (refreshPrices feed) := by
  refine keeps_modify fun s => ?_
  obtain ⟨hbalance, hpositions, hhistory, hpnl, hfees, -⟩ := sameAccount_refreshPrices s feed
  simp only [records, hbalance, hpositions, hhistory, hpnl, hfees]

theorem keeps_checkAmount (amount : JsNumber) : Keeps records (checkAmount amount) := by
  unfold checkAmount
  split
  · exact keeps_pure _
  · exact keeps_throw _

theorem keeps_checkOpen (m : Markets) (feed : PriceFeed) (config : Except String Unit)
    (fees : Except String ProtocolFeeRates) (market : String) (side : TradeSide)
    (collateralAmount leverage : ℚ) :
    Keeps records (checkOpen m feed config fees market side collateralAmount leverage) := by
  unfold checkOpen
  refine (keeps_refreshPrices feed).bind fun _ => ?_
  refine (keeps_await config).bind fun _ => ?_
  refine (keeps_throwIf _ _).bind fun _ => ?_
  refine keeps_get.bind fun s => ?_
  refine (keeps_throwIf _ _).bind fun _ => ?_
  refine (keeps_ofExcept _).bind fun price => ?_
  refine (keeps_await fees).bind fun feeRates => ?_
  refine (keeps_throwIf _ _).bind fun _ => ?_
  refine keeps_get.bind fun s => ?_
  refine (keeps_throwIf _ _).bind fun _ => ?_
  exact keeps_pure _

theorem keeps_checkClose (feed : PriceFeed) (fees : Except String ProtocolFeeRates)
    (market : String) (side : TradeSide) (closePercent closeAmount : Option ℚ) :
    Keeps records (checkClose feed fees market side closePercent closeAmount) := by
  unfold checkClose
  refine (keeps_refreshPrices feed).bind fun _ => ?_
  refine keeps_get.bind fun s => ?_
  split
  · exact keeps_throw _
  · refine (keeps_ofExcept _).bind fun price => ?_
    refine (keeps_ofExcept _).bind fun requested => ?_
    refine (keeps_await fees).bind fun feeRates => ?_
    exact keeps_pure _

theorem keeps_checkAddCollateral (market : String) (side : TradeSide) (amount : JsNumber) :
    Keeps records (checkAddCollateral market side amount) := by
  unfold checkAddCollateral
  refine (keeps_checkAmount amount).bind fun amount => ?_
  refine keeps_get.bind fun s => ?_
  refine (keeps_throwIf _ _).bind fun _ => ?_
  split
  · exact keeps_throw _
  · exact keeps_pure _

theorem keeps_checkRemoveCollateral (feed : PriceFeed) (market : String) (side : TradeSide)
    (amount : JsNumber) : Keeps records (checkRemoveCollateral feed market side amount) := by
  unfold checkRemoveCollateral
  refine (keeps_checkAmount amount).bind fun amount => ?_
  refine (keeps_refreshPrices feed).bind fun _ => ?_
  refine keeps_get.bind fun s => ?_
  split
  · exact keeps_throw _
  · refine (keeps_throwIf _ _).bind fun _ => ?_
    refine (keeps_throwIf _ _).bind fun _ => ?_
    exact keeps_pure _

/-! ## The commits are total -/

theorem total_assign (idx : ℕ) (f : SimulatedPosition → SimulatedPosition) :
    Total (assign idx f) := total_modify _

theorem total_pushTrade (trade : SimulatedTrade) : Total (pushTrade trade) := total_modify _

theorem total_mergeInto (idx : ℕ) (existing : SimulatedPosition) (feeRates : ProtocolFeeRates)
    (collateralAmount leverage : ℚ) (q : OpenQuote) :
    Total (mergeInto idx existing feeRates collateralAmount leverage q) := by
  unfold mergeInto
  refine (total_assign _ _).bind fun _ => ?_
  refine (total_assign _ _).bind fun _ => ?_
  refine (total_assign _ _).bind fun _ => ?_
  refine (total_assign _ _).bind fun _ => ?_
  refine (total_assign _ _).bind fun _ => ?_
  refine (total_assign _ _).bind fun _ => ?_
  exact total_pure _

theorem total_commitOpen (positionId tradeId : String) (now : ℚ) (market : String)
    (side : TradeSide) (collateralAmount leverage : ℚ) (feeRates : ProtocolFeeRates)
    (q : OpenQuote) :
    Total (commitOpen positionId tradeId now market side collateralAmount leverage feeRates q) := by
  unfold commitOpen
  refine (total_modify _).bind fun _ => ?_
  refine (total_modify _).bind fun _ => ?_
  refine total_get.bind fun s => ?_
  split
  · refine (total_mergeInto _ _ _ _ _ _).bind fun _ => ?_
    refine (total_pushTrade _).bind fun _ => ?_
    exact total_pure _
  · refine (total_modify _).bind fun _ => ?_
    refine (total_pushTrade _).bind fun _ => ?_
    exact total_pure _

theorem total_reduceOrRemove (idx : ℕ) (c : Settlement) : Total (reduceOrRemove idx c) := by
  unfold reduceOrRemove
  split
  · exact total_modify _
  · refine (total_assign _ _).bind fun _ => ?_
    refine (total_assign _ _).bind fun _ => ?_
    exact total_assign _ _

theorem total_commitClose (now : ℚ) (side : TradeSide) (isPartial : Bool) (idx : ℕ)
    (position : SimulatedPosition) (price : ℚ) (c : Settlement) :
    Total (commitClose now side isPartial idx position price c) := by
  unfold commitClose
  refine (total_modify _).bind fun _ => ?_
  refine (total_modify _).bind fun _ => ?_
  refine (total_modify _).bind fun _ => ?_
  refine (total_reduceOrRemove idx c).bind fun _ => ?_
  refine (total_pushTrade _).bind fun _ => ?_
  exact total_pure _

theorem total_pushCollateralTrade (action : String) (now : ℚ) (side : TradeSide) (idx : ℕ)
    (pos : SimulatedPosition) (amount : ℚ) :
    Total (pushCollateralTrade action now side idx pos amount) := by
  unfold pushCollateralTrade
  refine total_get.bind fun s => ?_
  refine (total_pushTrade _).bind fun _ => ?_
  exact total_pure _

theorem total_commitAddCollateral (now : ℚ) (side : TradeSide) (amount : ℚ) (idx : ℕ)
    (pos : SimulatedPosition) : Total (commitAddCollateral now side amount idx pos) := by
  unfold commitAddCollateral
  refine (total_modify _).bind fun _ => ?_
  refine (total_assign _ _).bind fun _ => ?_
  refine (total_assign _ _).bind fun _ => ?_
  refine (total_pushCollateralTrade _ _ _ _ _ _).bind fun _ => ?_
  exact total_pure _

theorem total_commitRemoveCollateral (now : ℚ) (side : TradeSide) (amount : ℚ) (idx : ℕ)
    (pos : SimulatedPosition) : Total (commitRemoveCollateral now side amount idx pos) := by
  unfold commitRemoveCollateral
  refine (total_assign _ _).bind fun _ => ?_
  refine (total_assign _ _).bind fun _ => ?_
  refine (total_modify _).bind fun _ => ?_
  refine (total_pushCollateralTrade _ _ _ _ _ _).bind fun _ => ?_
  exact total_pure _

/-- Every operation checks first and commits afterwards. -/
theorem atomic_body (call : TradeCall) : Atomic records call.body := by
  have hdone : ∀ {α : Type} {m : Body α}, Atomic records m →
      Atomic records (m >>= fun _ => (pure ⟨⟩ : Body PUnit)) := fun h =>
    h.bind_total fun _ => total_pure _
  cases call with
  | openPosition m feed config fees positionId tradeId now market side collateralAmount leverage =>
    refine hdone ((keeps_checkOpen _ _ _ _ _ _ _ _).bind_atomic fun r => ?_)
    exact (total_commitOpen _ _ _ _ _ _ _ _ _).atomic
  | closePosition feed fees now market side closePercent closeAmount =>
    refine hdone ((keeps_checkClose _ _ _ _ _ _).bind_atomic fun r => ?_)
    exact (total_commitClose _ _ _ _ _ _ _).atomic
  | addCollateral now market side amount =>
    refine hdone ((keeps_checkAddCollateral _ _ _).bind_atomic fun r => ?_)
    exact (total_commitAddCollateral _ _ _ _ _).atomic
  | removeCollateral feed now market side amount =>
    refine hdone ((keeps_checkRemoveCollateral _ _ _ _).bind_atomic fun r => ?_)
    exact (total_commitRemoveCollateral _ _ _ _ _).atomic

/-! ## What the bodies compute -/

/-- The outcome of a computation of `Simulation.lean` that starts from `s`. -/
def outcome {α β : Type} (s : SimulatedFlashClient) (f : α → β) :
    Except SimulationError (SimulatedFlashClient × α) → Except Thrown β × SimulatedFlashClient
  | .ok (s', a) => (.ok (f a), s')
  | .error e => (.error (.simulation e), s)

theorem perform_throwIf_bind {β : Type} (c : Prop) [Decidable c] (error : SimulationError)
    (f : PUnit → Body β) (s : SimulatedFlashClient) :
    (throwIf c error >>= f).perform s =
      if c then (.error (.simulation error), s) else (f ⟨⟩).perform s := by
  unfold throwIf
  split
  · exact perform_throw_bind _ _ _
  · exact perform_pure_bind _ _ _

theorem perform_checkOpen (m : Markets) (feed : PriceFeed) (feeRates : ProtocolFeeRates)
    (market : String) (side : TradeSide) (collateralAmount leverage : ℚ)
    (s : SimulatedFlashClient) :
    (checkOpen m feed (.ok ()) (.ok feeRates) market side collateralAmount leverage).perform s =
      match quoteOpen m (s.refreshPrices feed) feeRates market side collateralAmount leverage with
      | .ok q => (.ok (feeRates, q), s.refreshPrices feed)
      | .error e => (.error (.simulation e), s.refreshPrices feed) := by
  unfold checkOpen quoteOpen refreshPrices await
  simp only [perform_modify_bind, perform_pure_bind, perform_get_bind, perform_throwIf_bind]
  generalize s.refreshPrices feed = s
  by_cases hlev : m.maxLeverage market < leverage
  · simp only [if_pos hlev]
  · simp only [if_neg hlev]
    cases hvalid : validateTrade m market collateralAmount leverage s.balance with
    | false => simp
    | true =>
      simp only [Bool.true_eq_false, if_false, Bool.not_true, Bool.false_eq_true]
      cases hprice : s.getPrice market with
      | error e => simp [ofExcept]
      | ok price =>
        simp only [ofExcept, perform_pure_bind, perform_get_bind, perform_throwIf_bind,
          perform_pure]
        split_ifs <;> rfl

theorem perform_assign_bind {β : Type} (idx : ℕ) (g : SimulatedPosition → SimulatedPosition)
    (f : PUnit → Body β) (s : SimulatedFlashClient) :
    (assign idx g >>= f).perform s =
      (f ⟨⟩).perform { s with positions := s.positions.modify idx g } :=
  perform_modify_bind _ _ _

theorem perform_pushTrade_bind {β : Type} (trade : SimulatedTrade) (f : PUnit → Body β)
    (s : SimulatedFlashClient) :
    (pushTrade trade >>= f).perform s = (f ⟨⟩).perform (s.pushTrade trade) :=
  perform_modify_bind _ _ _

/-- Assigning to the fields of the object at an index replaces it. -/
theorem modify_eq_set {positions : List SimulatedPosition} {idx : ℕ} {p : SimulatedPosition}
    (hp : positions[idx]? = some p) (g : SimulatedPosition → SimulatedPosition) :
    positions.modify idx g = positions.set idx (g p) := by
  rw [List.modify_eq_set_getElem?, hp]
  rfl

theorem findPosition_get {s : SimulatedFlashClient} {market : String} {side : TradeSide} {idx : ℕ}
    {p : SimulatedPosition} (h : s.findPosition market side = some (idx, p)) :
    s.positions[idx]? = some p := by
  unfold findPosition at h
  obtain ⟨i, -, hi⟩ := Option.bind_eq_some_iff.mp h
  obtain ⟨q, hq, heq⟩ := Option.map_eq_some_iff.mp hi
  cases heq
  exact hq

theorem perform_commitOpen (id : String) (now : ℚ) (market : String) (side : TradeSide)
    (collateralAmount leverage : ℚ) (feeRates : ProtocolFeeRates) (q : OpenQuote)
    (s : SimulatedFlashClient) :
    (commitOpen id id now market side collateralAmount leverage feeRates q).perform s =
      (.ok (s.applyOpen feeRates id now market side collateralAmount leverage q).2,
        (s.applyOpen feeRates id now market side collateralAmount leverage q).1) := by
  unfold commitOpen applyOpen
  simp only [perform_modify_bind, perform_get_bind]
  have hfind : ({ s with
      balance := s.balance - (collateralAmount + q.openFee)
      totalFeesPaid := s.totalFeesPaid + q.openFee } : SimulatedFlashClient).findPosition market
      side = s.findPosition market side := rfl
  rw [hfind]
  cases hf : s.findPosition market side with
  | none =>
    simp only [perform_modify_bind, perform_pushTrade_bind, perform_pure]
  | some found =>
    obtain ⟨idx, existing⟩ := found
    have hget := findPosition_get hf
    simp only [mergeInto, bind_assoc, pure_bind, perform_assign_bind, perform_pushTrade_bind,
      perform_pure, List.modify_modify_eq]
    rw [modify_eq_set hget]
    rfl

theorem perform_openPosition (m : Markets) (feed : PriceFeed) (feeRates : ProtocolFeeRates)
    (id : String) (now : ℚ) (market : String) (side : TradeSide) (collateralAmount leverage : ℚ)
    (s : SimulatedFlashClient) :
    (openPosition m feed (.ok ()) (.ok feeRates) id id now market side collateralAmount
        leverage).perform s =
      outcome (s.refreshPrices feed) Prod.fst (SimulatedFlashClient.openPosition m
        (s.refreshPrices feed) feeRates id now market side collateralAmount leverage) := by
  have hcheck := perform_checkOpen m feed feeRates market side collateralAmount leverage s
  unfold openPosition SimulatedFlashClient.openPosition
  cases hq : quoteOpen m (s.refreshPrices feed) feeRates market side collateralAmount leverage with
  | error e =>
    rw [hq] at hcheck
    rw [perform_bind_error hcheck]
    rfl
  | ok q =>
    rw [hq] at hcheck
    rw [perform_bind_ok hcheck, perform_commitOpen]
    rfl

theorem perform_closePosition (feed : PriceFeed) (feeRates : ProtocolFeeRates) (now : ℚ)
    (market : String) (side : TradeSide) (closePercent closeAmount : Option ℚ)
    (s : SimulatedFlashClient) :
    (closePosition feed (.ok feeRates) now market side closePercent closeAmount).perform s =
      outcome (s.refreshPrices feed) Prod.fst ((s.refreshPrices feed).closePosition feeRates now
        market side closePercent closeAmount) := by
  unfold closePosition checkClose refreshPrices await SimulatedFlashClient.closePosition
  simp only [bind_assoc, perform_modify_bind, perform_get_bind]
  generalize s.refreshPrices feed = s
  cases hf : s.findPosition market side with
  | none => rfl
  | some found =>
    obtain ⟨idx, position⟩ := found
    have hget := findPosition_get hf
    dsimp only
    cases hprice : s.getPrice market with
    | error e => rfl
    | ok price =>
      cases hreq : requestedFraction position.sizeUsd closePercent closeAmount with
      | error e => rfl
      | ok requested =>
        simp only [ofExcept, pure_bind, commitClose, perform_modify_bind, reduceOrRemove]
        generalize settlement position feeRates price requested
          (isPartialRequest closePercent closeAmount) = c
        cases hfull : c.full with
        | true =>
          simp only [if_true, perform_modify_bind, perform_pushTrade_bind, perform_pure, applyClose,
            hfull, outcome]
        | false =>
          simp only [Bool.false_eq_true, if_false, bind_assoc, perform_assign_bind,
            perform_pushTrade_bind, List.modify_modify_eq]
          rw [modify_eq_set hget]
          simp only [applyClose, hfull, outcome, Bool.false_eq_true, if_false]
          rfl

/-- The end of both changes of collateral: the position as it is now is recorded. -/
theorem perform_pushCollateralTrade_bind {β : Type} (action : String) (now : ℚ) (side : TradeSide)
    (idx : ℕ) {old : SimulatedPosition} (pos : SimulatedPosition) (amount : ℚ)
    (f : SimulatedPosition → Body β) {s : SimulatedFlashClient} (hpos : s.positions[idx]? = some pos) :
    (pushCollateralTrade action now side idx old amount >>= f).perform s =
      (f pos).perform (s.pushTrade (s.collateralTrade action now side pos amount)) := by
  unfold pushCollateralTrade
  simp only [bind_assoc, pure_bind, perform_get_bind, perform_pushTrade_bind, hpos,
    Option.getD_some]

theorem perform_checkAmount {amount : ℚ} (hamount : 0 < amount) :
    checkAmount (.finite amount) = pure amount := by
  have hpos : (JsNumber.finite amount).finitePositive? = some amount := if_pos hamount
  unfold checkAmount
  rw [hpos]

theorem perform_addCollateral (now : ℚ) (market : String) (side : TradeSide) {amount : ℚ}
    (hamount : 0 < amount) (s : SimulatedFlashClient) :
    (addCollateral now market side (.finite amount)).perform s =
      outcome s id (s.addCollateral now market side amount) := by
  unfold addCollateral checkAddCollateral SimulatedFlashClient.addCollateral
  simp only [perform_checkAmount hamount, pure_bind, bind_assoc, perform_get_bind,
    perform_throwIf_bind, if_neg (not_le.mpr hamount)]
  by_cases hbalance : s.balance < amount
  · simp only [if_pos hbalance]
    rfl
  · simp only [if_neg hbalance]
    cases hf : s.findPosition market side with
    | none => rfl
    | some found =>
      obtain ⟨idx, pos⟩ := found
      have hget := findPosition_get hf
      obtain ⟨hlt, -⟩ := List.getElem?_eq_some_iff.mp hget
      simp only [pure_bind, commitAddCollateral, assignLeverage, perform_modify_bind,
        perform_assign_bind, List.modify_modify_eq]
      rw [modify_eq_set hget, perform_pushCollateralTrade_bind _ _ _ _
        (withCollateral pos (pos.collateralUsd + amount))]
      · rfl
      · exact List.getElem?_set_self hlt

theorem perform_removeCollateral (feed : PriceFeed) (now : ℚ) (market : String) (side : TradeSide)
    {amount : ℚ} (hamount : 0 < amount) (s : SimulatedFlashClient) :
    (removeCollateral feed now market side (.finite amount)).perform s =
      outcome (s.refreshPrices feed) id
        ((s.refreshPrices feed).removeCollateral now market side amount) := by
  unfold removeCollateral checkRemoveCollateral refreshPrices
    SimulatedFlashClient.removeCollateral
  simp only [perform_checkAmount hamount, pure_bind, bind_assoc, perform_modify_bind,
    perform_get_bind]
  generalize s.refreshPrices feed = s
  cases hf : s.findPosition market side with
  | none => rfl
  | some found =>
    obtain ⟨idx, pos⟩ := found
    have hget := findPosition_get hf
    obtain ⟨hlt, -⟩ := List.getElem?_eq_some_iff.mp hget
    simp only [bind_assoc, perform_throwIf_bind]
    by_cases hall : pos.collateralUsd ≤ amount
    · simp only [if_pos hall]
      rfl
    · simp only [if_neg hall]
      generalize (if 0 < pos.collateralUsd - amount then pos.sizeUsd / (pos.collateralUsd - amount)
        else 0) = newLev
      by_cases hliq : 0 < newLev ∧ s.wouldLiquidate pos side newLev = true
      · simp only [if_pos hliq]
        rfl
      · simp only [if_neg hliq, pure_bind, commitRemoveCollateral, assignLeverage,
          perform_modify_bind, perform_assign_bind, List.modify_modify_eq]
        rw [modify_eq_set hget, perform_pushCollateralTrade_bind _ _ _ _
          (withCollateral pos (pos.collateralUsd - amount))]
        · rfl
        · exact List.getElem?_set_self hlt

end Body

/-- **A call that throws changes no record**: in every state and at
whichever check or awaited answer it throws. -/
theorem failed_call_keeps_records (call : TradeCall) (s : SimulatedFlashClient) (e : Thrown)
    (he : (call.body.perform s).1 = .error e) : (call.body.perform s).2.records = s.records :=
  Body.atomic_body call s e he

/-- An opening whose fee is not covered: the last check, after the prices have
been refreshed. -/
def uncoveredFee : TradeCall :=
  .openPosition { maxLeverage := fun _ => 100, slippageBps := fun _ => 0 }
    { primary := some [("SOL", { price := .finite 100, priceChange24h := 0 })], secondary := none }
    (.ok ()) (.ok { openFeeRate := 1 / 1000, closeFeeRate := 1 / 1000
                    maintenanceMarginRate := 1 / 100 })
    "a" "b" 0 "sol" .Long 100 2

theorem failed_call_keeps_records_uncoveredFee :
    (uncoveredFee.body.perform { balance := 100 }).1 =
        .error (.simulation (.insufficientBalanceForFee (501 / 5) 100)) ∧
      (uncoveredFee.body.perform { balance := 100 }).2.records =
        records { balance := 100 } := by
  have hthrows : (uncoveredFee.body.perform { balance := 100 }).1 =
      .error (.simulation (.insufficientBalanceForFee (501 / 5) 100)) := by decide +kernel
  exact ⟨hthrows, failed_call_keeps_records _ _ _ hthrows⟩

end SimulatedFlashClient

end FlashEdge
