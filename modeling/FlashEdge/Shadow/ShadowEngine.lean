import FlashEdge.Client.Simulation

/-!
# Shadow trading (`shadow/shadow-engine.ts` and the trades of the tools)

The shadow engine holds a paper-trading client of its own, which repeats the trades of the
session. It does not watch the primary client: a tool that has traded calls the engine.
What the engine throws is caught, so the tool does not see whether the copy was made.

`shadowedTrading` is the machine of the successful trades of a simulated session with
shadow trading on. A trade takes what either client gets from outside (`Outside`).
-/

namespace FlashEdge

/-- What an operation gets from outside: prices, fee rates, a fresh id and the clock. -/
structure Outside where
  feed : SimulatedFlashClient.PriceFeed
  feeRates : ProtocolFeeRates
  id : String
  now : ℚ

namespace SimulatedFlashClient

/-! ## The public methods, which throw or not -/

def callOpenPosition (m : Markets) (s : SimulatedFlashClient) (o : Outside) (market : String)
    (side : TradeSide) (collateral leverage : ℚ) :
    SimulatedFlashClient × Except SimulationError OpenPositionResult :=
  let s := s.refreshPrices o.feed
  match openPosition m s o.feeRates o.id o.now market side collateral leverage with
  | .ok (s, result, _) => (s, .ok result)
  | .error error => (s, .error error)

def callClosePosition (s : SimulatedFlashClient) (o : Outside) (market : String)
    (side : TradeSide) (closePercent closeAmount : Option ℚ) :
    SimulatedFlashClient × Except SimulationError ClosePositionResult :=
  let s := s.refreshPrices o.feed
  match s.closePosition o.feeRates o.now market side closePercent closeAmount with
  | .ok (s, result, _) => (s, .ok result)
  | .error error => (s, .error error)

def callAddCollateral (s : SimulatedFlashClient) (o : Outside) (market : String)
    (side : TradeSide) (amount : ℚ) :
    SimulatedFlashClient × Except SimulationError CollateralResult :=
  match s.addCollateral o.now market side amount with
  | .ok (s, result) => (s, .ok result)
  | .error error => (s, .error error)

def callRemoveCollateral (s : SimulatedFlashClient) (o : Outside) (market : String)
    (side : TradeSide) (amount : ℚ) :
    SimulatedFlashClient × Except SimulationError CollateralResult :=
  if amount ≤ 0 then (s, .error .amountNotPositive)
  else
    let s := s.refreshPrices o.feed
    match s.removeCollateral o.now market side amount with
    | .ok (s, result) => (s, .ok result)
    | .error error => (s, .error error)

end SimulatedFlashClient

open SimulatedFlashClient

/-! ## The engine -/

inductive ShadowAction where
  | opening
  | close
  | addCollateral
  | removeCollateral
deriving DecidableEq, Repr

structure ShadowTradeResult where
  action : ShadowAction
  market : String
  side : TradeSide
  success : Bool
  shadowPnl : Option ℚ := none
  shadowBalance : Option ℚ := none
  entryPrice : Option ℚ := none
  exitPrice : Option ℚ := none
  error : Option SimulationError := none
deriving DecidableEq, Repr

structure ShadowEngine where
  client : SimulatedFlashClient
  enabled : Bool
  tradeCount : ℕ := 0
  totalRealizedPnl : ℚ := 0

namespace ShadowEngine

def shadowOpen (m : Markets) (e : ShadowEngine) (o : Outside) (market : String)
    (side : TradeSide) (collateral leverage : ℚ) : ShadowEngine × Option ShadowTradeResult :=
  if !e.enabled then (e, none)
  else
    match callOpenPosition m e.client o market side collateral leverage with
    | (client, .ok result) =>
      ({ e with client, tradeCount := e.tradeCount + 1 },
        some { action := .opening, market, side, success := true
               shadowBalance := some client.balance, entryPrice := some result.entryPrice })
    | (client, .error error) =>
      ({ e with client },
        some { action := .opening, market, side, success := false, error := some error })

/-- A close is always that of the whole position. -/
def shadowClose (e : ShadowEngine) (o : Outside) (market : String) (side : TradeSide) :
    ShadowEngine × Option ShadowTradeResult :=
  if !e.enabled then (e, none)
  else
    match e.client.callClosePosition o market side none none with
    | (client, .ok result) =>
      ({ e with
          client
          tradeCount := e.tradeCount + 1
          totalRealizedPnl := e.totalRealizedPnl + result.pnl },
        some { action := .close, market, side, success := true, shadowPnl := some result.pnl
               shadowBalance := some client.balance, exitPrice := some result.exitPrice })
    | (client, .error error) =>
      ({ e with client },
        some { action := .close, market, side, success := false, error := some error })

def shadowAddCollateral (e : ShadowEngine) (o : Outside) (market : String) (side : TradeSide)
    (amount : ℚ) : ShadowEngine × Option ShadowTradeResult :=
  if !e.enabled then (e, none)
  else
    match e.client.callAddCollateral o market side amount with
    | (client, .ok _) =>
      ({ e with client, tradeCount := e.tradeCount + 1 },
        some { action := .addCollateral, market, side, success := true
               shadowBalance := some client.balance })
    | (client, .error error) =>
      ({ e with client },
        some { action := .addCollateral, market, side, success := false, error := some error })

def shadowRemoveCollateral (e : ShadowEngine) (o : Outside) (market : String)
    (side : TradeSide) (amount : ℚ) : ShadowEngine × Option ShadowTradeResult :=
  if !e.enabled then (e, none)
  else
    match e.client.callRemoveCollateral o market side amount with
    | (client, .ok _) =>
      ({ e with client, tradeCount := e.tradeCount + 1 },
        some { action := .removeCollateral, market, side, success := true
               shadowBalance := some client.balance })
    | (client, .error error) =>
      ({ e with client },
        some { action := .removeCollateral, market, side, success := false, error := some error })

end ShadowEngine

/-! ## The tools -/

/-- The session's client and the engine. -/
structure ShadowedTrading where
  primary : SimulatedFlashClient
  shadow : ShadowEngine

namespace ShadowedTrading

/-- The trades, each with what the primary client and the shadow one get from outside. In
between the primary client may refresh its prices. -/
inductive Trade where
  | refreshPrices (feed : PriceFeed)
  | openPosition (own copy : Outside) (market : String) (side : TradeSide)
      (collateral leverage : ℚ)
  | closePosition (own copy : Outside) (market : String) (side : TradeSide)
      (closePercent closeAmount : Option ℚ)
  | closeAll (own : List Outside)
  | addCollateral (own copy : Outside) (market : String) (side : TradeSide) (amount : ℚ)
  | removeCollateral (own copy : Outside) (market : String) (side : TradeSide) (amount : ℚ)

/-- Both clients trade the market at one price. -/
def SamePrice (s : ShadowedTrading) (own copy : Outside) (market : String) : Prop :=
  (s.primary.refreshPrices own.feed).livePrices.get? (toUpperCase market) =
    (s.shadow.client.refreshPrices copy.feed).livePrices.get? (toUpperCase market)

instance (s : ShadowedTrading) (own copy : Outside) (market : String) :
    Decidable (s.SamePrice own copy market) := by
  unfold SamePrice
  infer_instance

/-- `flash_open_position`, once confirmed. -/
def flashOpenPosition (m : Markets) (s : ShadowedTrading) (own copy : Outside) (market : String)
    (side : TradeSide) (collateral leverage : ℚ) : Option ShadowedTrading :=
  match callOpenPosition m s.primary own market side collateral leverage with
  | (primary, .ok _) =>
    some { primary, shadow := (s.shadow.shadowOpen m copy market side collateral leverage).1 }
  | _ => none

/-- What `flash_close_position` checks of its parameters. -/
def validClose (closePercent closeAmount : Option ℚ) : Bool :=
  closePercent.all (fun percent => decide (1 ≤ percent) && decide (percent ≤ 100)) &&
    closeAmount.all fun amount => decide (0 < amount)

/-- `flash_close_position`, once confirmed: the copy of a full close only. -/
def flashClosePosition (s : ShadowedTrading) (own copy : Outside) (market : String)
    (side : TradeSide) (closePercent closeAmount : Option ℚ) : Option ShadowedTrading :=
  match s.primary.callClosePosition own market side closePercent closeAmount with
  | (primary, .ok result) =>
    if result.isPartial then some { s with primary }
    else if s.SamePrice own copy market then
      some { primary, shadow := (s.shadow.shadowClose copy market side).1 }
    else none
  | _ => none

/-- The loop of `flash_close_all`, when every close succeeds. -/
def closeEach (s : SimulatedFlashClient) :
    List (SimulatedPosition × Outside) → Option SimulatedFlashClient
  | [] => some s
  | (pos, o) :: rest =>
    match s.callClosePosition o pos.market pos.side none none with
    | (s, .ok _) => closeEach s rest
    | _ => none

/-- `flash_close_all`, once confirmed. -/
def flashCloseAll (s : ShadowedTrading) (own : List Outside) : Option ShadowedTrading :=
  (closeEach s.primary (s.primary.positions.zip own)).map fun primary => { s with primary }

def flashAddCollateral (s : ShadowedTrading) (own copy : Outside) (market : String)
    (side : TradeSide) (amount : ℚ) : Option ShadowedTrading :=
  match s.primary.callAddCollateral own market side amount with
  | (primary, .ok _) =>
    some { primary, shadow := (s.shadow.shadowAddCollateral copy market side amount).1 }
  | _ => none

def flashRemoveCollateral (s : ShadowedTrading) (own copy : Outside) (market : String)
    (side : TradeSide) (amount : ℚ) : Option ShadowedTrading :=
  match s.primary.callRemoveCollateral own market side amount with
  | (primary, .ok _) =>
    some { primary, shadow := (s.shadow.shadowRemoveCollateral copy market side amount).1 }
  | _ => none

/-- A trade, if it succeeds, at one price for both. -/
def step (m : Markets) (s : ShadowedTrading) (a : Trade) : Option (ShadowedTrading × List Unit) :=
  next.map fun s => (s, [])
where
  next : Option ShadowedTrading :=
    match a with
    | .refreshPrices feed => some { s with primary := s.primary.refreshPrices feed }
    | .openPosition own copy market side collateral leverage =>
      if s.SamePrice own copy market then
        s.flashOpenPosition m own copy market side collateral leverage
      else none
    | .closePosition own copy market side closePercent closeAmount =>
      if validClose closePercent closeAmount then
        s.flashClosePosition own copy market side closePercent closeAmount
      else none
    | .closeAll own =>
      if own.length = s.primary.positions.length then s.flashCloseAll own else none
    | .addCollateral own copy market side amount =>
      s.flashAddCollateral own copy market side amount
    | .removeCollateral own copy market side amount =>
      s.flashRemoveCollateral own copy market side amount

end ShadowedTrading

/-- A simulated session with shadow trading on. -/
def shadowedTrading (m : Markets) (initialBalance shadowBalance : ℚ) :
    Machine ShadowedTrading ShadowedTrading.Trade Unit where
  init := {
    primary := { balance := initialBalance }
    shadow := { client := { balance := shadowBalance }, enabled := true } }
  step := ShadowedTrading.step m

end FlashEdge
