import FlashEdge.Client.LivePrices

/-!
# The prices that paper trades are executed at

`pricedSimulation` is the paper-trading client with its price service, operation after
operation: what the sources answer to a refresh is part of the action, and every operation
leaves a record of the prices it has fetched and of the trade it has executed.

The client means to refuse an operation whose price it cannot fetch. But the live prices stay
from one refresh to the next, the price service returns what it has cached, and a collateral
change takes the entry price where there is none; adding collateral never asks.
`fresh_iff`: along a run every trade is at a price that its own operation has fetched, exactly
when every operation fetches the price of its market, or fails its checks at the price that is
held.
-/

namespace FlashEdge

open SimulatedFlashClient PriceService

namespace PricedClient

/-! ## The machine -/

/-- An operation that trades, with what it needs besides prices. -/
inductive Operation where
  | openPosition (feeRates : ProtocolFeeRates) (id : String) (now : ℚ) (market : String)
      (side : TradeSide) (collateralAmount leverage : ℚ)
  | closePosition (feeRates : ProtocolFeeRates) (now : ℚ) (market : String) (side : TradeSide)
      (closePercent closeAmount : Option ℚ)
  | addCollateral (now : ℚ) (market : String) (side : TradeSide) (amount : ℚ)
  | removeCollateral (now : ℚ) (market : String) (side : TradeSide) (amount : ℚ)
  | triggerNext (feeRates : ProtocolFeeRates) (now : ℚ)

/-- The action of the client. -/
def Operation.action (feed : PriceFeed) : Operation → Action
  | .openPosition feeRates id now market side collateralAmount leverage =>
    .openPosition feed feeRates id now market side collateralAmount leverage
  | .closePosition feeRates now market side closePercent closeAmount =>
    .closePosition feed feeRates now market side closePercent closeAmount
  | .addCollateral now market side amount => .addCollateral now market side amount
  | .removeCollateral now market side amount => .removeCollateral feed now market side amount
  | .triggerNext feeRates now => .triggerNext feed feeRates now

/-- The position that the next index of the TP/SL pass closes. -/
def triggered (s : SimulatedFlashClient) : Option SimulatedPosition :=
  match s.triggerIndex with
  | some (i + 1) => s.triggeredAt i
  | _ => none

/-- Whether the operation refreshes the prices. -/
def Operation.refreshes (s : SimulatedFlashClient) : Operation → Bool
  | .openPosition .. => true
  | .closePosition .. => true
  | .addCollateral .. => false
  | .removeCollateral _ _ _ amount => 0 < amount
  | .triggerNext .. => (triggered s).isSome

/-- What another user of the breaker does with it. -/
inductive BreakerUse where
  | allowRequest (now : ℚ)
  | recordSuccess
  | recordFailure (now : ℚ)

def BreakerUse.apply (cb : ServiceCircuitBreaker) : BreakerUse → ServiceCircuitBreaker
  | .allowRequest now => (cb.allowRequest now).1
  | .recordSuccess => cb.recordSuccess
  | .recordFailure now => cb.recordFailure now

inductive PricedAction where
  | refreshPrices (a : FetchAnswers)
  | getMarketData (a : FetchAnswers) (defaults : PriceAnswer)
  | operate (op : Operation) (a : FetchAnswers)
  | setTpSl (market : String) (side : TradeSide) (tp sl : Option ℚ)
  | removeTpSl (market : String) (side : TradeSide)
  | checkTpSlTriggers
  | breakerUsed (use : BreakerUse)

/-- An operation: the prices it has fetched, and the market and the price of the trade that
it has recorded, unless it was refused. -/
structure OperationRecord where
  fetched : List (String × ℚ)
  executed : Option (String × ℚ)
deriving DecidableEq, Repr

/-- The trade that the client has recorded last, if it has moved money. -/
def executedTrade (s : SimulatedFlashClient) :
    List Event → Option (String × ℚ)
  | [] => none
  | [.failed _] => none
  | _ => s.tradeHistory.getLast?.map fun trade => (trade.market, trade.price)

/-- `defaultSymbols` of `getMarketData`. -/
def defaultSymbols : List String :=
  ["SOL", "BTC", "ETH", "BNB", "JUP", "PYTH", "RAY", "BONK", "WIF"]

/-- Without any live price the common markets are asked for. -/
def fetchDefaults (σ : PricedClient) (a : PriceAnswer) : PricedClient :=
  if σ.client.livePrices.size = 0 then
    let r := σ.priceService.getPrices σ.breaker defaultSymbols a
    { client := { σ.client with
        livePrices :=
          r.prices.entries.foldl (fun m e => m.set e.1 e.2.price.1) σ.client.livePrices }
      priceService := r.service
      breaker := r.breaker }
  else σ

section

variable (m : Markets) (symbols : List String)

/-- An operation of the client, with the prices it refreshes. -/
def operate (σ : PricedClient) (op : Operation) (a : FetchAnswers) :
    Option (PricedClient × List OperationRecord) :=
  match SimulatedFlashClient.step m σ.client (op.action (σ.feed symbols a)) with
  | none => none
  | some (client, es) =>
    let executed := executedTrade client es
    if op.refreshes σ.client then
      some ({ σ.refresh symbols a with client }, [{ fetched := σ.fetched symbols a, executed }])
    else some ({ σ with client }, [{ fetched := [], executed }])

def step (σ : PricedClient) : PricedAction → Option (PricedClient × List OperationRecord)
  | .refreshPrices a => some (σ.refresh symbols a, [])
  | .getMarketData a defaults => some ((σ.refresh symbols a).fetchDefaults defaults, [])
  | .operate op a => σ.operate m symbols op a
  | .setTpSl market side tp sl =>
    some ({ σ with client := (σ.client.setTpSl market side tp sl).1 }, [])
  | .removeTpSl market side => some ({ σ with client := (σ.client.removeTpSl market side).1 }, [])
  | .checkTpSlTriggers =>
    (SimulatedFlashClient.step m σ.client .checkTpSlTriggers).map fun r =>
      ({ σ with client := r.1 }, [])
  | .breakerUsed use => some ({ σ with breaker := use.apply σ.breaker }, [])

end

end PricedClient

/-- The client with its price service, started with a balance. -/
def pricedSimulation (m : Markets) (symbols : List String) (initialBalance : ℚ) :
    Machine PricedClient PricedClient.PricedAction PricedClient.OperationRecord where
  init := { client := { balance := initialBalance } }
  step := PricedClient.step m symbols

namespace PricedClient

/-! ## The property -/

/-- A trade is at a price that its operation has fetched. -/
def OperationRecord.Fresh (r : OperationRecord) : Prop :=
  ∀ trade ∈ r.executed, trade ∈ r.fetched

/-- Every trade is. -/
def FreshPrices (h : List OperationRecord) : Prop := ∀ r ∈ h, r.Fresh

/-! ## The condition -/

section

variable (m : Markets) (s : SimulatedFlashClient)

/-- The checks of an opening pass at a price. -/
def OpensAt (feeRates : ProtocolFeeRates) (market : String) (side : TradeSide)
    (collateralAmount leverage : ℚ) (price : Option ℚ) : Prop :=
  leverage ≤ m.maxLeverage market ∧
    validateTrade m market collateralAmount leverage s.balance = true ∧
    ∃ p ∈ price, 0 < p ∧
      let fill := fillPrice m market side p
      let liquidation := calcLiquidationPrice fill leverage side
        feeRates.maintenanceMarginRate feeRates.closeFeeRate
      liquidation ≠ fill ∧ 0 < liquidation ∧
        collateralAmount + calcFeeUsd (collateralAmount * leverage) feeRates.openFeeRate ≤ s.balance

/-- The checks of a close pass at a price. -/
def ClosesAt (market : String) (side : TradeSide) (closePercent closeAmount : Option ℚ)
    (price : Option ℚ) : Prop :=
  ∃ found ∈ s.findPosition market side, (∃ p ∈ price, 0 < p) ∧
    ∃ part, requestedFraction found.2.sizeUsd closePercent closeAmount = .ok part

/-- The checks of adding collateral pass; no price is asked for. -/
def Adds (market : String) (side : TradeSide) (amount : ℚ) : Prop :=
  0 < amount ∧ amount ≤ s.balance ∧ (s.findPosition market side).isSome

/-- A position with the leverage would be liquidated at a price, or could not be opened. -/
def LiquidatesAt (pos : SimulatedPosition) (side : TradeSide) (newLev price : ℚ) : Prop :=
  let newLiqPrice := calcLiquidationPrice pos.entryPrice newLev side
    pos.maintenanceMarginRate pos.closeFeeRate
  (match side with
    | .Long => price ≤ newLiqPrice
    | .Short => newLiqPrice ≤ price) ∨ newLiqPrice ≤ 0 ∨ newLiqPrice = pos.entryPrice

/-- The checks of removing collateral pass at a price, or at the entry price. -/
def RemovesAt (market : String) (side : TradeSide) (amount : ℚ) (price : Option ℚ) : Prop :=
  0 < amount ∧ ∃ found ∈ s.findPosition market side, amount < found.2.collateralUsd ∧
    ¬ (0 < found.2.sizeUsd / (found.2.collateralUsd - amount) ∧
      LiquidatesAt found.2 side (found.2.sizeUsd / (found.2.collateralUsd - amount))
        (price.getD found.2.entryPrice))

end

/-- The operation fetches the price of its market, or fails its checks at the price that is
held. -/
def FetchesOrFails (m : Markets) (symbols : List String) (σ : PricedClient) (a : FetchAnswers) :
    Operation → Prop
  | .openPosition feeRates _ _ market side collateralAmount leverage =>
    σ.Fetches symbols a (toUpperCase market) ∨
      ¬ OpensAt m σ.client feeRates market side collateralAmount leverage
        (σ.held symbols a (toUpperCase market))
  | .closePosition _ _ market side closePercent closeAmount =>
    σ.Fetches symbols a (toUpperCase market) ∨
      ¬ ClosesAt σ.client market side closePercent closeAmount
        (σ.held symbols a (toUpperCase market))
  | .addCollateral _ market side amount => ¬ Adds σ.client market side amount
  | .removeCollateral _ market side amount =>
    σ.Fetches symbols a (toUpperCase market) ∨
      ¬ RemovesAt σ.client market side amount (σ.held symbols a (toUpperCase market))
  | .triggerNext _ _ =>
    ∀ pos ∈ triggered σ.client, σ.Fetches symbols a (toUpperCase pos.market) ∨
      ¬ ClosesAt σ.client pos.market pos.side none none
        (σ.held symbols a (toUpperCase pos.market))

/-- The condition on a step. -/
def KeepsFresh (m : Markets) (symbols : List String) (σ : PricedClient) : PricedAction → Prop
  | .operate op a => σ.FetchesOrFails m symbols a op
  | _ => True

/-! ## What an operation records -/

/-- An operation with a price: if its checks pass, it has traded at that price, or at one of
its own where there is none; otherwise it was refused. -/
inductive Outcome (checks : Prop) (market : String) (price : Option ℚ) :
    Option (String × ℚ) → Prop where
  | executed {p : ℚ} : checks → (∀ q ∈ price, q = p) →
      Outcome checks market price (some (market, p))
  | refused : ¬ checks → Outcome checks market price none

/-- A record is fresh if the price was fetched, and otherwise if the checks have failed at the
price that was held. -/
theorem Outcome.record_fresh {symbols : List String} {σ : PricedClient} {a : FetchAnswers}
    {market : String} (checks : Option ℚ → Prop) {executed : Option (String × ℚ)}
    (h : Outcome (checks ((σ.refresh symbols a).client.livePrices.get? market)) market
      ((σ.refresh symbols a).client.livePrices.get? market) executed) :
    OperationRecord.Fresh { fetched := σ.fetched symbols a, executed } ↔
      σ.Fetches symbols a market ∨ ¬ checks (σ.held symbols a market) := by
  rcases live_cases symbols σ a market with
    ⟨hfetches, price, hlive, hmem⟩ | ⟨hno, hlive, hnone⟩
  · refine ⟨fun _ => .inl hfetches, fun _ => ?_⟩
    rw [hlive] at h
    cases h with
    | executed _ hprice =>
      intro trade htrade
      obtain rfl := Option.some.inj htrade
      rw [← hprice price rfl]
      exact hmem
    | refused _ => exact fun trade htrade => absurd htrade (Option.not_mem_none trade)
  · rw [hlive] at h
    cases h with
    | executed hchecks _ =>
      refine ⟨fun hfresh => absurd (hfresh _ rfl) (hnone _), ?_⟩
      rintro (hfetches | hfails)
      · exact absurd hfetches hno
      · exact absurd hchecks hfails
    | refused hfails =>
      exact ⟨fun _ => .inr hfails, fun _ trade htrade => absurd htrade (Option.not_mem_none trade)⟩

theorem getLast?_pushTrade (s : SimulatedFlashClient) (trade : SimulatedTrade) :
    (s.pushTrade trade).tradeHistory.getLast? = some trade := by
  have hlast : (s.tradeHistory ++ [trade]).getLast? = some trade := List.getLast?_concat
  unfold pushTrade
  dsimp only
  split
  · rw [List.getLast?_drop, if_neg, hlast]
    unfold MAX_TRADE_HISTORY at *
    omega
  · exact hlast

theorem quoteOpen_cases (m : Markets) (s : SimulatedFlashClient) (feeRates : ProtocolFeeRates)
    (market : String) (side : TradeSide) (collateralAmount leverage : ℚ) :
    (OpensAt m s feeRates market side collateralAmount leverage
        (s.livePrices.get? (toUpperCase market)) ∧
      ∃ q, quoteOpen m s feeRates market side collateralAmount leverage = .ok q ∧
        s.livePrices.get? (toUpperCase market) = some q.price) ∨
    (¬ OpensAt m s feeRates market side collateralAmount leverage
        (s.livePrices.get? (toUpperCase market)) ∧
      ∃ error, quoteOpen m s feeRates market side collateralAmount leverage = .error error) := by
  unfold quoteOpen OpensAt getPrice
  dsimp only
  by_cases hmax : m.maxLeverage market < leverage
  · exact .inr ⟨fun h => absurd h.1 (not_le.mpr hmax), _, if_pos hmax⟩
  rw [if_neg hmax]
  by_cases hvalid : validateTrade m market collateralAmount leverage s.balance = true
  swap
  · exact .inr ⟨fun h => hvalid h.2.1, _, if_pos (by simpa using hvalid)⟩
  rw [if_neg (by simp [hvalid])]
  cases s.livePrices.get? (toUpperCase market) with
  | none =>
    refine .inr ⟨?_, _, rfl⟩
    rintro ⟨-, -, p, hp, -⟩
    cases hp
  | some p =>
    have honly : ∀ {P : ℚ → Prop}, (∃ q ∈ some p, P q) → P p := by
      rintro P ⟨q, hq, hP⟩
      exact Option.some.inj hq ▸ hP
    dsimp only
    by_cases hpos : 0 < p
    swap
    · rw [if_neg hpos]
      exact .inr ⟨fun h => hpos (honly h.2.2).1, _, rfl⟩
    rw [if_pos hpos]
    dsimp only
    split
    · next hliquidated =>
      refine .inr ⟨?_, _, rfl⟩
      intro h
      obtain ⟨-, hfill, hliq, -⟩ := honly h.2.2
      exact hliquidated.elim hfill (not_le.mpr hliq)
    · next hliquidated =>
      rw [not_or, not_le] at hliquidated
      split
      · next hbalance =>
        refine .inr ⟨?_, _, rfl⟩
        intro h
        obtain ⟨-, -, -, hpaid⟩ := honly h.2.2
        exact absurd hpaid (not_le.mpr hbalance)
      · next hbalance =>
        exact .inl ⟨⟨not_lt.mp hmax, hvalid, p, rfl, hpos, hliquidated.1, hliquidated.2,
          not_lt.mp hbalance⟩, _, rfl, rfl⟩

theorem getLast?_applyOpen (s : SimulatedFlashClient) (feeRates : ProtocolFeeRates) (id : String)
    (now : ℚ) (market : String) (side : TradeSide) (collateralAmount leverage : ℚ)
    (q : OpenQuote) :
    ((s.applyOpen feeRates id now market side collateralAmount leverage q).1.tradeHistory.getLast?.map
      fun trade => (trade.market, trade.price)) = some (toUpperCase market, q.price) := by
  unfold applyOpen
  dsimp only
  split
  · rw [getLast?_pushTrade]
    rfl
  · rw [getLast?_pushTrade]
    rfl

theorem outcome_openPosition (m : Markets) (s : SimulatedFlashClient) (feed : PriceFeed)
    (feeRates : ProtocolFeeRates) (id : String) (now : ℚ) (market : String) (side : TradeSide)
    (collateralAmount leverage : ℚ) :
    Outcome (OpensAt m (s.refreshPrices feed) feeRates market side collateralAmount leverage
        ((s.refreshPrices feed).livePrices.get? (toUpperCase market)))
      (toUpperCase market) ((s.refreshPrices feed).livePrices.get? (toUpperCase market))
      (executedTrade
        (s.locked m (.openPosition feed feeRates id now market side collateralAmount leverage)).1
        (s.locked m (.openPosition feed feeRates id now market side collateralAmount leverage)).2) := by
  unfold locked
  dsimp only
  generalize s.refreshPrices feed = s
  unfold openPosition
  rcases quoteOpen_cases m s feeRates market side collateralAmount leverage with
    ⟨hopens, q, hq, hprice⟩ | ⟨hfails, error, herror⟩
  · rw [hq]
    dsimp only [executedTrade]
    rw [getLast?_applyOpen]
    refine .executed hopens ?_
    rw [hprice]
    exact fun p hp => (Option.some.inj hp).symm
  · rw [herror]
    exact .refused hfails

/-- A position is found under its market. -/
theorem market_of_findPosition {s : SimulatedFlashClient} {market : String} {side : TradeSide}
    {idx : ℕ} {pos : SimulatedPosition}
    (h : s.findPosition market side = some (idx, pos)) : pos.market = toUpperCase market := by
  obtain ⟨before, after, hat⟩ := findPosition_some h
  have hslot := hat.holds
  simp only [atSlot, Bool.and_eq_true, decide_eq_true_eq] at hslot
  exact hslot.1

theorem closePosition_cases (s : SimulatedFlashClient) (feeRates : ProtocolFeeRates)
    (market : String) (side : TradeSide) (now : ℚ) (closePercent closeAmount : Option ℚ) :
    (ClosesAt s market side closePercent closeAmount
        (s.livePrices.get? (toUpperCase market)) ∧
      ∃ r p, s.closePosition feeRates now market side closePercent closeAmount = .ok r ∧
        s.livePrices.get? (toUpperCase market) = some p ∧
        (r.1.tradeHistory.getLast?.map fun trade => (trade.market, trade.price)) =
          some (toUpperCase market, p)) ∨
    (¬ ClosesAt s market side closePercent closeAmount
        (s.livePrices.get? (toUpperCase market)) ∧
      ∃ error, s.closePosition feeRates now market side closePercent closeAmount =
        .error error) := by
  unfold closePosition ClosesAt getPrice
  cases hfound : s.findPosition market side with
  | none =>
    refine .inr ⟨?_, _, rfl⟩
    rintro ⟨found, hsome, -⟩
    cases hsome
  | some found =>
    obtain ⟨idx, pos⟩ := found
    have hmarket := market_of_findPosition hfound
    cases s.livePrices.get? (toUpperCase market) with
    | none =>
      refine .inr ⟨?_, _, rfl⟩
      rintro ⟨-, -, ⟨p, hp, -⟩, -⟩
      cases hp
    | some p =>
      dsimp only
      by_cases hpos : 0 < p
      swap
      · rw [if_neg hpos]
        refine .inr ⟨?_, _, rfl⟩
        rintro ⟨-, -, ⟨q, hq, hqpos⟩, -⟩
        exact hpos (Option.some.inj hq ▸ hqpos)
      rw [if_pos hpos]
      dsimp only
      cases hpart : requestedFraction pos.sizeUsd closePercent closeAmount with
      | error error =>
        refine .inr ⟨?_, _, rfl⟩
        rintro ⟨_, hsame, -, part, hok⟩
        obtain rfl := Option.some.inj hsame
        rw [hpart] at hok
        cases hok
      | ok part =>
        refine .inl ⟨⟨_, rfl, ⟨p, rfl, hpos⟩, part, hpart⟩, _, p, rfl, rfl, ?_⟩
        unfold applyClose
        dsimp only
        rw [getLast?_pushTrade, Option.map_some, hmarket]

theorem outcome_closePosition (m : Markets) (s : SimulatedFlashClient) (feed : PriceFeed)
    (feeRates : ProtocolFeeRates) (now : ℚ) (market : String) (side : TradeSide)
    (closePercent closeAmount : Option ℚ) :
    Outcome (ClosesAt (s.refreshPrices feed) market side closePercent closeAmount
        ((s.refreshPrices feed).livePrices.get? (toUpperCase market)))
      (toUpperCase market) ((s.refreshPrices feed).livePrices.get? (toUpperCase market))
      (executedTrade
        (s.locked m (.closePosition feed feeRates now market side closePercent closeAmount)).1
        (s.locked m (.closePosition feed feeRates now market side closePercent closeAmount)).2) := by
  unfold locked
  dsimp only
  generalize s.refreshPrices feed = s
  rcases closePosition_cases s feeRates market side now closePercent closeAmount with
    ⟨hcloses, r, p, hr, hprice, hlast⟩ | ⟨hfails, error, herror⟩
  · rw [hr]
    dsimp only [executedTrade]
    rw [hlast]
    refine .executed hcloses ?_
    rw [hprice]
    exact fun q hq => (Option.some.inj hq).symm
  · rw [herror]
    exact .refused hfails

/-- The next index of the pass closes the position that is triggered. -/
theorem outcome_triggerNext {s : SimulatedFlashClient} (feed : PriceFeed)
    (feeRates : ProtocolFeeRates) (now : ℚ) {i : ℕ} {pos : SimulatedPosition}
    (htriggered : s.triggeredAt i = some pos) :
    Outcome (ClosesAt (s.refreshPrices feed) pos.market pos.side none none
        ((s.refreshPrices feed).livePrices.get? (toUpperCase pos.market)))
      (toUpperCase pos.market) ((s.refreshPrices feed).livePrices.get? (toUpperCase pos.market))
      (executedTrade (s.triggerNext feed feeRates now (i + 1)).1
        (s.triggerNext feed feeRates now (i + 1)).2) := by
  rw [SimulatedFlashClient.triggerNext, htriggered]
  dsimp only
  generalize s.refreshPrices feed = s
  rcases closePosition_cases s feeRates pos.market pos.side now none none with
    ⟨hcloses, r, p, hr, hprice, hlast⟩ | ⟨hfails, error, herror⟩
  · rw [hr]
    dsimp only [executedTrade]
    rw [hlast]
    refine .executed hcloses ?_
    rw [hprice]
    exact fun q hq => (Option.some.inj hq).symm
  · rw [herror]
    exact .refused hfails

theorem wouldLiquidate_iff (s : SimulatedFlashClient) (pos : SimulatedPosition) (side : TradeSide)
    (newLev : ℚ) :
    s.wouldLiquidate pos side newLev = true ↔
      LiquidatesAt pos side newLev ((s.livePrices.get? pos.market).getD pos.entryPrice) := by
  unfold wouldLiquidate LiquidatesAt
  cases side <;> simp [or_assoc]

theorem removeCollateral_cases (s : SimulatedFlashClient) (market : String) (side : TradeSide)
    (now amount : ℚ) (hamount : 0 < amount) :
    (RemovesAt s market side amount (s.livePrices.get? (toUpperCase market)) ∧
      ∃ r p, s.removeCollateral now market side amount = .ok r ∧
        (∀ q ∈ s.livePrices.get? (toUpperCase market), q = p) ∧
        (r.1.tradeHistory.getLast?.map fun trade => (trade.market, trade.price)) =
          some (toUpperCase market, p)) ∨
    (¬ RemovesAt s market side amount (s.livePrices.get? (toUpperCase market)) ∧
      ∃ error, s.removeCollateral now market side amount = .error error) := by
  unfold removeCollateral RemovesAt
  cases hfound : s.findPosition market side with
  | none =>
    refine .inr ⟨?_, _, rfl⟩
    rintro ⟨-, found, hsome, -⟩
    cases hsome
  | some found =>
    obtain ⟨idx, pos⟩ := found
    have hmarket := market_of_findPosition hfound
    dsimp only
    by_cases hall : pos.collateralUsd ≤ amount
    · rw [if_pos hall]
      refine .inr ⟨?_, _, rfl⟩
      rintro ⟨-, _, hsame, hless, -⟩
      obtain rfl := Option.some.inj hsame
      exact absurd hless (not_lt.mpr hall)
    · rw [if_neg hall]
      have hleft : 0 < pos.collateralUsd - amount := sub_pos.mpr (not_le.mp hall)
      rw [if_pos hleft]
      have hliquidates := wouldLiquidate_iff s pos side (pos.sizeUsd / (pos.collateralUsd - amount))
      rw [hmarket] at hliquidates
      split
      · next hexposed =>
        refine .inr ⟨?_, _, rfl⟩
        rintro ⟨-, _, hsame, -, hsafe⟩
        obtain rfl := Option.some.inj hsame
        exact hsafe ⟨hexposed.1, hliquidates.mp hexposed.2⟩
      · next hsafe =>
        refine .inl ⟨⟨hamount, _, rfl, not_le.mp hall,
          fun h => hsafe ⟨h.1, hliquidates.mpr h.2⟩⟩, _,
          (s.livePrices.get? (toUpperCase market)).getD pos.entryPrice, rfl, ?_, ?_⟩
        · intro q hq
          rw [Option.mem_def.mp hq, Option.getD_some]
        · rw [getLast?_pushTrade]
          unfold collateralTrade withCollateral
          dsimp only
          rw [Option.map_some, hmarket]

theorem outcome_removeCollateral (m : Markets) (s : SimulatedFlashClient) (feed : PriceFeed)
    (now : ℚ) (market : String) (side : TradeSide) {amount : ℚ} (hamount : 0 < amount) :
    Outcome (RemovesAt (s.refreshPrices feed) market side amount
        ((s.refreshPrices feed).livePrices.get? (toUpperCase market)))
      (toUpperCase market) ((s.refreshPrices feed).livePrices.get? (toUpperCase market))
      (executedTrade (s.locked m (.removeCollateral feed now market side amount)).1
        (s.locked m (.removeCollateral feed now market side amount)).2) := by
  unfold locked
  dsimp only
  rw [if_neg (not_le.mpr hamount)]
  generalize s.refreshPrices feed = s
  rcases removeCollateral_cases s market side now amount hamount with
    ⟨hremoves, r, p, hr, hprice, hlast⟩ | ⟨hfails, error, herror⟩
  · rw [hr]
    dsimp only [executedTrade]
    rw [hlast]
    exact .executed hremoves hprice
  · rw [herror]
    exact .refused hfails

/-- Adding collateral trades exactly when its checks pass, at whatever price there is. -/
theorem executed_addCollateral (m : Markets) (s : SimulatedFlashClient) (now : ℚ)
    (market : String) (side : TradeSide) (amount : ℚ) :
    (Adds s market side amount ∧ ∃ trade,
      executedTrade (s.locked m (.addCollateral now market side amount)).1
        (s.locked m (.addCollateral now market side amount)).2 = some trade) ∨
    (¬ Adds s market side amount ∧
      executedTrade (s.locked m (.addCollateral now market side amount)).1
        (s.locked m (.addCollateral now market side amount)).2 = none) := by
  unfold locked addCollateral Adds
  dsimp only
  by_cases hamount : amount ≤ 0
  · rw [if_pos hamount]
    exact .inr ⟨fun h => absurd h.1 (not_lt.mpr hamount), rfl⟩
  rw [if_neg hamount]
  by_cases hbalance : s.balance < amount
  · rw [if_pos hbalance]
    exact .inr ⟨fun h => absurd h.2.1 (not_le.mpr hbalance), rfl⟩
  rw [if_neg hbalance]
  cases s.findPosition market side with
  | none => exact .inr ⟨fun h => absurd h.2.2 Bool.false_ne_true, rfl⟩
  | some found =>
    refine .inl ⟨⟨not_le.mp hamount, not_lt.mp hbalance, rfl⟩, ?_⟩
    dsimp only [executedTrade]
    rw [getLast?_pushTrade]
    exact ⟨_, rfl⟩

/-! ## The checks do not look at other prices -/

section

variable {m : Markets} {s s' : SimulatedFlashClient}

theorem OpensAt.congr (h : SameAccount s s') (feeRates : ProtocolFeeRates) (market : String)
    (side : TradeSide) (collateralAmount leverage : ℚ) :
    OpensAt m s' feeRates market side collateralAmount leverage =
      OpensAt m s feeRates market side collateralAmount leverage := by
  unfold OpensAt
  rw [h.balance]

theorem findPosition_congr (h : SameAccount s s') (market : String) (side : TradeSide) :
    s'.findPosition market side = s.findPosition market side := by
  unfold SimulatedFlashClient.findPosition SimulatedFlashClient.positionIndex
  rw [h.positions]

theorem ClosesAt.congr (h : SameAccount s s') (market : String) (side : TradeSide)
    (closePercent closeAmount : Option ℚ) :
    ClosesAt s' market side closePercent closeAmount =
      ClosesAt s market side closePercent closeAmount := by
  unfold ClosesAt
  rw [findPosition_congr h]

theorem RemovesAt.congr (h : SameAccount s s') (market : String) (side : TradeSide) (amount : ℚ) :
    RemovesAt s' market side amount = RemovesAt s market side amount := by
  unfold RemovesAt
  rw [findPosition_congr h]

end

/-! ## The steps -/

section

variable {m : Markets} {symbols : List String} {σ σ' : PricedClient} {es : List OperationRecord}

/-- An operation that takes the lock. -/
theorem step_locked {s : SimulatedFlashClient} {act : Action} {r : SimulatedFlashClient × List Event}
    (hs : (if s.triggerIndex.isNone then some (s.locked m act) else none) = some r) :
    s.locked m act = r := by
  split at hs
  · exact Option.some.inj hs
  · cases hs

/-- What an operation records. -/
theorem operate_record {op : Operation} {a : FetchAnswers}
    (hs : σ.operate m symbols op a = some (σ', es)) :
    ∃ r, SimulatedFlashClient.step m σ.client (op.action (σ.feed symbols a)) = some r ∧
      es = [{ fetched := if op.refreshes σ.client then σ.fetched symbols a else []
              executed := executedTrade r.1 r.2 }] := by
  unfold operate at hs
  split at hs
  · cases hs
  · next client events hstep =>
    refine ⟨(client, events), hstep, ?_⟩
    dsimp only at hs
    split at hs
    · next hrefreshes =>
      rw [if_pos hrefreshes]
      exact (Machine.some_pair hs).2.symm
    · next hrefreshes =>
      rw [if_neg hrefreshes]
      exact (Machine.some_pair hs).2.symm

/-- The next index of a pass, where there is one. -/
theorem step_triggerNext (m : Markets) (s : SimulatedFlashClient) (feed : PriceFeed)
    (feeRates : ProtocolFeeRates) (now : ℚ) :
    s.step m (.triggerNext feed feeRates now) =
      s.triggerIndex.map (s.triggerNext feed feeRates now) := by
  obtain ⟨balance, positions, history, pnl, fees, live, changes, last, index⟩ := s
  cases index with
  | none => rfl
  | some i => rfl

/-- **One operation**: it leaves one record, which is fresh exactly when the operation fetches
the price of its market, or fails its checks at the price that is held. -/
theorem operate_fresh {op : Operation} {a : FetchAnswers}
    (hs : σ.operate m symbols op a = some (σ', es)) :
    ∃ r, es = [r] ∧ (r.Fresh ↔ σ.FetchesOrFails m symbols a op) := by
  have hsame := sameAccount_refreshPrices σ.client (σ.feed symbols a)
  obtain ⟨r, hstep, rfl⟩ := operate_record hs
  refine ⟨_, rfl, ?_⟩
  cases op with
  | openPosition feeRates id now market side collateralAmount leverage =>
    obtain rfl : σ.client.locked m (.openPosition (σ.feed symbols a) feeRates id now market side
      collateralAmount leverage) = r := step_locked hstep
    have hout := outcome_openPosition m σ.client (σ.feed symbols a) feeRates id now market side
      collateralAmount leverage
    rw [OpensAt.congr hsame] at hout
    exact hout.record_fresh (OpensAt m σ.client feeRates market side collateralAmount leverage)
  | closePosition feeRates now market side closePercent closeAmount =>
    obtain rfl : σ.client.locked m (.closePosition (σ.feed symbols a) feeRates now market side
      closePercent closeAmount) = r := step_locked hstep
    have hout := outcome_closePosition m σ.client (σ.feed symbols a) feeRates now market side
      closePercent closeAmount
    rw [ClosesAt.congr hsame] at hout
    exact hout.record_fresh (ClosesAt σ.client market side closePercent closeAmount)
  | addCollateral now market side amount =>
    obtain rfl : σ.client.locked m (.addCollateral now market side amount) = r :=
      step_locked hstep
    rcases executed_addCollateral m σ.client now market side amount with
      ⟨hadds, trade, htrade⟩ | ⟨hfails, hnone⟩
    · refine ⟨fun hfresh => absurd (hfresh trade htrade) List.not_mem_nil, fun hfails => ?_⟩
      exact absurd hadds hfails
    · refine ⟨fun _ => hfails, fun _ trade htrade => ?_⟩
      rw [hnone] at htrade
      cases htrade
  | removeCollateral now market side amount =>
    obtain rfl : σ.client.locked m (.removeCollateral (σ.feed symbols a) now market side amount) =
      r := step_locked hstep
    by_cases hamount : 0 < amount
    · have hout := outcome_removeCollateral m σ.client (σ.feed symbols a) now market side hamount
      rw [RemovesAt.congr hsame] at hout
      rw [show (Operation.removeCollateral now market side amount).refreshes σ.client = true from
        decide_eq_true hamount, if_pos rfl]
      exact hout.record_fresh (RemovesAt σ.client market side amount)
    · have hrefused : σ.client.locked m (.removeCollateral (σ.feed symbols a) now market side
          amount) = (σ.client, [.failed .amountNotPositive]) := if_pos (not_lt.mp hamount)
      rw [hrefused]
      exact ⟨fun _ => .inr fun h => hamount h.1, fun _ trade htrade => by cases htrade⟩
  | triggerNext feeRates now =>
    have hnext : σ.client.triggerIndex.map
        (σ.client.triggerNext (σ.feed symbols a) feeRates now) = some r :=
      (step_triggerNext m σ.client (σ.feed symbols a) feeRates now).symm.trans hstep
    -- an index at which nothing is triggered trades nothing
    have hidle : triggered σ.client = none → executedTrade r.1 r.2 = none →
        (OperationRecord.Fresh
          { fetched := if (Operation.triggerNext feeRates now).refreshes σ.client then
              σ.fetched symbols a else []
            executed := executedTrade r.1 r.2 } ↔
          σ.FetchesOrFails m symbols a (.triggerNext feeRates now)) := by
      intro hnone hrefused
      rw [hrefused]
      refine ⟨fun _ pos hpos => ?_, fun _ trade htrade => (by cases htrade)⟩
      rw [hnone] at hpos
      cases hpos
    cases hindex : σ.client.triggerIndex with
    | none =>
      rw [hindex] at hnext
      cases hnext
    | some i =>
      rw [hindex] at hnext
      obtain rfl := Option.some.inj hnext
      cases i with
      | zero =>
        refine hidle ?_ rfl
        unfold triggered
        rw [hindex]
      | succ i =>
        have htriggered : triggered σ.client = σ.client.triggeredAt i := by
          unfold triggered
          rw [hindex]
        cases hpos : σ.client.triggeredAt i with
        | none =>
          refine hidle (htriggered.trans hpos) ?_
          rw [SimulatedFlashClient.triggerNext, hpos]
          rfl
        | some pos =>
          have hout := outcome_triggerNext (σ.feed symbols a) feeRates now hpos
          rw [ClosesAt.congr hsame] at hout
          have hrefreshes : (Operation.triggerNext feeRates now).refreshes σ.client = true := by
            show (triggered σ.client).isSome = true
            rw [htriggered, hpos]
            rfl
          rw [if_pos hrefreshes]
          refine (hout.record_fresh (ClosesAt σ.client pos.market pos.side none none)).trans ?_
          constructor
          · intro hor pos' hpos'
            rw [htriggered, hpos] at hpos'
            obtain rfl := Option.some.inj hpos'
            exact hor
          · exact fun hall => hall pos (htriggered.trans hpos)

theorem step_fresh {act : PricedAction} {h : List OperationRecord} (hI : FreshPrices h)
    (hs : σ.step m symbols act = some (σ', es)) :
    (σ.KeepsFresh m symbols act ∧ FreshPrices (h ++ es)) ∨
      (¬ σ.KeepsFresh m symbols act ∧ ¬ FreshPrices (h ++ es)) := by
  have hquiet : es = [] → FreshPrices (h ++ es) := by
    rintro rfl
    rw [List.append_nil]
    exact hI
  cases act with
  | operate op a =>
    obtain ⟨r, rfl, hfresh⟩ := operate_fresh hs
    by_cases hgood : σ.FetchesOrFails m symbols a op
    · refine .inl ⟨hgood, fun r' hr' => ?_⟩
      rcases List.mem_append.mp hr' with hold | hnew
      · exact hI r' hold
      · obtain rfl := List.mem_singleton.mp hnew
        exact hfresh.mpr hgood
    · refine .inr ⟨hgood, fun hall => hgood (hfresh.mp (hall r ?_))⟩
      exact List.mem_append_right _ (List.mem_singleton_self r)
  | refreshPrices a => exact .inl ⟨trivial, hquiet (Machine.some_pair hs).2.symm⟩
  | getMarketData a defaults => exact .inl ⟨trivial, hquiet (Machine.some_pair hs).2.symm⟩
  | setTpSl market side tp sl => exact .inl ⟨trivial, hquiet (Machine.some_pair hs).2.symm⟩
  | removeTpSl market side => exact .inl ⟨trivial, hquiet (Machine.some_pair hs).2.symm⟩
  | checkTpSlTriggers =>
    obtain ⟨r, -, hr⟩ := Option.map_eq_some_iff.mp hs
    exact .inl ⟨trivial, hquiet (congrArg Prod.snd hr).symm⟩
  | breakerUsed use => exact .inl ⟨trivial, hquiet (Machine.some_pair hs).2.symm⟩

end

/-- **When trades are at fresh prices**: in a run of the client every trade is at a price that
its own operation has fetched, exactly when every operation of the run fetches the price of
its market, or fails its checks at the price that is held (adding collateral: fails its
checks). -/
theorem fresh_iff (m : Markets) (symbols : List String) (initialBalance : ℚ)
    (as : List PricedAction) :
    (pricedSimulation m symbols initialBalance).Always (fun _ h => FreshPrices h)
        (pricedSimulation m symbols initialBalance).init [] as ↔
      (pricedSimulation m symbols initialBalance).Along (fun σ _ act => σ.KeepsFresh m symbols act)
        (pricedSimulation m symbols initialBalance).init [] as := by
  refine Machine.always_iff_along_of_step (I := fun _ h => FreshPrices h) id ?_
    (fun r hr => absurd hr List.not_mem_nil) as
  intro σ h act σ' es hI hs
  exact step_fresh hI hs

/-- A position is opened at a price of one hour ago, when both sources fail. -/
def opensStale : List PricedAction :=
  let answer : FetchAnswers :=
    { now := 0, answeredAt := 0
      allPrices := some [("SOL", { priceUi := .finite 150, scaled := .finite 150 })]
      change24h := fun _ => 0, openPositions := none }
  let failed : FetchAnswers :=
    { now := 3600000, answeredAt := 3600000, allPrices := none, change24h := fun _ => 0
      openPositions := none }
  let feeRates : ProtocolFeeRates :=
    { openFeeRate := 8 / 10000, closeFeeRate := 8 / 10000, maintenanceMarginRate := 1 / 100 }
  [.refreshPrices answer,
    .operate (.openPosition feeRates "3f2a9c1d" 3600000 "SOL" .Long 100 2) failed]

theorem opened_at_stale_price :
    ∃ m σ h, (pricedSimulation m ["SOL"] 10000).run opensStale = some (σ, h) ∧
      ¬ FreshPrices h := by
  have hrun : ((pricedSimulation { maxLeverage := fun _ => 100, slippageBps := fun _ => 0 }
      ["SOL"] 10000).run opensStale).map Prod.snd =
        some [{ fetched := [], executed := some ("SOL", 150) }] := by
    decide +kernel
  obtain ⟨⟨σ, h⟩, hr, rfl⟩ := Option.map_eq_some_iff.mp hrun
  refine ⟨_, σ, _, hr, fun hfresh => ?_⟩
  exact absurd (hfresh _ (List.mem_singleton_self _) _ rfl) List.not_mem_nil

end PricedClient

end FlashEdge
