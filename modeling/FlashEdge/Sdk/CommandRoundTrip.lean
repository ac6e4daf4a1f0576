import FlashEdge.Ai.ParserOutcomes

/-!
# What the CLI reads in the commands of the SDK

The SDK writes a call as a text and the CLI parses that text. The round trip is that
whatever `localParse` accepts is the call that was made, and that every method has a
call that is accepted. It fails: an amount behind the market or the pool is never read
by the expressions that want it in front (`not_accepted`), and a number in exponent
notation is read up to its exponent or not at all (`localParse_tinyClose`).
-/

namespace FlashEdge

open Interpreter Pattern

/-- The methods that take parameters. -/
inductive TradeMethod where
  | open
  | close
  | addCollateral
  | removeCollateral
  | limitOrder
  | earnDeposit
  | earnWithdraw
  | earnStake
  | earnUnstake
  | fafStake
  | fafUnstake
deriving DecidableEq

/-- The name of a pool, or one of its aliases. -/
def KnownPool (data : ParserData) (pool : List Char) : Prop :=
  pool ∈ data.pools ∨ (poolAlias pool).isSome = true

namespace TradeCall

/-- The method that is called, if it takes parameters. -/
def method? : TradeCall → Option TradeMethod
  | .open _ => some .open
  | .close _ => some .close
  | .addCollateral _ => some .addCollateral
  | .removeCollateral _ => some .removeCollateral
  | .limitOrder _ => some .limitOrder
  | .earnDeposit _ => some .earnDeposit
  | .earnWithdraw _ => some .earnWithdraw
  | .earnStake _ => some .earnStake
  | .earnUnstake _ => some .earnUnstake
  | .fafStake _ => some .fafStake
  | .fafUnstake _ => some .fafUnstake
  | .closeAll => none
  | .earnClaim => none
  | .fafClaim => none

/-- The market or pool is known, and every number is positive and finite. -/
def Known (data : ParserData) : TradeCall → Prop
  | .open p => p.market ∈ data.markets ∧ finitePositive p.collateral = true ∧
      finitePositive p.leverage = true ∧ (∀ n ∈ p.tp, finitePositive n = true) ∧
      ∀ n ∈ p.sl, finitePositive n = true
  | .close p => p.market ∈ data.markets ∧ ∀ n ∈ p.percent, finitePositive n = true
  | .addCollateral p => p.market ∈ data.markets ∧ finitePositive p.amount = true
  | .removeCollateral p => p.market ∈ data.markets ∧ finitePositive p.amount = true
  | .limitOrder p => p.market ∈ data.markets ∧ finitePositive p.leverage = true ∧
      finitePositive p.collateral = true ∧ finitePositive p.price = true
  | .earnDeposit p => KnownPool data p.pool ∧ finitePositive p.amount = true
  | .earnWithdraw p => KnownPool data p.pool ∧ finitePositive p.amount = true
  | .earnStake p => KnownPool data p.pool ∧ finitePositive p.amount = true
  | .earnUnstake p => KnownPool data p.pool ∧ finitePositive p.amount = true
  | .fafStake amount => finitePositive amount = true
  | .fafUnstake amount => finitePositive amount = true
  | .closeAll => True
  | .earnClaim => True
  | .fafClaim => True

/-- The intent with the values of the call. A close of 100 percent or more is a close
of all. -/
def intent : TradeCall → ParsedIntent
  | .open p => {
      action := .OpenPosition
      market := some p.market
      side := some p.side
      collateral := some p.collateral
      leverage := some p.leverage
      takeProfit := p.tp
      stopLoss := p.sl }
  | .close p => {
      action := .ClosePosition
      market := some p.market
      side := some p.side
      closePercent := p.percent.filter SdkNumber.ltHundred }
  | .addCollateral p => {
      action := .AddCollateral
      market := some p.market
      side := some p.side
      amount := some p.amount }
  | .removeCollateral p => {
      action := .RemoveCollateral
      market := some p.market
      side := some p.side
      amount := some p.amount }
  | .limitOrder p => {
      action := .LimitOrder
      market := some p.market
      side := some p.side
      leverage := some p.leverage
      collateral := some p.collateral
      limitPrice := some p.price }
  | .closeAll => { action := .CloseAll }
  | .earnDeposit p => {
      action := .EarnAddLiquidity
      amount := some p.amount
      token := some "USDC".toList
      pool := some (poolOf p) }
  | .earnWithdraw p => {
      action := .EarnRemoveLiquidity
      percent := some p.amount
      token := some "USDC".toList
      pool := some (poolOf p) }
  | .earnStake p => {
      action := .EarnStake
      amount := some p.amount
      pool := some (poolOf p) }
  | .earnUnstake p => {
      action := .EarnUnstake
      percent := some p.amount
      pool := some (poolOf p) }
  | .earnClaim => { action := .EarnClaimRewards }
  | .fafStake amount => { action := .FafStake, amount := some amount }
  | .fafUnstake amount => { action := .FafUnstake, amount := some amount }
  | .fafClaim => { action := .FafClaim, type := some "all".toList }
where
  /-- The pool's own name. -/
  poolOf (p : EarnActionParams) : List Char := (poolAlias p.pool).getD p.pool

end TradeCall

/-- The parser rejects the command of a call (help is no action), or reads the call. -/
def ReadAsCalled (data : ParserData) (call : TradeCall) : Prop :=
  ∀ intent, localParse data call.command = some intent →
    intent.action = .Help ∨ intent = call.intent

/-- Every call of the method is rejected or read as it was made, and some call is read. -/
def MethodRoundTrips (data : ParserData) (method : TradeMethod) : Prop :=
  (∀ call : TradeCall, call.method? = some method → call.Known data → ReadAsCalled data call) ∧
    ∃ call : TradeCall, call.method? = some method ∧ call.Known data ∧
      localParse data call.command = some call.intent

/-- The round trip of all methods. -/
def RoundTrips (data : ParserData) : Prop := ∀ method, MethodRoundTrips data method

/-! ## Amounts behind the market or the pool -/

theorem finite_of_finitePositive {n : SdkNumber} (hn : finitePositive n = true) :
    ∃ d : Decimal, n = .finite d := by
  cases n with
  | finite d => exact ⟨d, rfl⟩
  | posInfinity => cases hn
  | negInfinity => cases hn
  | nan => cases hn

theorem isAmount_of_finitePositive {n : SdkNumber} (hn : finitePositive n = true) :
    IsAmount n.text := by
  obtain ⟨d, rfl⟩ := finite_of_finitePositive hn
  exact isAmount_print d

theorem isVisible_side (side : TradeSide) : IsVisible (TradeCall.side side) := by
  cases side with
  | Long => decide
  | Short => decide

theorem isVisible_pool {data : ParserData} {pool : List Char} (hpool : KnownPool data pool) :
    IsVisible pool := by
  rcases hpool with hpool | hpool
  · exact isVisible_name (data.pool_name pool hpool)
  · have hall : ∀ e ∈ EARN_POOL_ALIASES, IsVisible e.1.toList := by decide
    rw [poolAlias, Option.isSome_map, List.find?_isSome] at hpool
    obtain ⟨e, he, heq⟩ := hpool
    rw [← of_decide_eq_true heq]
    exact hall e he

/-- A command whose last word is an amount is not read as an action that wants the
amount in front. -/
theorem unheard_command (data : ParserData) {n : SdkNumber} (hn : finitePositive n = true)
    {w : List Char} (hw : IsVisible w) (ws : List (List Char)) (hws : ∀ u ∈ ws, IsVisible u)
    {c : Char} (hc : w.head? = some c) (hlower : isSpace c.toLower = false) :
    Unheard (localParse data (joinWords (w :: ws ++ ['$' :: n.text]))) := by
  have hnum := isAmount_of_finitePositive hn
  exact unheard_localParse data hnum (endsWithAmount_normalize data hnum hw hws hc hlower)

theorem unheard_collateralCall (data : ParserData) {verb : String}
    (hverb : IsVisible verb.toList) {c : Char} (hc : verb.toList.head? = some c)
    (hlower : isSpace c.toLower = false) {p : CollateralParams} (hmarket : p.market ∈ data.markets)
    (hamount : finitePositive p.amount = true) :
    Unheard (localParse data
      (joinWords [verb.toList, p.market, TradeCall.side p.side, '$' :: p.amount.text])) := by
  refine unheard_command data hamount hverb [p.market, TradeCall.side p.side]
    (fun u hu => ?_) hc hlower
  rcases List.mem_pair.mp hu with rfl | rfl
  · exact isVisible_name (data.market_name _ hmarket)
  · exact isVisible_side p.side

theorem unheard_earnCall (data : ParserData) {verb : String} (hverb : IsVisible verb.toList)
    {p : EarnActionParams} (hpool : KnownPool data p.pool)
    (hamount : finitePositive p.amount = true) :
    Unheard (localParse data
      (joinWords ["earn".toList, verb.toList, p.pool, '$' :: p.amount.text])) := by
  refine unheard_command data hamount (by decide) [verb.toList, p.pool]
    (fun u hu => ?_) rfl (by decide)
  rcases List.mem_pair.mp hu with rfl | rfl
  · exact hverb
  · exact isVisible_pool hpool

theorem command_earnWithdraw (p : EarnActionParams) : (TradeCall.earnWithdraw p).command =
    joinWords ["earn".toList, "remove".toList, p.pool, '$' :: p.amount.text] := rfl

theorem command_earnUnstake (p : EarnActionParams) : (TradeCall.earnUnstake p).command =
    joinWords ["earn".toList, "unstake".toList, p.pool, '$' :: p.amount.text] := rfl

/-- The methods that are never accepted. -/
def TradeMethod.amountLast : TradeMethod → Bool
  | .addCollateral | .removeCollateral | .earnWithdraw | .earnUnstake => true
  | _ => false

/-- **No call of these methods is read as one.** -/
theorem not_accepted (data : ParserData) {call : TradeCall} {method : TradeMethod}
    (hmethod : call.method? = some method) (hlast : method.amountLast = true)
    (hknown : call.Known data) {intent : ParsedIntent}
    (hparse : localParse data call.command = some intent) :
    intent.action ≠ call.intent.action := by
  have hdiffer : Unheard (localParse data call.command) →
      call.intent.action.amountFirst = true → intent.action ≠ call.intent.action := by
    intro hunheard hfirst heq
    have hnot := hunheard intent hparse
    rw [heq, hfirst] at hnot
    cases hnot
  cases call with
  | addCollateral p =>
    exact hdiffer (unheard_collateralCall data (by decide) rfl (by decide) hknown.1
      hknown.2) rfl
  | removeCollateral p =>
    exact hdiffer (unheard_collateralCall data (by decide) rfl (by decide) hknown.1
      hknown.2) rfl
  | earnWithdraw p =>
    refine hdiffer ?_ rfl
    rw [command_earnWithdraw]
    exact unheard_earnCall data (by decide) hknown.1 hknown.2
  | earnUnstake p =>
    refine hdiffer ?_ rfl
    rw [command_earnUnstake]
    exact unheard_earnCall data (by decide) hknown.1 hknown.2
  | _ => cases hmethod <;> cases hlast

/-- A method that is never accepted does not round-trip. -/
theorem not_methodRoundTrips {method : TradeMethod} (hlast : method.amountLast = true)
    (data : ParserData) : ¬ MethodRoundTrips data method := by
  rintro ⟨-, call, hmethod, hknown, hparse⟩
  exact not_accepted data hmethod hlast hknown hparse rfl

/-- Three markets of one pool; the user has defined nothing. -/
def cryptoMarkets : ParserData where
  markets := ["SOL".toList, "BTC".toList, "ETH".toList]
  registered := ["SOL".toList, "BTC".toList, "ETH".toList]
  pools := ["Crypto.1".toList]
  market_name := by decide
  pool_name := isName_crypto
  shortcut := isShortcut_nil

/-- A close of a ten-millionth of a percent, `close SOL long 1e-7%`. -/
def tinyClose : CloseParams where
  market := "SOL".toList
  side := .Long
  percent := some (.finite (Decimal.ofScaled false 1 (-7)))

/-- The percentage is not read, and without one everything is closed. -/
theorem localParse_tinyClose : localParse cryptoMarkets (TradeCall.close tinyClose).command =
    some { action := .ClosePosition, market := some "SOL".toList, side := some .Long } := by
  decide +kernel

end FlashEdge
