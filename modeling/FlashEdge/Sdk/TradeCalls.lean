import FlashEdge.Js
import FlashEdge.Theory.Decimal

/-!
# The trade commands of the SDK (`sdk/flash-sdk.ts`)

Each trade method builds one command for the CLI from its parameters and runs it.
Numbers are put into the command as the language prints them.
-/

namespace FlashEdge

/-- A number a caller passes. -/
inductive SdkNumber where
  | finite (n : Decimal)
  | posInfinity
  | negInfinity
  | nan
deriving DecidableEq

namespace SdkNumber

/-- `${n}`. -/
def text : SdkNumber → List Char
  | finite n => n.print
  | posInfinity => "Infinity".toList
  | negInfinity => "-Infinity".toList
  | nan => "NaN".toList

/-- `Boolean(n)`. -/
def truthy : SdkNumber → Bool
  | finite n => n.digits ≠ 0
  | posInfinity => true
  | negInfinity => true
  | nan => false

/-- `n < 100`. -/
def ltHundred : SdkNumber → Bool
  | finite n => decide (n.toRat < 100)
  | posInfinity => false
  | negInfinity => true
  | nan => false

end SdkNumber

structure OpenParams where
  market : List Char
  side : TradeSide
  collateral : SdkNumber
  leverage : SdkNumber
  tp : Option SdkNumber := none
  sl : Option SdkNumber := none

structure CloseParams where
  market : List Char
  side : TradeSide
  percent : Option SdkNumber := none

/-- The parameters of `addCollateral` and `removeCollateral`. -/
structure CollateralParams where
  market : List Char
  side : TradeSide
  amount : SdkNumber

structure LimitOrderParams where
  market : List Char
  side : TradeSide
  leverage : SdkNumber
  collateral : SdkNumber
  price : SdkNumber

structure EarnActionParams where
  pool : List Char
  amount : SdkNumber

/-- A call of a trade method. -/
inductive TradeCall where
  | open (params : OpenParams)
  | close (params : CloseParams)
  | addCollateral (params : CollateralParams)
  | removeCollateral (params : CollateralParams)
  | limitOrder (params : LimitOrderParams)
  | closeAll
  | earnDeposit (params : EarnActionParams)
  | earnWithdraw (params : EarnActionParams)
  | earnStake (params : EarnActionParams)
  | earnUnstake (params : EarnActionParams)
  | earnClaim
  | fafStake (amount : SdkNumber)
  | fafUnstake (amount : SdkNumber)
  | fafClaim

/-- `parts.join(' ')`. -/
def joinWords (parts : List (List Char)) : List Char := List.intercalate [' '] parts

/-- A part that is left out when its number is missing, zero or `NaN`. -/
def optionalPart (before : String) (n : Option SdkNumber) : List (List Char) :=
  match n with
  | some n => if n.truthy then [before.toList ++ n.text] else []
  | none => []

namespace TradeCall

def side (s : TradeSide) : List Char := s.value.toList

/-- The command a method runs. -/
def command : TradeCall → List Char
  | .open p =>
    joinWords (["open".toList, side p.side, p.market, p.leverage.text ++ ['x'],
      '$' :: p.collateral.text] ++ optionalPart "tp $" p.tp ++ optionalPart "sl $" p.sl)
  | .close p =>
    joinWords (["close".toList, p.market, side p.side] ++
      match p.percent with
      | some percent =>
        if percent.truthy && percent.ltHundred then [percent.text ++ ['%']] else []
      | none => [])
  | .addCollateral p => joinWords ["add".toList, p.market, side p.side, '$' :: p.amount.text]
  | .removeCollateral p => joinWords ["remove".toList, p.market, side p.side, '$' :: p.amount.text]
  | .limitOrder p =>
    joinWords ["limit".toList, side p.side, p.market, p.leverage.text ++ ['x'],
      '$' :: p.collateral.text, ['@'], '$' :: p.price.text]
  | .closeAll => "close all".toList
  | .earnDeposit p => joinWords ["earn add".toList, p.pool, '$' :: p.amount.text]
  | .earnWithdraw p => joinWords ["earn remove".toList, p.pool, '$' :: p.amount.text]
  | .earnStake p => joinWords ["earn stake".toList, p.pool, '$' :: p.amount.text]
  | .earnUnstake p => joinWords ["earn unstake".toList, p.pool, '$' :: p.amount.text]
  | .earnClaim => "earn claim".toList
  | .fafStake amount => joinWords ["faf stake".toList, amount.text]
  | .fafUnstake amount => joinWords ["faf unstake".toList, amount.text]
  | .fafClaim => "faf claim".toList

end TradeCall

end FlashEdge
