import FlashEdge.Ai.Interpreter
import FlashEdge.Cli.MagicOpen

/-!
# Magic commands (`cli/terminal.ts`)

In magic mode the words behind `magic` are resolved to a tool and its parameters. The first word
chooses the branch, in any letter case; the branches read the others by position, or give the text
to the parser for opens or to the parser of the live mode.

- `MagicCall`: the tools with their parameters.
- `SubCommand`, `subCommand`: the branches, and the words that lead to them.
- `resolve`: the resolution of the words of a command.
- `magicWords`, `dispatch`: the words of a text that begins with `magic`, and its resolution.
-/

namespace FlashEdge

namespace Magic

open Pattern Interpreter
open NumberText (value toNumber)

/-- A tool with its parameters. A side that the parser has not found is the text `undefined`. -/
inductive MagicCall where
  | magicInspect
  | magicPortfolio
  | magicVerify
  | magicVault
  | magicSettle (symbol : Option (List Char))
  | magicPrice (market : List Char)
  | magicMarkets (category filter : Option (List Char))
  | magicDelegation
  | magicStatus
  | magicFaucet
  | magicSetup
  | magicDeposit (token : List Char) (amount : JsNumber)
  | magicWithdraw (token : List Char) (amount : JsNumber)
  | magicOpen (market : List Char) (side : Option TradeSide) (collateral leverage : JsNumber)
  | magicClose (market : List Char) (side : Option TradeSide)
  | magicAddCollateral (market : List Char) (side : Option TradeSide) (amount : JsNumber)
  | magicPartialClose (market : List Char) (side : TradeSide) (sizeUsd : JsNumber)
  | magicPlaceLimit (market : List Char) (side : TradeSide)
      (limitPrice collateral leverage : JsNumber) (tp sl : Option JsNumber)
  | magicCancelLimit (market : List Char) (side : TradeSide) (orderId : JsNumber)
  | magicCancelTrigger (market : List Char) (orderId : JsNumber) (isStopLoss : Bool)
  | magicLiquidate (positionOwner market : List Char) (side : TradeSide)
  | magicHistory (limit : Option JsNumber)
  | magicDashboard
  | magicErHealth
  | magicAlerts (action : List Char)
  | magicWatch
  | magicReverse (market : List Char) (side : Option TradeSide) (collateral leverage : JsNumber)
  | magicIncrease (market : List Char) (side : TradeSide) (sizeUsd addCollateralUsd : JsNumber)
  | magicTriggerOrder (market : List Char) (side : TradeSide) (price : JsNumber) (isStopLoss : Bool)
      (sizeUsd : Option JsNumber)
  | magicRemoveCollateral (market : List Char) (side : Option TradeSide) (amount : JsNumber)
deriving DecidableEq

/-- What the words are resolved to: a tool, or an error with its text, if it has one. -/
inductive Resolved where
  | tool (call : MagicCall)
  | error (text : Option String)
deriving DecidableEq

/-! ## Words -/

/-- The branches of the `switch`. -/
inductive SubCommand where
  | inspect
  | portfolio
  | verify
  | vault
  | settle
  | price
  | markets
  | delegation
  | status
  | faucet
  | setup
  | deposit
  | withdraw
  | open
  | close
  | add
  | partialClose
  | limit
  | cancelLimit
  | cancelTrigger
  | liquidate
  | history
  | dashboard
  | erHealth
  | alerts
  | watch
  | reverse
  | increase
  | triggerOrder
  | remove
  | session
deriving DecidableEq

/-- The labels of the `switch`. -/
def labels : List (String × SubCommand) :=
  [("inspect", .inspect), ("", .inspect), ("portfolio", .portfolio), ("verify", .verify),
    ("parity", .verify), ("vault", .vault), ("balance", .vault), ("settle", .settle),
    ("price", .price), ("markets", .markets), ("delegation", .delegation),
    ("delegated", .delegation), ("status", .status), ("faucet", .faucet), ("setup", .setup),
    ("deposit", .deposit), ("withdraw", .withdraw), ("open", .open), ("close", .close),
    ("add", .add), ("add-collateral", .add), ("partial-close", .partialClose),
    ("decrease", .partialClose), ("dec", .partialClose), ("limit", .limit),
    ("cancel-limit", .cancelLimit), ("cancel-tp", .cancelTrigger), ("cancel-sl", .cancelTrigger),
    ("liquidate", .liquidate), ("history", .history), ("journal", .history),
    ("dashboard", .dashboard), ("dash", .dashboard), ("er", .erHealth), ("er-health", .erHealth),
    ("health", .erHealth), ("alerts", .alerts), ("watch", .watch), ("reverse", .reverse),
    ("flip", .reverse), ("increase", .increase), ("inc", .increase), ("tp", .triggerOrder),
    ("sl", .triggerOrder), ("take-profit", .triggerOrder), ("stop-loss", .triggerOrder),
    ("remove", .remove), ("remove-collateral", .remove), ("session", .session)]

/-- `parts[i]`. -/
def part (parts : List (List Char)) (i : ℕ) : List Char := parts.getD i []

/-- The branch of a command, by its first word in small letters. -/
def subCommand (parts : List (List Char)) : Option SubCommand :=
  (labels.find? fun l => l.1.toList = lowerCase (part parts 0)).map Prod.snd

/-- `parts.slice(1).join(' ')`. -/
def argString (parts : List (List Char)) : List Char := joinWords (parts.drop 1)

/-- `long` or `short`, in small letters. -/
def readSide (w : List Char) : Option TradeSide :=
  if w = "long".toList then some .Long else if w = "short".toList then some .Short else none

/-- `Number(w.replace(/[$,]/g, ''))`. -/
def readAmount (w : List Char) : JsNumber :=
  value (toNumber (w.filter fun c => c ≠ '$' && c ≠ ','))

/-- `Number(w.replace(/x$/i, ''))`. -/
def readLeverage (w : List Char) : JsNumber :=
  value (toNumber (if w.getLast?.any (fun c => c = 'x' || c = 'X') then w.dropLast else w))

/-- `Number.isFinite(n) && n > 0`. -/
def isPositive : JsNumber → Bool
  | .finite q => 0 < q
  | _ => false

/-- `Number.isFinite(n) && n >= 0`. -/
def isIndex : JsNumber → Bool
  | .finite q => 0 ≤ q
  | _ => false

/-- `n` as a condition. -/
def truthy (n : JsNumber) : Bool := n ≠ .nan && n ≠ 0

/-- A word where there is one. -/
def optionalPart (parts : List (List Char)) (i : ℕ) : Option (List Char) :=
  (parts[i]?).filter (· ≠ [])

def usage (text : String) : Resolved := .error (some text)

/-- The intent of a text, if it has that action. -/
def intentOf (data : ParserData) (action : ActionType) (text : List Char) : Option ParsedIntent :=
  (localParse data text).filter (·.action = action)

/-- `String(p.market)`. -/
def intentMarket (p : ParsedIntent) : List Char := p.market.getD "undefined".toList

/-- `Number(p.member)`. -/
def intentNumber (n : Option SdkNumber) : JsNumber := (n.map value).getD .nan

/-! ## The branches -/

section Branches

variable (parts : List (List Char))

def resolveMarkets : Resolved :=
  match optionalPart parts 1 with
  | none => .tool (.magicMarkets none none)
  | some arg =>
    if lowerCase arg ∈ ["crypto", "equity", "fx", "metal", "commodity"].map String.toList then
      .tool (.magicMarkets (some (lowerCase arg)) none)
    else .tool (.magicMarkets none (some (upperCase arg)))

/-- `deposit` and `withdraw`. -/
def resolveTransfer (verb : String) (call : List Char → JsNumber → MagicCall) : Resolved :=
  if parts.length < 3 then
    usage ("usage: magic " ++ verb ++ " <symbol|mint> <amount>  (e.g. \x60magic " ++ verb ++
      " USDC 50\x60)")
  else
    let amount := value (toNumber (part parts 2))
    if isPositive amount then .tool (call (part parts 1) amount)
    else usage ("amount must be a positive number (got '" ++ String.ofList (part parts 2) ++ "')")

def resolveOpen (data : ParserData) (custodies : List (List Char)) : Resolved :=
  match parseMagicOpenArgs custodies (argString parts) with
  | some p => .tool (.magicOpen p.market (some p.side) (.finite p.collateral) (.finite p.leverage))
  | none =>
    match intentOf data .OpenPosition ("open ".toList ++ argString parts) with
    | some p =>
      .tool (.magicOpen (intentMarket p) p.side (intentNumber p.collateral)
        (intentNumber p.leverage))
    | none => usage ("usage: magic open <symbol> <long|short> <collateral_usd> <leverage>  " ++
        "(e.g. \x60magic open MON long 5 2x\x60)")

def resolveClose (data : ParserData) : Resolved :=
  match intentOf data .ClosePosition ("close ".toList ++ argString parts) with
  | some p => .tool (.magicClose (intentMarket p) p.side)
  | none =>
    if 3 ≤ parts.length ∧ (readSide (part parts 2)).isSome then
      .tool (.magicClose (part parts 1) (readSide (part parts 2)))
    else usage "usage: magic close <symbol> <long|short>  (e.g. \x60magic close SOL long\x60)"

/-- `add` and `remove`. -/
def resolveCollateral (data : ParserData) (verb : String) (action : ActionType)
    (call : List Char → Option TradeSide → JsNumber → MagicCall) (text : String) : Resolved :=
  match intentOf data action (verb.toList ++ ' ' :: argString parts) with
  | some p => .tool (call (intentMarket p) p.side (intentNumber p.amount))
  | none =>
    if 4 ≤ parts.length ∧ (readSide (part parts 2)).isSome ∧
        isPositive (readAmount (part parts 3)) then
      .tool (call (part parts 1) (readSide (part parts 2)) (readAmount (part parts 3)))
    else usage text

def resolvePartialClose : Resolved :=
  if parts.length < 4 then usage "usage: magic partial-close <symbol> <long|short> <size_usd>"
  else
    match readSide (part parts 2) with
    | none => usage "side must be 'long' or 'short'"
    | some side =>
      let sizeUsd := readAmount (part parts 3)
      if isPositive sizeUsd then .tool (.magicPartialClose (part parts 1) side sizeUsd)
      else usage ("size must be a positive number (got '" ++ String.ofList (part parts 3) ++ "')")

def resolveLimit : Resolved :=
  if parts.length < 6 then
    usage ("usage: magic limit <symbol> <long|short> <limit_price> <collateral> <leverage> " ++
      "[tp] [sl]")
  else
    match readSide (part parts 2) with
    | none => usage "side must be long/short"
    | some side =>
      let lim := readAmount (part parts 3)
      let col := readAmount (part parts 4)
      let lev := readLeverage (part parts 5)
      let tp := ((optionalPart parts 6).map readAmount).filter truthy
      let sl := ((optionalPart parts 7).map readAmount).filter truthy
      if isPositive lim ∧ isPositive col ∧ isPositive lev then
        .tool (.magicPlaceLimit (part parts 1) side lim col lev tp sl)
      else usage "limit/collateral/leverage must be positive numbers"

def resolveCancelLimit : Resolved :=
  if parts.length < 4 then usage "usage: magic cancel-limit <symbol> <long|short> <orderId>"
  else
    match readSide (part parts 2) with
    | none => usage "side must be long/short"
    | some side =>
      let id := value (NumberText.parseInt (part parts 3))
      if isIndex id then .tool (.magicCancelLimit (part parts 1) side id)
      else usage "orderId must be a non-negative integer"

def resolveCancelTrigger : Resolved :=
  if parts.length < 3 then
    usage ("usage: magic " ++ String.ofList (part parts 0) ++ " <symbol> <orderId>")
  else
    let id := value (NumberText.parseInt (part parts 2))
    if isIndex id then
      -- the word as it was typed
      .tool (.magicCancelTrigger (part parts 1) id (part parts 0 = "cancel-sl".toList))
    else usage "orderId must be a non-negative integer"

def resolveLiquidate : Resolved :=
  if parts.length < 4 then usage "usage: magic liquidate <owner_pubkey> <symbol> <long|short>"
  else
    match readSide (part parts 3) with
    | none => usage "side must be long/short"
    | some side => .tool (.magicLiquidate (part parts 1) (part parts 2) side)

def resolveHistory : Resolved :=
  let limit : JsNumber :=
    match optionalPart parts 1 with
    | some w => value (NumberText.parseInt w)
    | none => .finite 20
  .tool (.magicHistory (if limit.isFinite then some limit else none))

def resolveAlerts : Resolved :=
  let action := lowerCase (parts.getD 1 "status".toList)
  if action ∈ ["on", "off", "status"].map String.toList then .tool (.magicAlerts action)
  else usage "usage: magic alerts <on|off|status>"

def resolveReverse (data : ParserData) : Resolved :=
  match intentOf data .OpenPosition ("open ".toList ++ argString parts) with
  | some p =>
    .tool (.magicReverse (intentMarket p) p.side (intentNumber p.collateral)
      (intentNumber p.leverage))
  | none => usage "usage: magic reverse <symbol> <currentSide> <collateral> <leverage>"

def resolveIncrease : Resolved :=
  if parts.length < 4 then
    usage "usage: magic increase <symbol> <long|short> <size_usd> [add_collateral_usd]"
  else
    match readSide (part parts 2) with
    | none =>
      usage ("side must be 'long' or 'short' (got '" ++ String.ofList (part parts 2) ++ "')")
    | some side =>
      let sizeUsd := readAmount (part parts 3)
      let addColl := ((optionalPart parts 4).map readAmount).getD 0
      if isPositive sizeUsd then .tool (.magicIncrease (part parts 1) side sizeUsd addColl)
      else usage ("size must be a positive number (got '" ++ String.ofList (part parts 3) ++ "')")

def resolveTriggerOrder : Resolved :=
  if parts.length < 4 then
    usage ("usage: magic " ++ String.ofList (part parts 0) ++
      " <symbol> <long|short> <price> [size_usd]")
  else
    match readSide (part parts 2) with
    | none => usage "side must be 'long' or 'short'"
    | some side =>
      let price := readAmount (part parts 3)
      let sizeUsd := ((optionalPart parts 4).map readAmount).filter truthy
      if isPositive price then
        -- the word as it was typed
        let isStopLoss := part parts 0 = "sl".toList ∨ part parts 0 = "stop-loss".toList
        .tool (.magicTriggerOrder (part parts 1) side price isStopLoss sizeUsd)
      else usage ("price must be a positive number (got '" ++ String.ofList (part parts 3) ++ "')")

end Branches

/-- The `switch`, on the words behind `magic`. -/
def resolve (data : ParserData) (custodies : List (List Char)) (parts : List (List Char)) :
    Resolved :=
  match subCommand parts with
  | none => .error none
  | some .inspect => .tool .magicInspect
  | some .portfolio => .tool .magicPortfolio
  | some .verify => .tool .magicVerify
  | some .vault => .tool .magicVault
  | some .settle => .tool (.magicSettle (optionalPart parts 1))
  | some .price =>
    if parts.length < 2 then usage "usage: magic price <symbol>"
    else .tool (.magicPrice (part parts 1))
  | some .markets => resolveMarkets parts
  | some .delegation => .tool .magicDelegation
  | some .status => .tool .magicStatus
  | some .faucet => .tool .magicFaucet
  | some .setup => .tool .magicSetup
  | some .deposit => resolveTransfer parts "deposit" .magicDeposit
  | some .withdraw => resolveTransfer parts "withdraw" .magicWithdraw
  | some .open => resolveOpen parts data custodies
  | some .close => resolveClose parts data
  | some .add =>
    resolveCollateral parts data "add" .AddCollateral .magicAddCollateral
      "usage: magic add <symbol> <long|short> <amount_usd>  (e.g. \x60magic add SOL long $25\x60)"
  | some .partialClose => resolvePartialClose parts
  | some .limit => resolveLimit parts
  | some .cancelLimit => resolveCancelLimit parts
  | some .cancelTrigger => resolveCancelTrigger parts
  | some .liquidate => resolveLiquidate parts
  | some .history => resolveHistory parts
  | some .dashboard => .tool .magicDashboard
  | some .erHealth => .tool .magicErHealth
  | some .alerts => resolveAlerts parts
  | some .watch => .tool .magicWatch
  | some .reverse => resolveReverse parts data
  | some .increase => resolveIncrease parts
  | some .triggerOrder => resolveTriggerOrder parts
  | some .remove =>
    resolveCollateral parts data "remove" .RemoveCollateral .magicRemoveCollateral
      "usage: magic remove <symbol> <long|short> <amount_usd>"
  | some .session =>
    usage ("session keys removed — CLI signs trades directly from your wallet keypair file " ++
      "(sub-ms, no popup needed). No setup required; just run " ++
      "\x60magic open <symbol> <side> <collateral> <leverage>\x60.")

/-- The words behind `magic`. -/
def magicWords (text : List Char) : List (List Char) :=
  let trimmed := Interpreter.trim text
  splitWords
    (if lowerCase trimmed = "magic".toList then "inspect".toList
    else Interpreter.trim (trimmed.drop 6))

def dispatch (data : ParserData) (custodies : List (List Char)) (text : List Char) : Resolved :=
  resolve data custodies (magicWords text)

end Magic

end FlashEdge
