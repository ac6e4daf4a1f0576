import FlashEdge.Ai.Interpreter
import FlashEdge.Theory.Decimal
import FlashEdge.Theory.Machine

/-!
# The offline interpreter (`ai/interpreter.ts`, `utils/command-alerts.ts`)

`OfflineInterpreter.parseIntent` parses a text locally. What the parser does not understand may
be a follow-up ("close it", "increase to 200"), which is resolved from what is remembered of the
intents before; a remembered context is fresh for two minutes. An intent is validated before it
is remembered and returned, and an alert takes its place if it is not valid.

- `parseIntent`: one text. `interpreter`: the machine that answers one text after the other.
- `resolvedBy_of_tryContextualParse`: what a follow-up can resolve to.
-/

namespace FlashEdge

/-- `m - n`. -/
def SdkNumber.sub : SdkNumber → SdkNumber → SdkNumber
  | .finite m, .finite n => .finite (m.sub n)
  | .nan, _ => .nan
  | _, .nan => .nan
  | .posInfinity, .posInfinity => .nan
  | .negInfinity, .negInfinity => .nan
  | .posInfinity, _ => .posInfinity
  | .negInfinity, _ => .negInfinity
  | _, .posInfinity => .negInfinity
  | _, .negInfinity => .posInfinity

/-- `n > 0`. -/
def SdkNumber.positive : SdkNumber → Bool
  | .finite n => decide (0 < n.toRat)
  | .posInfinity => true
  | _ => false

/-- `Number.isFinite(n) && n >= lo && n <= hi`. -/
def SdkNumber.within (lo hi : ℚ) : SdkNumber → Bool
  | .finite n => decide (lo ≤ n.toRat ∧ n.toRat ≤ hi)
  | _ => false

namespace Interpreter

open Pattern

/-! ## Alerts -/

inductive CommandAlert where
  | invalidLeverage (value : SdkNumber)
  | invalidCollateral (value : SdkNumber)
  | invalidPercentage (value : SdkNumber)
  | invalidPrice (value : SdkNumber)
  | unknownMarket (market : List Char)
  | openSyntax
  | closeSyntax
  | addCollateralSyntax
  | removeCollateralSyntax
deriving DecidableEq

/-- An alert, if there is a value and it is not valid. -/
def alertUnless (valid : SdkNumber → Bool) (alert : SdkNumber → CommandAlert)
    (value : Option SdkNumber) : Option CommandAlert :=
  value.bind fun v => if valid v then none else some (alert v)

/-- The actions that want a market that is listed. -/
def tradingActions : List ActionType :=
  [.OpenPosition, .ClosePosition, .AddCollateral, .RemoveCollateral, .SetTpSl, .RemoveTpSl,
    .LimitOrder]

def validateMarket (data : ParserData) (intent : ParsedIntent) : Option CommandAlert :=
  match intent.market with
  | some market =>
    if market ≠ [] ∧ intent.action ∈ tradingActions ∧ market ∉ data.markets then
      some (.unknownMarket market)
    else none
  | none => none

def validateIntent (data : ParserData) (i : ParsedIntent) : Option CommandAlert :=
  [alertUnless (SdkNumber.within (11 / 10) 1000) .invalidLeverage i.leverage,
    alertUnless finitePositive .invalidCollateral i.collateral,
    alertUnless finitePositive .invalidCollateral i.amount,
    alertUnless (SdkNumber.within 1 100) .invalidPercentage i.closePercent,
    alertUnless finitePositive .invalidCollateral i.closeAmount,
    alertUnless finitePositive .invalidPrice i.price,
    alertUnless finitePositive .invalidPrice i.limitPrice,
    alertUnless finitePositive .invalidPrice i.takeProfit,
    alertUnless finitePositive .invalidPrice i.stopLoss,
    validateMarket data i].findSome? id

/-- An alert on a text that looks like a command. -/
def detectMalformedCommand (input : List Char) : Option CommandAlert :=
  let lower := trim (collapse (lowerCase input))
  let begins (ws : List String) : Bool := (seqs [start, oneOf ws, boundary]).test lower
  let incomplete : Bool :=
    !(seqs [boundary, longOrShort, boundary]).test lower ||
      !(seq dollar (char Char.isDigit)).test lower
  if begins ["open", "buy", "enter", "o"] ∧
      lower ∉ ["open".toList, "open interest".toList, "oi".toList] then
    some .openSyntax
  else if begins ["close", "exit", "sell", "c"] ∧ lower ∉ ["close".toList, "c".toList] ∧
      ' ' ∈ lower then
    some .closeSyntax
  else if begins ["add"] ∧ lower ≠ "add".toList ∧ incomplete then
    some .addCollateralSyntax
  else if begins ["remove"] ∧ lower ≠ "remove".toList ∧
      ¬ (seqs [start, lit "remove", spaces, tpOrSl, boundary]).test lower ∧ incomplete then
    some .removeCollateralSyntax
  else none

end Interpreter

open Interpreter Pattern

/-! ## The context -/

structure CommandContext where
  lastMarket : Option (List Char) := none
  lastSide : Option TradeSide := none
  lastLeverage : Option SdkNumber := none
  lastCollateral : Option SdkNumber := none
  lastAction : Option ActionType := none
  updatedAt : ℕ
deriving DecidableEq

def CONTEXT_TTL_MS : ℕ := 120000

/-- A text, the time of it, and what is known when it is read. -/
structure Request where
  data : ParserData
  userInput : List Char
  now : ℕ

/-- What `parseIntent` returns: an intent of the parser or of the context, or help, with or
without an alert. -/
inductive Answer where
  | parsed (intent : ParsedIntent)
  | resolved (intent : ParsedIntent)
  | help (alert : Option CommandAlert)
deriving DecidableEq

namespace OfflineInterpreter

/-- Fields that the intent has replace the remembered ones. -/
def updateContext (ctx : CommandContext) (now : ℕ) (intent : ParsedIntent) : CommandContext where
  lastMarket := (intent.market.filter fun m => m ≠ []).or ctx.lastMarket
  lastSide := intent.side.or ctx.lastSide
  lastLeverage := intent.leverage.or ctx.lastLeverage
  lastCollateral := intent.collateral.or ctx.lastCollateral
  lastAction := some intent.action
  updatedAt := now

/-- The text of a follow-up. -/
def followUpText (request : Request) : List Char :=
  lowerCase (sanitize (normalizeAssetText request.data (normalizeNumberWords request.userInput)))

/-- `^close\s+(it|that|the\s+position)$`. -/
def closeIt : Pattern :=
  whole [lit "close", spaces, alts [lit "it", lit "that", seqs [lit "the", spaces, lit "position"]]]

/-- `^(?:increase|change|set)\s+(?:it\s+)?(?:collateral\s+)?to\s+\$?(\d+(?:\.\d+)?)$`. -/
def increaseTo : Pattern :=
  whole [oneOf ["increase", "change", "set"], spaces, optional (seq (lit "it") spaces),
    optional (seq (lit "collateral") spaces), lit "to", spaces, dollar, group 1 number]

/-- `^add\s+\$?(\d+(?:\.\d+)?)\s+(?:to\s+it|more|to\s+that)$`. -/
def addMore : Pattern :=
  whole [lit "add", spaces, dollar, group 1 number, spaces,
    alts [seqs [lit "to", spaces, lit "it"], lit "more", seqs [lit "to", spaces, lit "that"]]]

/-- `^(?:analyze\s+it|what\s+about\s+it)$`. -/
def analyzeIt : Pattern :=
  whole [alts [seqs [lit "analyze", spaces, lit "it"],
    seqs [lit "what", spaces, lit "about", spaces, lit "it"]]]

/-- The remembered market, when there is one. -/
def CommandContext.market (ctx : CommandContext) : Option (List Char) :=
  ctx.lastMarket.filter fun m => m ≠ []

/-- Resolve a follow-up. -/
def tryContextualParse (ctx : CommandContext) (request : Request) : Option ParsedIntent :=
  if CONTEXT_TTL_MS < request.now - ctx.updatedAt then none
  else
    let lower := followUpText request
    firstOf [
      if closeIt.test lower then do
        let market ← CommandContext.market ctx
        let side ← ctx.lastSide
        some { action := .ClosePosition, market := some market, side := some side }
      else none,
      onMatch increaseTo (fun m => do
        let market ← CommandContext.market ctx
        let side ← ctx.lastSide
        let collateral ← ctx.lastCollateral.filter SdkNumber.truthy
        let diff := (parseFloat (m.group 1)).sub collateral
        if diff.positive then
          some { action := .AddCollateral, market := some market, side := some side,
                 amount := some diff }
        else none) lower,
      onMatch addMore (fun m => do
        let market ← CommandContext.market ctx
        let side ← ctx.lastSide
        some { action := .AddCollateral, market := some market, side := some side,
               amount := some (parseFloat (m.group 1)) }) lower,
      if analyzeIt.test lower then do
        let market ← CommandContext.market ctx
        some { action := .Analyze, market := some market }
      else none]

/-- The answer to a text, and what is remembered then. -/
def parseIntent (ctx : CommandContext) (request : Request) : CommandContext × Answer :=
  match localParse request.data request.userInput with
  | some result =>
    match validateIntent request.data result with
    | some alert => (ctx, .help (some alert))
    | none => (updateContext ctx request.now result, .parsed result)
  | none =>
    match tryContextualParse ctx request with
    | some contextResult =>
      match validateIntent request.data contextResult with
      | some alert => (ctx, .help (some alert))
      | none => (updateContext ctx request.now contextResult, .resolved contextResult)
    | none => (ctx, .help (detectMalformedCommand request.userInput))

/-- A text and its answer. -/
structure Exchange where
  request : Request
  answer : Answer

/-- Texts are answered one after the other. -/
def interpreter : Machine CommandContext Request Exchange where
  init := { updatedAt := 0 }
  step ctx request :=
    some ((parseIntent ctx request).1, [{ request, answer := (parseIntent ctx request).2 }])

end OfflineInterpreter

end FlashEdge
