import FlashEdge.Ai.MarketResolver

/-!
# The flexible parsers (`ai/interpreter.ts`)

Parsers that take a command apart whatever the order of its words is: for opens
(`flexParseOpen`, also after a correction of typos), for limit orders and for the
short form of take-profit and stop-loss. Each takes out what it recognises and takes
what is left for the market.
-/

namespace FlashEdge

/-- The actions of an intent. -/
inductive ActionType where
  | Help
  | WalletImport
  | WalletList
  | WalletUse
  | WalletRemove
  | WalletDisconnect
  | WalletConnect
  | WalletAddress
  | WalletBalance
  | WalletTokens
  | WalletStatus
  | GetPortfolio
  | GetPositions
  | GetVolume
  | GetOpenInterest
  | GetLeaderboard
  | GetFees
  | FlashMarkets
  | GetMarketData
  | OpenPosition
  | SetTpSl
  | RemoveTpSl
  | LimitOrder
  | EditLimitOrder
  | CancelOrder
  | ClosePosition
  | AddCollateral
  | RemoveCollateral
  | Analyze
  | RiskReport
  | Dashboard
  | WhaleActivity
  | LiquidationMap
  | FundingDashboard
  | LiquidityDepth
  | ProtocolHealth
  | TradeHistory
  | MarketMonitor
  | DryRun
  | PortfolioState
  | PortfolioExposure
  | PortfolioRebalance
  | ReversePosition
  | CloseAll
  | Swap
  | FafStatus
  | FafStake
  | FafUnstake
  | FafClaim
  | FafTier
  | FafRewards
  | FafReferral
  | FafPoints
  | FafUnstakeRequests
  | FafCancelUnstake
  | EarnStatus
  | EarnAddLiquidity
  | EarnRemoveLiquidity
  | EarnStake
  | EarnUnstake
  | EarnClaimRewards
  | EarnInfo
  | EarnBest
  | EarnPnl
  | EarnDemand
  | EarnRotate
  | EarnSimulate
  | EarnDashboard
  | EarnPositions
  | EarnIntegrations
  | EarnHistory
deriving DecidableEq, Repr

/-- An intent, with the members that its action has. -/
structure ParsedIntent where
  action : ActionType
  market : Option (List Char) := none
  side : Option TradeSide := none
  collateral : Option SdkNumber := none
  leverage : Option SdkNumber := none
  takeProfit : Option SdkNumber := none
  stopLoss : Option SdkNumber := none
  limitPrice : Option SdkNumber := none
  price : Option SdkNumber := none
  closePercent : Option SdkNumber := none
  closeAmount : Option SdkNumber := none
  amount : Option SdkNumber := none
  percent : Option SdkNumber := none
  token : Option (List Char) := none
  pool : Option (List Char) := none
  inputToken : Option (List Char) := none
  outputToken : Option (List Char) := none
  /-- a number, or digits as they stand -/
  orderId : Option (SdkNumber ⊕ List Char) := none
  requestId : Option SdkNumber := none
  type : Option (List Char) := none
  name : Option (List Char) := none
  path : Option (List Char) := none
  innerCommand : Option (List Char) := none
deriving DecidableEq

namespace Interpreter

open Pattern

/-! ## Numbers and sides -/

/-- The number of a text of digits, `fraction` of them behind the point. -/
def ofDigits (int fraction : List Char) : SdkNumber :=
  let n := Nat.ofDigitChars 10 (int ++ fraction) 0
  if n < MAX_NUMBER * 10 ^ fraction.length then
    .finite (Decimal.ofScaled false n (-(fraction.length : ℤ)))
  else .posInfinity

/-- `parseFloat`, of digits and points. -/
def parseFloat (t : List Char) : SdkNumber :=
  let int := t.takeWhile Char.isDigit
  let fraction :=
    match t.dropWhile Char.isDigit with
    | '.' :: rest => rest.takeWhile Char.isDigit
    | _ => []
  if int = [] ∧ fraction = [] then .nan else ofDigits int fraction

/-- `parseInt(t, 10)`, of digits. -/
def parseInt (t : List Char) : SdkNumber := ofDigits t []

/-- `Number.isFinite(n) && n > 0`. -/
def finitePositive : SdkNumber → Bool
  | .finite n => decide (0 < n.toRat)
  | _ => false

/-- `Number.isFinite(n) && n >= 1`. -/
def finiteAtLeastOne : SdkNumber → Bool
  | .finite n => decide (1 ≤ n.toRat)
  | _ => false

/-- The order in which numbers are sorted. -/
def numberLe : SdkNumber → SdkNumber → Bool
  | .finite m, .finite n => decide (m.toRat ≤ n.toRat)
  | .finite _, _ => true
  | _, .finite _ => false
  | _, _ => true

def parseSide (raw : List Char) : Option TradeSide :=
  if raw = "long".toList then some .Long
  else if raw = "short".toList then some .Short
  else none

/-- `long|short`. -/
def longOrShort : Pattern := oneOf ["long", "short"]

/-- `\b(long|short)\b`. -/
def sideWord : Pattern := seqs [boundary, group 1 longOrShort, boundary]

/-- `\$?`. -/
def dollar : Pattern := optional (lit "$")

/-- `\b(\d+(?:\.\d+)?)\s*x\b`. -/
def leverageWord : Pattern := seqs [boundary, group 1 number, many isSpace, lit "x", boundary]

/-- `\b(\d+(?:\.\d+)?)\b`. -/
def bareNumber : Pattern := seqs [boundary, group 1 number, boundary]

/-- A match becomes a space, and spaces one space. -/
def takeOut (p : Pattern) (body : List Char) : List Char :=
  trim (collapse (p.replace (fun _ => [' ']) body))

/-! ## Typos -/

/-- The cells of a row of the matrix of distances, behind its first. -/
def nextCells (c : Char) : List Char → List ℕ → ℕ → List ℕ
  | d :: ds, diagonal :: above :: row, left =>
    let cell := min (min (above + 1) (left + 1)) (diagonal + if c = d then 0 else 1)
    cell :: nextCells c ds (above :: row) cell
  | _, _, _ => []

/-- The next row. -/
def nextRow (b : List Char) (row : List ℕ) (c : Char) : List ℕ :=
  let first := row.headD 0 + 1
  first :: nextCells c b row first

/-- Levenshtein distance; 4 as soon as the lengths are too different. -/
def editDistance (a b : List Char) : ℕ :=
  if a = b then 0
  else if a = [] then b.length
  else if b = [] then a.length
  else if 3 < a.length - b.length ∨ 3 < b.length - a.length then 4
  else (a.foldl (nextRow b) (List.range (b.length + 1))).getLastD 0

def fuzzySide (token : List Char) : Option (List Char) :=
  if token = "long".toList ∨ token = "short".toList then some token
  else ["long".toList, "short".toList].find? fun side => editDistance token side ≤ 1

def fuzzyMarket (data : ParserData) (token : List Char) : Option (List Char) :=
  let direct := resolveMarket data token
  if direct ∈ data.markets then some direct
  else
    match data.markets.find? fun m =>
        editDistance token (lowerCase m) ≤ if m.length ≤ 3 then 1 else 2 with
    | some m => some m
    | none =>
      ((getMarketAliasMap data).find? fun e => editDistance token e.1 ≤ 1).map Prod.snd

def fuzzyCorrectToken (data : ParserData) (t : List Char) : List Char :=
  match fuzzySide t with
  | some side => if t ≠ side then side else correctMarket
  | none => correctMarket
where
  /-- Only alphabetic tokens are corrected, not numbers. -/
  correctMarket : List Char :=
    if (seqs [start, letters, stop]).test t && 3 ≤ t.length then
      match fuzzyMarket data t with
      | some market => lowerCase market
      | none => t
    else t

def fuzzyCorrectTokens (data : ParserData) (input : List Char) : List Char :=
  joinWords ((splitWords input).map (fuzzyCorrectToken data))

/-! ## Opens -/

/-- `\b<word>\s+(?:to\s+|at\s+)?\$?(\d+(?:\.\d+)?)`. -/
def triggerPrice (word : String) : Pattern :=
  seqs [boundary, lit word, spaces, optional (seq (oneOf ["to", "at"]) spaces), dollar,
    group 1 number]

/-- The price behind `tp` or `sl`, if there is one. -/
def parseTrigger (word : String) (suffix : List Char) : Option SdkNumber :=
  ((triggerPrice word).exec suffix).map fun m => parseFloat (m.group 1)

/-- `^(.*?)\b((?:set\s+)?(?:tp|sl)\b.*)$`. -/
def tpSlSplit : Pattern :=
  seqs [start, group 1 (manyLazy isDot), boundary,
    group 2 (seqs [optional (seq (lit "set") spaces), oneOf ["tp", "sl"], boundary, many isDot]),
    stop]

/-- The greetings and fillers in front of a verb. -/
def greeting : Pattern :=
  seqs [start,
    alts [lit "yo", lit "hey", lit "please", lit "pls", lit "ok", lit "okay",
      seqs [lit "i", spaces, lit "want", spaces, lit "to"], seqs [lit "let", spaces, lit "me"],
      seqs [lit "let", spaces, lit "us"], seqs [lit "can", spaces, lit "you"], lit "go",
      lit "just", seqs [lit "i", spaces, lit "wanna"]],
    spaces]

def openVerb : Pattern :=
  seqs [start, oneOf ["open", "buy", "enter"], spaces, optional (seq (lit "a") spaces)]

def leadingArticle : Pattern := seqs [start, oneOf ["a", "an", "the"], spaces]

/-- Strip prefixes and verbs, at most three times. -/
def stripLeading : ℕ → List Char → List Char
  | 0, body => body
  | n + 1, body =>
    let stripped := leadingArticle.replace (fun _ => [])
      (openVerb.replace (fun _ => []) (greeting.replace (fun _ => []) body))
    if stripped = body then body else stripLeading n stripped

/-- `@\$?(\d)`. -/
def atAmount : Pattern := seqs [lit "@", dollar, group 1 (char Char.isDigit)]

def openFiller : Pattern :=
  seqs [boundary,
    alts [lit "with", lit "for", lit "on", lit "at", lit "to", lit "in", lit "of", lit "using",
      lit "and", lit "the", lit "a", lit "an", lit "my", lit "position", lit "collateral",
      seq (lit "dollar") (optional (lit "s")), seq (lit "buck") (optional (lit "s")), lit "usd",
      lit "usdc"],
    boundary]

/-- `\bleverage\s+(\d+(?:\.\d+)?)\b`. -/
def leverageNumber : Pattern := seqs [boundary, lit "leverage", spaces, group 1 number, boundary]

/-- `\$(\d+(?:\.\d+)?)`. -/
def dollarAmount : Pattern := seq (lit "$") (group 1 number)

/-- `\b(?:the|a|an|my|with|for|on)\b`. -/
def lastFiller : Pattern :=
  seqs [boundary, oneOf ["the", "a", "an", "my", "with", "for", "on"], boundary]

/-- The collateral, a leverage that is a bare number, and what is left. -/
def takeCollateral (leverage : Option SdkNumber) (body : List Char) :
    Option SdkNumber × Option SdkNumber × List Char :=
  match dollarAmount.exec body with
  | some m => (some (parseFloat (m.group 1)), leverage, takeOut dollarAmount body)
  | none =>
    match (bareNumber.matchAll body).map fun m => parseFloat (m.group 1) with
    | [] => (none, leverage, body)
    | [n] => (some n, leverage, takeOut bareNumber body)
    | numbers =>
      -- without a leverage the smaller one is taken for it
      if leverage.any SdkNumber.truthy then (none, leverage, body)
      else
        let sorted := numbers.insertionSort fun m n => numberLe m n = true
        (sorted[1]?, sorted[0]?,
          trim (collapse (bareNumber.replaceAll (fun _ => [' ']) body)))

def flexParseOpen (data : ParserData) (input : List Char) : Option ParsedIntent :=
  let (mainPart, tpSlPart) :=
    match tpSlSplit.exec input with
    | some m => (trim (m.group 1), m.group 2)
    | none => (input, [])
  let body := stripLeading 3 mainPart
  let body := atAmount.replaceAll (fun m => '$' :: m.group 1) body
  let body := openFiller.replaceAll (fun _ => [' ']) body
  let body := leverageNumber.replaceAll (fun m => m.group 1 ++ ['x']) body
  let body := trim (collapse body)
  let sideMatch := sideWord.exec body
  let side :=
    match sideMatch.bind fun m => parseSide (m.group 1) with
    | some side => some side
    | none =>
      if "long".toList.isPrefixOf input then some TradeSide.Long
      else if "short".toList.isPrefixOf input then some TradeSide.Short
      else if "open".toList.isPrefixOf input || "enter".toList.isPrefixOf input then
        some TradeSide.Long
      else none
  let body := if sideMatch.isSome then takeOut sideWord body else body
  match side with
  | none => none
  | some side =>
    let levMatch := leverageWord.exec body
    let body := if levMatch.isSome then takeOut leverageWord body else body
    let (collateral, leverage, body) :=
      takeCollateral (levMatch.map fun m => parseFloat (m.group 1)) body
    let body := trim (collapse (lastFiller.replaceAll (fun _ => []) body))
    if body = [] then none
    else
      let resolved := resolveMarket data body
      let market := if resolved ∈ data.markets then some resolved else fuzzyMarket data body
      match market, collateral with
      | some market, some collateral =>
        if ¬ finitePositive collateral then none
        else
          let leverage :=
            if leverage.any SdkNumber.truthy then leverage
            else some ((data.getPreferredLeverage market).getD (parseInt ['2']))
          if ¬ leverage.any finiteAtLeastOne then none
          else
            some {
              action := .OpenPosition
              market := some market
              side := some side
              collateral := some collateral
              leverage
              takeProfit := parseTrigger "tp" tpSlPart
              stopLoss := parseTrigger "sl" tpSlPart }
      | _, _ => none

/-! ## Limit orders -/

/-- `^limit\s+(?:order\s+)?`. -/
def limitPrefix : Pattern :=
  seqs [start, lit "limit", spaces, optional (seq (lit "order") spaces)]

/-- `(?:@|at)\s+\$?(\d+(?:\.\d+)?)\s*$`. -/
def limitPriceSuffix : Pattern :=
  seqs [oneOf ["@", "at"], spaces, dollar, group 1 number, many isSpace, stop]

/-- `(?:(?:for|with)\s+)?\$?(\d+(?:\.\d+)?)\s*(?:dollars?|usd|usdc)?`. -/
def limitCollateral : Pattern :=
  seqs [optional (seq (oneOf ["for", "with"]) spaces), dollar, group 1 number, many isSpace,
    optional (alts [seq (lit "dollar") (optional (lit "s")), lit "usd", lit "usdc"])]

def limitFiller : Pattern :=
  seqs [boundary, oneOf ["for", "with", "on", "a", "an", "the", "order", "position"], boundary]

/-- `text.replace(sub, ' ')` for a text. -/
def replaceText (sub : List Char) (text : List Char) : List Char :=
  (literal (fun c d => decide (d = c)) sub).replace (fun _ => [' ']) text

def parseLimitOrder (data : ParserData) (input : List Char) : Option ParsedIntent := do
  if ¬ "limit".toList.isPrefixOf input then none
  let body := limitPrefix.replace (fun _ => []) input
  let priceMatch ← limitPriceSuffix.exec body
  let limitPrice := parseFloat (priceMatch.group 1)
  let body := trim priceMatch.before
  let sideMatch ← sideWord.exec body
  let side ← parseSide (sideMatch.group 1)
  let body := takeOut sideWord body
  let levMatch ← leverageWord.exec body
  let leverage := parseFloat (levMatch.group 1)
  let body := takeOut leverageWord body
  let colMatch ← limitCollateral.exec body
  let collateral := parseFloat (colMatch.group 1)
  let body := trim (collapse (replaceText colMatch.matched body))
  let market := trim (collapse (limitFiller.replaceAll (fun _ => []) body))
  if market = [] ∨ 20 < market.length then none
  else if ¬ finitePositive limitPrice ∨ ¬ finitePositive collateral ∨
      ¬ finiteAtLeastOne leverage then none
  else
    some {
      action := .LimitOrder
      market := some (resolveMarket data market)
      side := some side
      leverage := some leverage
      collateral := some collateral
      limitPrice := some limitPrice }

/-! ## Take-profit and stop-loss -/

/-- `tp|sl`. -/
def tpOrSl : Pattern := oneOf ["tp", "sl"]

/-- `^(tp|sl)\s+([a-z]+)\s+\$?(\d+(?:\.\d+)?)$`. -/
def tpSlShortcut : Pattern :=
  seqs [start, group 1 tpOrSl, spaces, group 2 letters, spaces, dollar, group 3 number, stop]

def flexParseTpSl (data : ParserData) (input : List Char) : Option ParsedIntent := do
  let m ← tpSlShortcut.exec input
  let market := resolveMarket data (m.group 2)
  let price := parseFloat (m.group 3)
  if market = [] ∨ market ∉ data.markets ∨ ¬ finitePositive price then none
  else
    some {
      action := .SetTpSl
      market := some market
      type := some (m.group 1)
      price := some price }

end Interpreter

end FlashEdge
