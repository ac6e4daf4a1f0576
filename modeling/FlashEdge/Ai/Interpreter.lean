import FlashEdge.Ai.OpenParser

/-!
# The local parser (`ai/interpreter.ts`)

`localParse` tries one expression after the other on the normalized text and returns
the intent of the first that matches; the order matters. The expressions stand here in
the order of the source, in groups under the headings the source has, and
`localParse` is the first of the groups that has an intent.
-/

namespace FlashEdge

namespace Interpreter

open Pattern

/-- `if (p.test(text)) return intent`. -/
def onTest (p : Pattern) (intent : ParsedIntent) (text : List Char) : Option ParsedIntent :=
  if p.test text then some intent else none

/-- `const m = text.match(p); if (m) return f(m)`; `f` may pass. -/
def onMatch (p : Pattern) (f : Match → Option ParsedIntent) (text : List Char) :
    Option ParsedIntent :=
  (p.exec text).bind f

/-- The first that returns. -/
def firstOf : List (Option ParsedIntent) → Option ParsedIntent
  | [] => none
  | some intent :: _ => some intent
  | none :: rest => firstOf rest

/-- `^...$`. -/
def whole (ps : List Pattern) : Pattern := seqs (start :: ps ++ [stop])

/-- `w|ws`, `ws` being `w` in the plural. -/
def plural (w : String) : Pattern := seq (lit w) (optional (lit "s"))

/-- `\S+`. -/
def nonSpaces : Pattern := many1 fun c => !isSpace c

/-- `.+`. -/
def anything : Pattern := many1 isDot

/-! ## Wallet, portfolio and market data -/

/-- The wallet commands; names and paths keep their case where the source keeps it. -/
def walletCommands (normalized lower : List Char) : Option ParsedIntent :=
  let wallet (ps : List Pattern) : Pattern := whole (lit "wallet" :: spaces :: ps)
  /- the name as it was typed -/
  let original (verb : String) (m : Match) : List Char :=
    match (seqs [start, litIgnoreCase "wallet".toList, spaces, litIgnoreCase verb.toList, spaces,
        group 1 nonSpaces, stop]).exec normalized with
    | some m' => m'.group 1
    | none => m.group 1
  firstOf [
    onMatch (wallet [lit "import", spaces, group 1 nonSpaces, spaces, group 2 anything])
      (fun m => some {
        action := .WalletImport
        name := some (m.group 1)
        path := some (trim (m.group 2)) }) lower,
    onTest (seqs [start, lit "wallet", spaces, lit "import-key"])
      { action := .WalletImport, name := some [], path := some [] } lower,
    onTest (wallet [lit "import"])
      { action := .WalletImport, name := some [], path := some [] } lower,
    onTest (wallet [lit "list"]) { action := .WalletList } lower,
    onMatch (wallet [lit "use", spaces, group 1 nonSpaces])
      (fun m => some { action := .WalletUse, name := some (original "use" m) }) lower,
    onMatch (wallet [lit "remove", spaces, group 1 nonSpaces])
      (fun m => some { action := .WalletRemove, name := some (original "remove" m) }) lower,
    onTest (wallet [lit "disconnect"]) { action := .WalletDisconnect } lower,
    onMatch (wallet [lit "connect", spaces, group 1 anything])
      (fun m => some { action := .WalletConnect, path := some (trim (m.group 1)) }) lower,
    onTest (wallet [lit "connect"]) { action := .WalletConnect, path := some [] } lower,
    onTest (wallet [oneOf ["address", "addr"]]) { action := .WalletAddress } lower,
    onTest (wallet [oneOf ["balance", "bal"]]) { action := .WalletBalance } lower,
    onTest (wallet [plural "token"]) { action := .WalletTokens } lower,
    onTest (whole [lit "wallet"]) { action := .WalletStatus } lower]

/-- `^(?:price of\s+)?([a-z\s]+?)\s*(?:price)?$`. -/
def marketPrice : Pattern :=
  whole [optional (seq (lit "price of") spaces),
    group 1 (many1Lazy fun c => c.isLower || isSpace c), many isSpace, optional (lit "price")]

/-- Portfolio, positions, volume, open interest, leaderboard, fees and market data. -/
def dataCommands (data : ParserData) (lower : List Char) : Option ParsedIntent :=
  firstOf [
    onTest (whole [oneOf ["portfolio", "balance", "account"]]) { action := .GetPortfolio } lower,
    onTest (whole [alts [plural "position", plural "my position", plural "show position",
      plural "open position"]]) { action := .GetPositions } lower,
    onTest (whole [oneOf ["volume", "trading volume", "show volume"]])
      { action := .GetVolume } lower,
    onTest (whole [oneOf ["open interest", "oi", "show oi"]]) { action := .GetOpenInterest } lower,
    onTest (whole [alts [lit "leaderboard", plural "top trader", plural "ranking"]])
      { action := .GetLeaderboard } lower,
    onTest (whole [alts [plural "fee", plural "trading fee", plural "show fee"]])
      { action := .GetFees } lower,
    onTest (whole [optional (seq (lit "flash") spaces), lit "markets"])
      { action := .FlashMarkets } lower,
    onTest (whole [lit "all markets"]) { action := .GetMarketData } lower,
    onMatch marketPrice (fun m =>
      let resolved := resolveMarket data (m.group 1)
      if resolved ∈ data.markets then
        some { action := .GetMarketData, market := some resolved }
      else none) lower]

/-! ## Opens -/

/-- When the parser for opens is tried. -/
def openTriggers (lower : List Char) : Bool :=
  let hasSide := (seqs [boundary, longOrShort, boundary]).test lower
  let openPrefixes := (seqs [start, oneOf ["open", "enter", "long", "short", "please", "pls", "yo",
    "hey", "ok", "okay", "i", "just"], boundary]).test lower
  let marketSidePattern := (seqs [start, letters, spaces, longOrShort, boundary]).test lower
  let numberFirst := (seqs [start, char Char.isDigit]).test lower
  let hasLevPattern := (seqs [digits, many isSpace, lit "x", boundary]).test lower
  openPrefixes || marketSidePattern || (numberFirst && hasSide) || hasLevPattern

def openCommands (data : ParserData) (lower : List Char) : Option ParsedIntent :=
  let hasSide := (seqs [boundary, longOrShort, boundary]).test lower
  let hasNumbers := (char Char.isDigit).test lower
  let corrected := fuzzyCorrectTokens data lower
  let fuzzy := if corrected ≠ lower then flexParseOpen data corrected else none
  firstOf [
    if hasNumbers && openTriggers lower then firstOf [flexParseOpen data lower, fuzzy] else none,
    -- typos in inputs that have not triggered
    if hasNumbers && !hasSide then fuzzy else none]

/-! ## Take-profit, stop-loss and limit orders -/

def triggerCommands (data : ParserData) (lower : List Char) : Option ParsedIntent :=
  let toOrAt := optional (seq (oneOf ["to", "at"]) spaces)
  firstOf [
    if (seqs [start, tpOrSl, spaces, char Char.isLower]).test lower then flexParseTpSl data lower
    else none,
    onMatch (whole [lit "set", spaces, group 1 tpOrSl, spaces, group 2 letters, spaces,
        group 3 longOrShort, spaces, toOrAt, dollar, group 4 number]) (fun m =>
      (parseSide (m.group 3)).map fun side =>
        { action := .SetTpSl, market := some (resolveMarket data (m.group 2)), side := some side,
          type := some (m.group 1), price := some (parseFloat (m.group 4)) }) lower,
    onMatch (whole [lit "set", spaces, group 1 tpOrSl, spaces, dollar, group 2 number, spaces,
        optional (oneOf ["for", "on", "to"]), many isSpace, group 3 letters, spaces,
        group 4 longOrShort]) (fun m =>
      (parseSide (m.group 4)).map fun side =>
        { action := .SetTpSl, market := some (resolveMarket data (m.group 3)), side := some side,
          type := some (m.group 1), price := some (parseFloat (m.group 2)) }) lower,
    onTest (seqs [start, lit "set", spaces, tpOrSl, boundary]) { action := .Help } lower,
    onMatch (whole [lit "remove", spaces, group 1 tpOrSl, spaces, group 2 letters, spaces,
        group 3 longOrShort]) (fun m =>
      (parseSide (m.group 3)).map fun side =>
        { action := .RemoveTpSl, market := some (resolveMarket data (m.group 2)),
          side := some side, type := some (m.group 1) }) lower]

def limitCommands (data : ParserData) (lower : List Char) : Option ParsedIntent :=
  firstOf [
    -- what begins with "limit" is a limit order or help
    if (seqs [start, lit "limit", boundary]).test lower then
      firstOf [parseLimitOrder data lower, some { action := .Help }]
    else none,
    onMatch (whole [lit "edit", spaces, lit "limit", spaces,
        optional (seq (lit "order") spaces), optional (lit "#"), group 1 digits, spaces,
        optional (seqs [group 2 letters, spaces, group 3 longOrShort, spaces]),
        optional (seq (lit "price") spaces), dollar,
        group 4 (many1 fun c => c.isDigit || c = '.')]) (fun m =>
      let orderId := parseInt (m.group 1)
      let market := if (m.group? 2).isSome then resolveMarket data (m.group 2) else []
      let side := (m.group? 3).bind parseSide
      let limitPrice := parseFloat (m.group 4)
      match orderId, limitPrice with
      | .finite _, .finite _ =>
        some {
          action := .EditLimitOrder
          orderId := some (.inl orderId)
          market := some (if market = [] then "SOL".toList else market)
          side := some (side.getD .Long)
          limitPrice := some limitPrice }
      | _, _ => none) lower,
    onMatch (whole [lit "cancel", spaces, optional (seq (lit "order") spaces),
        optional (lit "#"), optional (lit "order-"), group 1 digits])
      (fun m => some { action := .CancelOrder, orderId := some (.inr (m.group 1)) }) lower]

/-! ## Closes -/

/-- `^(?:close|exit|sell)\s+`. -/
def closeVerb : Pattern := seqs [start, oneOf ["close", "exit", "sell"], spaces]

/-- `(?:my\s+)?`. -/
def my : Pattern := optional (seq (lit "my") spaces)

/-- `(?:\s+position)?`. -/
def position : Pattern := optional (seq spaces (lit "position"))

/-- `close SOL long`, with or without a part to close. -/
def closeMatch : Pattern :=
  seqs [closeVerb, my, group 1 letters, spaces, group 2 longOrShort, position, many isSpace,
    group 3 (many isDot), stop]

/-- `^(\d+(?:\.\d+)?)\s*(?:%|percent)$`. -/
def percentSuffix : Pattern := whole [group 1 number, many isSpace, oneOf ["%", "percent"]]

/-- `^\$(\d+(?:\.\d+)?)$`. -/
def amountSuffix : Pattern := whole [lit "$", group 1 number]

def closeCommands (data : ParserData) (lower : List Char) : Option ParsedIntent :=
  firstOf [
    onMatch (seqs [closeVerb, group 1 number, many isSpace, group 2 (oneOf ["%", "percent"]),
        spaces, optional (seq (lit "of") spaces), my, group 3 letters, spaces,
        group 4 longOrShort]) (fun m =>
      (parseSide (m.group 4)).map fun side =>
        { action := .ClosePosition, market := some (resolveMarket data (m.group 3)),
          side := some side, closePercent := some (parseFloat (m.group 1)) }) lower,
    onMatch (seqs [closeVerb, lit "$", group 1 number, spaces,
        optional (seq (oneOf ["of", "from"]) spaces), my, group 2 letters, spaces,
        group 3 longOrShort]) (fun m =>
      (parseSide (m.group 3)).map fun side =>
        { action := .ClosePosition, market := some (resolveMarket data (m.group 2)),
          side := some side, closeAmount := some (parseFloat (m.group 1)) }) lower,
    onMatch closeMatch (fun m =>
      (parseSide (m.group 2)).map fun side =>
        let suffix := trim (m.group 3)
        let pctMatch := if suffix = [] then none else percentSuffix.exec suffix
        let amtMatch := if suffix = [] then none else amountSuffix.exec suffix
        { action := .ClosePosition
          market := some (resolveMarket data (m.group 1))
          side := some side
          closePercent := pctMatch.map fun p => parseFloat (p.group 1)
          closeAmount :=
            if pctMatch.isSome then none else amtMatch.map fun p => parseFloat (p.group 1) })
      lower,
    onMatch (seqs [closeVerb, my, group 1 letters, position, stop]) (fun m =>
      let resolved := resolveMarket data (m.group 1)
      if resolved ∈ data.markets then
        some { action := .ClosePosition, market := some resolved }
      else none) lower]

/-! ## Collateral -/

/-- `(?:dollars?\s+)?(?:collateral\s+)?`. -/
def dollarsOfCollateral : Pattern :=
  seq (optional (seq (plural "dollar") spaces)) (optional (seq (lit "collateral") spaces))

/-- `add $200 to SOL`, up to the market. -/
def addCollateralHead : Pattern :=
  seqs [lit "add", spaces,
    optional (seqs [lit "collateral", spaces, optional (seq (lit "of") spaces)]), dollar,
    group 1 number, spaces, dollarsOfCollateral, optional (seq (oneOf ["to", "on"]) spaces), my]

/-- `remove $100 from ETH`, up to the market. -/
def removeCollateralHead : Pattern :=
  seqs [lit "remove", spaces, dollar, group 1 number, spaces, dollarsOfCollateral,
    optional (seq (oneOf ["from", "on"]) spaces), my]

/-- With a side, and without. -/
def collateralCommand (data : ParserData) (action : ActionType) (head : Pattern)
    (lower : List Char) : Option ParsedIntent :=
  firstOf [
    onMatch (seq start (seqs [head, group 2 letters, spaces, group 3 longOrShort, stop])) (fun m =>
      (parseSide (m.group 3)).map fun side =>
        { action, market := some (resolveMarket data (m.group 2)), side := some side,
          amount := some (parseFloat (m.group 1)) }) lower,
    onMatch (seq start (seqs [head, group 2 letters, stop])) (fun m =>
      let resolved := resolveMarket data (m.group 2)
      if resolved ∈ data.markets then
        some { action, market := some resolved, amount := some (parseFloat (m.group 1)) }
      else none) lower]

def collateralCommands (data : ParserData) (lower : List Char) : Option ParsedIntent :=
  firstOf [collateralCommand data .AddCollateral addCollateralHead lower,
    collateralCommand data .RemoveCollateral removeCollateralHead lower]

/-! ## Analysis, portfolio and swaps -/

/-- The market behind a command. -/
def withMarket (data : ParserData) (command : Pattern) (action : ActionType)
    (lower : List Char) : Option ParsedIntent :=
  onMatch (whole [command, spaces, group 1 anything])
    (fun m => some { action, market := some (resolveMarket data (m.group 1)) }) lower

def agentCommands (data : ParserData) (lower : List Char) : Option ParsedIntent :=
  firstOf [
    withMarket data (seqs [lit "analy", char fun c => c = 's' || c = 'z', lit "e"]) .Analyze lower,
    onTest (whole [oneOf ["risk report", "risk"]]) { action := .RiskReport } lower,
    onTest (whole [oneOf ["dashboard", "dash"]]) { action := .Dashboard } lower,
    onMatch (whole [alts [seqs [lit "whale", spaces, lit "activity"], plural "whale"],
        optional (seq spaces (group 1 anything))])
      (fun m => some { action := .WhaleActivity, market := (m.group? 1).map (resolveMarket data) })
      lower,
    withMarket data (plural "liquidation") .LiquidationMap lower,
    onTest (whole [plural "liquidation"]) { action := .LiquidationMap } lower,
    withMarket data (lit "funding") .FundingDashboard lower,
    onTest (whole [lit "funding"]) { action := .FundingDashboard } lower,
    withMarket data (lit "depth") .LiquidityDepth lower,
    onTest (whole [lit "depth"]) { action := .LiquidityDepth } lower,
    onTest (whole [lit "protocol", spaces, lit "health"]) { action := .ProtocolHealth } lower,
    onTest (whole [alts [seqs [lit "trade", spaces, lit "history"], lit "trades", lit "journal",
      seqs [lit "trade", spaces, lit "journal"], lit "history"]]) { action := .TradeHistory } lower,
    onTest (whole [alts [seqs [lit "market", spaces, lit "monitor"], lit "monitor"]])
      { action := .MarketMonitor } lower,
    onMatch (whole [alts [lit "dryrun", lit "dry-run", seqs [lit "dry", spaces, lit "run"]], spaces,
        group 1 anything])
      (fun m => some { action := .DryRun, innerCommand := some (m.group 1) }) lower,
    onTest (whole [alts [seqs [lit "portfolio", spaces, lit "state"],
      seqs [lit "portfolio", spaces, lit "status"], lit "capital"]])
      { action := .PortfolioState } lower,
    onTest (whole [alts [seqs [lit "portfolio", spaces, lit "exposure"], lit "exposure"]])
      { action := .PortfolioExposure } lower,
    onTest (whole [alts [seqs [lit "portfolio", spaces, lit "rebalance"], lit "rebalance"]])
      { action := .PortfolioRebalance } lower,
    onMatch (whole [oneOf ["reverse", "flip"], spaces, optional (seq (lit "position") spaces),
        group 1 letters, optional (seq spaces (group 2 longOrShort))])
      (fun m => some {
        action := .ReversePosition
        market := some (upperCase (m.group 1))
        side := some (((m.group? 2).bind parseSide).getD .Long) }) lower,
    onTest (whole [alts [seqs [lit "close", spaces, lit "all"], lit "close-all", lit "closeall",
      seqs [lit "exit", spaces, lit "all"]], optional (seq spaces (plural "position"))])
      { action := .CloseAll } lower]

def swapCommands (data : ParserData) (lower : List Char) : Option ParsedIntent :=
  let toward := oneOf ["to", "for", "into"]
  let swap (input output amount : List Char) : ParsedIntent :=
    { action := .Swap, inputToken := some (resolveMarket data input),
      outputToken := some (resolveMarket data output), amount := some (parseFloat amount) }
  firstOf [
    onMatch (whole [lit "swap", spaces, dollar, group 1 number, spaces, group 2 letters, spaces,
        toward, spaces, group 3 letters])
      (fun m => some (swap (m.group 2) (m.group 3) (m.group 1))) lower,
    onMatch (whole [lit "swap", spaces, group 1 letters, spaces, toward, spaces, group 2 letters,
        spaces, dollar, group 3 number])
      (fun m => some (swap (m.group 1) (m.group 2) (m.group 3))) lower,
    onMatch (whole [lit "swap", spaces, group 1 letters, spaces, group 2 letters, spaces, dollar,
        group 3 number])
      (fun m => some (swap (m.group 1) (m.group 2) (m.group 3))) lower,
    onTest (whole [lit "swap"]) { action := .Help } lower]

/-! ## The FAF token -/

def fafCommands (lower : List Char) : Option ParsedIntent :=
  let faf (ps : List Pattern) : Pattern := whole (lit "faf" :: spaces :: ps)
  let claim (p : Pattern) (type : String) : Option ParsedIntent :=
    onTest (faf [lit "claim", spaces, p]) { action := .FafClaim, type := some type.toList } lower
  if (seqs [start, lit "faf", boundary]).test lower then
    firstOf [
      onTest (whole [lit "faf", optional (seq spaces (lit "status"))]) { action := .FafStatus }
        lower,
      onMatch (faf [lit "stake", spaces, dollar, group 1 number])
        (fun m => some { action := .FafStake, amount := some (parseFloat (m.group 1)) }) lower,
      onMatch (faf [lit "unstake", spaces, dollar, group 1 number])
        (fun m => some { action := .FafUnstake, amount := some (parseFloat (m.group 1)) }) lower,
      claim (plural "reward") "rewards",
      claim (lit "revenue") "revenue",
      claim (lit "rebate") "rebate",
      onTest (faf [lit "claim"]) { action := .FafClaim, type := some "all".toList } lower,
      onTest (faf [alts [plural "tier", lit "vip", plural "level"]]) { action := .FafTier } lower,
      onTest (faf [plural "reward"]) { action := .FafRewards } lower,
      onTest (faf [lit "ref", optional (lit "f"), lit "er", optional (lit "r"), lit "al",
        optional (lit "s")]) { action := .FafReferral } lower,
      onTest (faf [alts [plural "point", lit "voltage"]]) { action := .FafPoints } lower,
      onTest (faf [alts [seqs [lit "unstake", spaces, plural "request"], plural "request",
        lit "pending"]]) { action := .FafUnstakeRequests } lower,
      onMatch (faf [lit "cancel", spaces, group 1 digits])
        (fun m => some { action := .FafCancelUnstake, requestId := some (parseInt (m.group 1)) })
        lower,
      some { action := .FafStatus }]
  else none

/-! ## Earn -/

def EARN_POOL_ALIASES : List (String × String) :=
  [("crypto", "Crypto.1"), ("main", "Crypto.1"), ("bluechip", "Crypto.1"), ("gold", "Virtual.1"),
    ("xau", "Virtual.1"), ("virtual", "Virtual.1"), ("forex", "Virtual.1"),
    ("commodities", "Virtual.1"), ("defi", "Governance.1"), ("governance", "Governance.1"),
    ("gov", "Governance.1"), ("meme", "Community.1"), ("community", "Community.1"),
    ("wif", "Community.2"), ("fart", "Trump.1"), ("fartcoin", "Trump.1"), ("trump", "Trump.1"),
    ("ore", "Ore.1")]

def poolAlias (key : List Char) : Option (List Char) :=
  (EARN_POOL_ALIASES.find? fun e => e.1.toList = key).map fun e => e.2.toList

/-- `pool:`, which a pool's own name may follow. -/
def poolMark : List Char := "pool:".toList

def resolveEarnPool (name : List Char) : Option (List Char) :=
  if name = [] then none
  else if poolMark.isPrefixOf name then some (name.drop 5)
  else poolAlias (lowerCase name)

/-- The text without its last word if that is a pool, and the pool. -/
def extractEarnPool (text originalText : List Char) : List Char × Option (List Char) :=
  let tokens := splitWords (trim text)
  if tokens.length < 2 then (text, none)
  else
    let last := tokens.getLastD []
    let lastOrig := (splitWords (trim originalText)).getLastD last
    if (poolAlias last).isSome || poolMark.isPrefixOf last then
      (joinWords tokens.dropLast,
        resolveEarnPool (if poolMark.isPrefixOf last then lastOrig else last))
    else (text, none)

/-- `[- ]?<w>`, which may be left out. -/
def optionalTail (w : String) : Pattern :=
  optional (seq (optional (char fun c => c = '-' || c = ' ')) (lit w))

/-- `earn add`, `earn stake`, `earn deposit`: a dollar amount. -/
def earnAmount (verb : Pattern) : Pattern :=
  seq start (seqs [lit "earn", spaces, verb, spaces, dollar, group 1 number, stop])

/-- `earn remove`, `earn unstake`, `earn withdraw`: a percentage. -/
def earnPercent (verb : Pattern) : Pattern :=
  seq start (seqs [lit "earn", spaces, verb, spaces, group 1 number, many isSpace,
    optional (lit "%"), stop])

def earnCommands (normalized lower : List Char) : Option ParsedIntent :=
  let (earnBody, earnPool) := extractEarnPool lower normalized
  let earn (ps : List Pattern) : Pattern := whole (lit "earn" :: spaces :: ps)
  let pool := some (earnPool.getD "Crypto.1".toList)
  let usdc := some "USDC".toList
  let addLiquidity (amount : List Char) (pool : Option (List Char)) : ParsedIntent :=
    { action := .EarnAddLiquidity, amount := some (parseFloat amount), token := usdc, pool }
  let removeLiquidity (percent : List Char) : ParsedIntent :=
    { action := .EarnRemoveLiquidity, percent := some (parseFloat percent), token := usdc, pool }
  if (seqs [start, lit "earn", boundary]).test lower then
    firstOf [
      onMatch (earnAmount (seq (lit "add") (optionalTail "liquidity")))
        (fun m => some (addLiquidity (m.group 1) pool)) earnBody,
      onMatch (earnPercent (seq (lit "remove") (optionalTail "liquidity")))
        (fun m => some (removeLiquidity (m.group 1))) earnBody,
      onMatch (earnAmount (seq (lit "stake") (optionalTail "flp")))
        (fun m => some { action := .EarnStake, amount := some (parseFloat (m.group 1)), pool })
        earnBody,
      onMatch (earnPercent (seq (lit "unstake") (optionalTail "flp")))
        (fun m => some { action := .EarnUnstake, percent := some (parseFloat (m.group 1)), pool })
        earnBody,
      onTest (earn [lit "claim", optional (seq (optional (char fun c => c = '-' || c = ' '))
        (plural "reward"))]) { action := .EarnClaimRewards, pool := earnPool } earnBody,
      onMatch (earn [lit "info", optional (seq spaces (group 1 anything))])
        (fun m =>
          let named := (m.group? 1).map fun name => (resolveEarnPool name).getD name
          some { action := .EarnInfo, pool := named.or earnPool }) earnBody,
      onMatch (earnAmount (lit "deposit")) (fun m => some (addLiquidity (m.group 1) pool)) earnBody,
      onMatch (earnPercent (lit "withdraw")) (fun m => some (removeLiquidity (m.group 1))) earnBody,
      onTest (earn [lit "best"]) { action := .EarnBest } earnBody,
      onMatch (earnAmount (lit "best"))
        (fun m => some (addLiquidity (m.group 1) (some "__best__".toList))) earnBody,
      onTest (earn [alts [lit "pnl", lit "profit", lit "performance", plural "return"]])
        { action := .EarnPnl } earnBody,
      onTest (earn [oneOf ["demand", "utilization", "usage"]]) { action := .EarnDemand } earnBody,
      onTest (earn [oneOf ["rotate", "optimize", "rebalance"]]) { action := .EarnRotate } earnBody,
      onMatch (earnAmount (seq (lit "sim") (optional (lit "ulate"))))
        (fun m => some { action := .EarnSimulate, amount := some (parseFloat (m.group 1)), pool })
        earnBody,
      onTest (earn [oneOf ["dashboard", "dash"]]) { action := .EarnDashboard } earnBody,
      onTest (earn [alts [plural "position", lit "pos"]]) { action := .EarnPositions } earnBody,
      onTest (earn [alts [plural "integration", plural "partner"]]) { action := .EarnIntegrations }
        earnBody,
      onTest (earn [oneOf ["history", "apy"], many isSpace])
        { action := .EarnHistory, pool := earnPool } earnBody,
      onTest (earn [plural "pool"]) { action := .EarnStatus } earnBody,
      -- "earn 500 crypto"
      onMatch (seq start (seqs [lit "earn", spaces, dollar, group 1 number, stop]))
        (fun m => earnPool.map fun pool => addLiquidity (m.group 1) (some pool)) earnBody,
      onTest (whole [lit "earn", optional (seq spaces (lit "status"))]) { action := .EarnStatus }
        earnBody,
      some { action := .EarnStatus }]
  else none

/-! ## The parser -/

def localParse (data : ParserData) (input : List Char) : Option ParsedIntent :=
  let normalized := normalize data input
  let lower := lowerCase normalized
  firstOf [
    onTest (whole [oneOf ["help", "commands", "?"]]) { action := .Help } lower,
    walletCommands normalized lower,
    dataCommands data lower,
    openCommands data lower,
    triggerCommands data lower,
    limitCommands data lower,
    closeCommands data lower,
    collateralCommands data lower,
    agentCommands data lower,
    swapCommands data lower,
    fafCommands lower,
    earnCommands normalized lower]

end Interpreter

end FlashEdge
