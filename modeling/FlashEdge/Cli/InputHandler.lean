import FlashEdge.Wallet.WalletSession

/-!
# From a typed command to its tool (`handleInput` in `cli/terminal.ts`)

A command is answered inline, goes to a magic tool, or is an intent. An intent passes the
detection of the side, the checks before a trade, the wallet that `--key` names, the gates
of a degraded network and of a critical health, and the failsafe of the magic mode; then
the engine runs the middleware and the tool, and the session wallet is restored.

What the network, the user and the gates answer on the way are the `Answers`. A command is
seen through its `CommandEvent`s: whose positions were looked up, that it went to the
engine, that the middleware let its tool run, and who signed a transaction.
-/

namespace FlashEdge

namespace InputHandler

/-- The mode. A live session has the key that its `FlashClient` was built with, or, where
none could be built, the simulator. -/
inductive TradingMode where
  | simulation
  | live (client : Option String)
  | magic
deriving DecidableEq, Repr

inductive MagicTool where
  | magicInspect | magicPortfolio | magicVerify | magicVault | magicSettle | magicPrice
  | magicMarkets | magicDelegation | magicStatus | magicFaucet | magicSetup | magicDeposit
  | magicWithdraw | magicOpen | magicClose | magicAddCollateral | magicRemoveCollateral
  | magicPartialClose | magicPlaceLimit | magicCancelLimit | magicCancelTrigger
  | magicLiquidate | magicHistory | magicDashboard | magicErHealth | magicAlerts
  | magicWatch | magicReverse | magicIncrease | magicTriggerOrder
deriving DecidableEq, Repr

/-- An intent of the interpreter, or one of a diagnostic action, whose tools only read. -/
inductive Intent where
  | parsed (intent : ParsedIntent)
  | diagnostic

/-- What a line is read as. The dry run and the market monitor are intents. -/
inductive Command where
  | inline
  | magic (tool : MagicTool)
  | intent (intent : Intent)

structure HeldPosition where
  market : String
  side : TradeSide
deriving DecidableEq, Repr

/-- A request that is not answered throws (`none`). `submits` says whether the tool, and
the action that the user confirms where it asks, get as far as sending a transaction. -/
structure Answers where
  walletRebuilding : Bool := false
  throttled : Bool := false
  isAgent : Bool := false
  posList : Option (List HeldPosition) := none
  healthy : Bool := true
  slow : Bool := false
  proceed : Bool := true
  positions : Option (List HeldPosition) := none
  retry : Option (List HeldPosition) := none
  degradedMode : Bool := false
  isReadOnly : Bool := false
  isTradeBlocked : Bool := false
  autoConfirm : Bool := true
  preview : Option Bool := none
  submits : Bool := true
  fails : Bool := false
  rebuilds : Bool := true

/-- The positions of a wallet are looked up; the engine is given the command; its tool is
run; a transaction is signed. -/
inductive CommandEvent where
  | lookedUp (wallet : String)
  | dispatched
  | executed
  | submitted (signer : String)
deriving DecidableEq, Repr

/-! ## The lists of actions -/

def TRADE_ACTIONS : List ActionType := [
  .OpenPosition, .ClosePosition, .AddCollateral, .RemoveCollateral, .SetTpSl, .RemoveTpSl,
  .LimitOrder, .CancelOrder, .EditLimitOrder, .CloseAll, .Swap, .EarnAddLiquidity,
  .EarnRemoveLiquidity, .EarnStake]

def tradeActions : List ActionType :=
  [.OpenPosition, .ClosePosition, .AddCollateral, .RemoveCollateral]

def blockedActions : List ActionType :=
  [.OpenPosition, .ClosePosition, .AddCollateral, .RemoveCollateral]

def sidedActions : List ActionType := [.ClosePosition, .AddCollateral, .RemoveCollateral]

/-- The tools whose preview is confirmed, if previews are on. -/
def previewedTools : List MagicTool := [
  .magicOpen, .magicClose, .magicAddCollateral, .magicRemoveCollateral, .magicReverse,
  .magicPartialClose, .magicIncrease, .magicTriggerOrder, .magicWithdraw]

/-- The methods of the client that send a transaction. -/
inductive ClientMethod where
  | openPosition | closePosition | addCollateral | removeCollateral | reversePosition
  | placeTriggerOrder | cancelTriggerOrder | placeLimitOrder | cancelLimitOrder
  | editLimitOrder | swap | addLiquidity | removeLiquidity | stakeFLP | unstakeFLP
  | claimRewards | sendTx
deriving DecidableEq, Repr

/-- What the tool of an action sends its transactions with. -/
def submitsWith : ActionType → Option ClientMethod
  | .OpenPosition => some .openPosition
  | .ClosePosition => some .closePosition
  | .AddCollateral => some .addCollateral
  | .RemoveCollateral => some .removeCollateral
  | .CloseAll => some .closePosition
  | .ReversePosition => some .reversePosition
  | .SetTpSl => some .placeTriggerOrder
  | .RemoveTpSl => some .cancelTriggerOrder
  | .LimitOrder => some .placeLimitOrder
  | .CancelOrder => some .cancelLimitOrder
  | .EditLimitOrder => some .editLimitOrder
  | .Swap => some .swap
  | .EarnAddLiquidity => some .addLiquidity
  | .EarnRemoveLiquidity => some .removeLiquidity
  | .EarnStake => some .stakeFLP
  | .EarnUnstake => some .unstakeFLP
  | .EarnClaimRewards => some .claimRewards
  | .FafStake => some .sendTx
  | .FafUnstake => some .sendTx
  | .FafClaim => some .sendTx
  | .FafCancelUnstake => some .sendTx
  | _ => none

/-- The magic tools that sign. -/
def MagicTool.signs : MagicTool → Bool
  | .magicSetup | .magicDeposit | .magicWithdraw | .magicOpen | .magicClose
  | .magicAddCollateral | .magicRemoveCollateral | .magicReverse | .magicPartialClose
  | .magicIncrease | .magicPlaceLimit | .magicCancelLimit | .magicCancelTrigger
  | .magicLiquidate | .magicTriggerOrder | .magicSettle => true
  | _ => false

/-- Whether its action is one of these. -/
def Intent.has (actions : List ActionType) : Intent → Bool
  | .parsed intent => actions.contains intent.action
  | .diagnostic => false

end InputHandler

open InputHandler

structure CommandSession extends WalletSession where
  tradingMode : TradingMode

namespace CommandSession

/-- The key that the client signs with, and whose positions it gives. The positions of the
simulator are nobody's. -/
def flashClient (s : CommandSession) : Option String :=
  match s.tradingMode with
  | .live client => client
  | _ => none

def simulationMode (s : CommandSession) : Bool := s.flashClient.isNone

/-- `flashClient.getPositions()`. -/
def lookUp (s : CommandSession) : List CommandEvent :=
  match s.flashClient with
  | some wallet => [.lookedUp wallet]
  | none => []

/-! ## Before the wallet of the command -/

/-- The positions in the intent's market. -/
def matching (market : List Char) (posList : List HeldPosition) : List HeldPosition :=
  posList.filter fun p => toUpperCase p.market = toUpperCase (String.ofList market)

/-- A market is given and no side. -/
def needsSide (intent : ParsedIntent) : Bool :=
  sidedActions.contains intent.action && intent.market.any (· ≠ []) && intent.side.isNone

/-- The side of the only position in the market; otherwise the command ends. -/
def detectSide (s : CommandSession) (answers : Answers) :
    Intent → List CommandEvent × Option Intent
  | .diagnostic => ([], some .diagnostic)
  | .parsed intent =>
    if needsSide intent then
      (s.lookUp, answers.posList.bind fun posList =>
        match matching (intent.market.getD []) posList with
        | [position] => some (.parsed { intent with side := some position.side })
        | _ => none)
    else ([], some (.parsed intent))

/-- The health of the active endpoint. An agent goes on unless it is unreachable; a user is
asked. -/
def checkHealth (answers : Answers) : Bool :=
  if answers.healthy && !answers.slow then true
  else if answers.isAgent then answers.healthy
  else answers.proceed

/-- Whether the position is among those of an answer. -/
def found (market : List Char) (side : TradeSide) (positions : List HeldPosition) : Bool :=
  (matching market positions).any fun p => p.side = side

/-- The position is looked up, and once more if it is not there. An error is ignored. -/
def verifyPosition (s : CommandSession) (answers : Answers) (market : List Char)
    (side : TradeSide) : List CommandEvent × Bool :=
  match answers.positions with
  | none => (s.lookUp, true)
  | some positions =>
    if found market side positions then (s.lookUp, true)
    else (s.lookUp ++ s.lookUp, answers.retry.all (found market side))

/-- The checks before a trade, in live mode. -/
def preTrade (s : CommandSession) (answers : Answers) (intent : Intent) :
    List CommandEvent × Bool :=
  if intent.has tradeActions && !s.simulationMode then
    if checkHealth answers then
      match intent with
      | .parsed { action, market := some market, side := some side, .. } =>
        if action ≠ .OpenPosition ∧ market ≠ [] then s.verifyPosition answers market side
        else ([], true)
      | _ => ([], true)
    else ([], false)
  else ([], true)

/-! ## The wallet of the command -/

/-- A registered name, and otherwise a path. -/
def keyPath (files : Files) (store : WalletStore) (key : String) : Except String String :=
  if store.hasWallet key then store.getWalletPath files.existsSync key
  else files.validateWalletPath key

/-- The address that a `--key` gives. -/
def keyAddress (files : Files) (store : WalletStore) (key : String) : Except String String :=
  (keyPath files store key).bind files.loadFromFile

/-- The wallet that `--key` names, with what is restored later. An invalid one ends the
command. -/
def overrideWallet (s : CommandSession) (files : Files) :
    Option String → Option (CommandSession × Option (String × String))
  | none => some (s, none)
  | some key =>
    match keyAddress files s.store key with
    | .error _ => none
    | .ok address =>
      some ({ s with toWalletSession := s.restored key address },
        some (s.walletAddress, s.walletName))

theorem overrideWallet_some (s : CommandSession) (files : Files) (key : String) :
    s.overrideWallet files (some key) =
      match keyAddress files s.store key with
      | .error _ => none
      | .ok address =>
        some ({ s with toWalletSession := s.restored key address },
          some (s.walletAddress, s.walletName)) :=
  rfl

/-- The key of the name is loaded, if one is registered; an error is only reported. -/
def restoreWallet (s : CommandSession) (files : Files) :
    Option (String × String) → CommandSession
  | none => s
  | some (address, name) =>
    let loaded : WalletSession :=
      if s.store.hasWallet name then
        match s.store.getWalletPath files.existsSync name with
        | .ok walletPath =>
          match s.load files walletPath with
          | .ok (loaded, _) => loaded
          | .error _ => s.toWalletSession
        | .error _ => s.toWalletSession
      else s.toWalletSession
    { s with toWalletSession := loaded.shows address name }

/-! ## The tool -/

/-- A client is built with the manager's key, if it can be. -/
def handleWalletReconnected (s : CommandSession) (answers : Answers) : CommandSession :=
  if s.simulationMode then s
  else if answers.rebuilds && s.walletManager.keypair.isSome then
    { s with
      tradingMode := .live s.walletManager.keypair
      walletAddress := s.walletManager.publicKey.getD "unknown" }
  else s

/-- Every transaction is signed by the client's key, while the manager holds one. -/
def submission (s : CommandSession) (answers : Answers) (action : ActionType) :
    List CommandEvent :=
  match s.flashClient with
  | some signer =>
    if (submitsWith action).isSome && answers.submits && s.walletManager.keypair.isSome then
      [.submitted signer]
    else []
  | none => []

/-- `engine.dispatch`, and what the terminal does with the result of a tool that ends. -/
def dispatch (s : CommandSession) (files : Files) (answers : Answers) :
    Intent → CommandSession × List CommandEvent
  | .diagnostic => (s, [.dispatched, .executed])
  | .parsed intent =>
    match s.runMiddleware files s.simulationMode intent.action with
    | none => (s, [.dispatched])
    | some wallet =>
      let s := { s with toWalletSession := wallet }
      let (wallet, result) := s.walletTool files intent
      let after := { s with toWalletSession := wallet }
      let after :=
        if result.walletConnected && !answers.fails then after.handleWalletReconnected answers
        else after
      (after, [.dispatched, .executed] ++ s.submission answers intent.action)

/-- The gates, the failsafe of the magic mode, and the tool. -/
def runIntent (s : CommandSession) (files : Files) (answers : Answers)
    (restoreData : Option (String × String)) (intent : Intent) :
    CommandSession × List CommandEvent :=
  if (answers.degradedMode || answers.isReadOnly) && intent.has TRADE_ACTIONS then
    (s.restoreWallet files restoreData, [])
  else if answers.isTradeBlocked && intent.has TRADE_ACTIONS then
    (s.restoreWallet files restoreData, [])
  else if s.tradingMode = .magic && intent.has blockedActions then (s, [])
  else
    let (after, events) := s.dispatch files answers intent
    (after.restoreWallet files restoreData, events)

def handleIntent (s : CommandSession) (files : Files) (answers : Answers)
    (keyOverride : Option String) (intent : Intent) : CommandSession × List CommandEvent :=
  if intent.has [.MarketMonitor, .DryRun] then (s, [])
  else
    match s.detectSide answers intent with
    | (lookUps, none) => (s, lookUps)
    | (lookUps, some intent) =>
      match s.preTrade answers intent with
      | (checks, false) => (s, lookUps ++ checks)
      | (checks, true) =>
        match s.overrideWallet files keyOverride with
        | none => (s, lookUps ++ checks)
        | some (keyed, restoreData) =>
          let (after, events) := keyed.runIntent files answers restoreData intent
          (after, lookUps ++ checks ++ events)

/-- A magic tool is built for the manager's key, and throws where there is none. Neither
`--key` nor a gate is looked at. -/
def handleMagic (s : CommandSession) (answers : Answers) (tool : MagicTool) :
    List CommandEvent :=
  if s.tradingMode ≠ .magic then []
  else if !answers.autoConfirm && previewedTools.contains tool && answers.preview = some false
    then []
  else if tool = .magicWatch then []
  else
    match s.walletManager.keypair with
    | some signer =>
      [.dispatched, .executed] ++
        if tool.signs && answers.submits then [.submitted signer] else []
    | none => [.dispatched, .executed]

def handleInput (s : CommandSession) (files : Files) (answers : Answers)
    (keyOverride : Option String) (command : Command) : CommandSession × List CommandEvent :=
  if answers.walletRebuilding || answers.throttled then (s, [])
  else
    match command with
    | .inline => (s, [])
    | .magic tool => (s, s.handleMagic answers tool)
    | .intent intent => s.handleIntent files answers keyOverride intent

end CommandSession

end FlashEdge
