import FlashEdge.Ai.OpenParser
import FlashEdge.Wallet.WalletManager
import FlashEdge.Wallet.WalletStore

/-!
# The session wallet (`tools/wallet-tools.ts`, `wallet/session.ts`, `core/execution-middleware.ts`)

The wallet of a session is held in four places: the key pair of the wallet manager, the
address and the name that the context shows, the registry with its default, and the name
in `session.json` that the next session is offered. The tools of the `wallet` commands
write them, and the middleware reads the stored names when a trade finds no key pair.

- `walletImport`, `walletUse`, `walletRemove`, `walletDisconnect`, `walletConnect`: the
  tools.
- `tryRestoreWalletSession`: the wallet that the middleware loads again.
- `runMiddleware`: the pipeline before a tool.
- `addressOf`: the key that is registered under a name, in terms of which a restoration is
  said (`tryRestoreWalletSession_eq`).
-/

namespace FlashEdge

/-- What the file system gives for a path. -/
structure Files where
  existsSync : String → Bool
  validateWalletPath : String → Except String String
  /-- the address of the key file -/
  loadFromFile : String → Except String String

/-- The manager, what the context shows of it, and what is stored. -/
structure WalletSession where
  walletManager : WalletManager := {}
  walletAddress : String := "unknown"
  walletName : String := ""
  store : WalletStore := {}
  lastWallet : Option String := none

/-- What is read of the result of a tool of the wallet. -/
structure WalletResult where
  success : Bool
  walletConnected : Bool := false
  disconnected : Bool := false
deriving DecidableEq, Repr

namespace WalletSession

/-- `walletManager.loadFromFile`; a file that cannot be loaded throws. -/
def load (s : WalletSession) (files : Files) (path : String) :
    Except String (WalletSession × String) :=
  match files.loadFromFile path with
  | .ok address =>
    .ok ({ s with walletManager := s.walletManager.loadFromFile (some address) }, address)
  | .error message => .error message

/-- The context's address and name. -/
def shows (s : WalletSession) (address name : String) : WalletSession :=
  { s with walletAddress := address, walletName := name }

/-- An empty name is not saved. -/
def updateLastWallet (s : WalletSession) (name : String) : WalletSession :=
  { s with lastWallet := if name = "" then none else some name }

def clearLastWallet (s : WalletSession) : WalletSession := { s with lastWallet := none }

/-! ## The tools -/

def failed : WalletResult := { success := false }
def connected : WalletResult := { success := true, walletConnected := true }

/-- The wallet is registered and made the default before its key is loaded. -/
def walletImport (s : WalletSession) (files : Files) (name path : String) :
    WalletSession × WalletResult :=
  if name = "" ∨ path = "" then (s, { success := true })
  else
    let realPath := files.validateWalletPath path
    match s.store.registerWallet name realPath (realPath.bind files.loadFromFile) with
    | .error _ => (s, failed)
    | .ok (store, address, realPath) =>
      match store.setDefault files.existsSync name with
      | .error _ => ({ s with store }, failed)
      | .ok store =>
        match { s with store }.load files realPath with
        | .error _ => ({ s with store }, failed)
        | .ok (s, _) => ((s.shows address name).updateLastWallet name, connected)

/-- Both names are stored before the key is loaded. -/
def walletUse (s : WalletSession) (files : Files) (name : String) :
    WalletSession × WalletResult :=
  match s.store.getWalletPath files.existsSync name with
  | .error _ => (s, failed)
  | .ok walletPath =>
    match s.store.setDefault files.existsSync name with
    | .error _ => (s, failed)
    | .ok store =>
      let s := { s with store }.updateLastWallet name
      match s.load files walletPath with
      | .error _ => (s, failed)
      | .ok (s, address) => (s.shows address name, connected)

def walletRemove (s : WalletSession) (name : String) : WalletSession × WalletResult :=
  match s.store.removeWallet name with
  | .error _ => (s, failed)
  | .ok store => ({ s with store }, { success := true })

/-- Nothing is stored of the wallet that is disconnected, but it stays registered. -/
def walletDisconnect (s : WalletSession) (files : Files) : WalletSession × WalletResult :=
  if s.walletManager.keypair.isNone ∧ s.walletManager.publicKey.isNone then
    (s, { success := true })
  else
    let s := { s with walletManager := s.walletManager.disconnect }
    let s := (s.shows "unknown" "").clearLastWallet
    let s :=
      if (s.store.getDefault files.existsSync).isSome then { s with store := s.store.clearDefault }
      else s
    (s, { success := true, disconnected := true })

def looksLikeName (path : String) : Bool :=
  !includes path "/" && !includes path "\\" && !includes path "."

/-- A wallet connected by its path is called `wallet`, also in what is stored. -/
def walletConnect (s : WalletSession) (files : Files) (path : String) :
    WalletSession × WalletResult :=
  if path = "" then (s, failed)
  else if looksLikeName path &&
      s.store.listWallets.any (fun name => toLowerCase name = toLowerCase path) then
    (s, failed)
  else
    match s.load files path with
    | .error _ => (s, failed)
    | .ok (s, address) => ((s.shows address "wallet").updateLastWallet "wallet", connected)

/-- The tool of an action that changes the wallet; the tools of the others leave it. -/
def walletTool (s : WalletSession) (files : Files) (intent : ParsedIntent) :
    WalletSession × WalletResult :=
  let name := String.ofList (intent.name.getD [])
  let path := String.ofList (intent.path.getD [])
  match intent.action with
  | .WalletImport => s.walletImport files name path
  | .WalletUse => s.walletUse files name
  | .WalletRemove => s.walletRemove name
  | .WalletDisconnect => s.walletDisconnect files
  | .WalletConnect => s.walletConnect files path
  | _ => (s, { success := true })

/-! ## The middleware -/

def TRADING_ACTIONS : List ActionType := [
  .OpenPosition, .ClosePosition, .AddCollateral, .RemoveCollateral, .CloseAll, .Swap,
  .LimitOrder, .CancelOrder, .EditLimitOrder, .SetTpSl, .RemoveTpSl, .EarnAddLiquidity,
  .EarnRemoveLiquidity, .EarnStake, .EarnUnstake, .EarnClaimRewards]

def isTradingAction (action : ActionType) : Bool := TRADING_ACTIONS.contains action

/-- The last wallet, then the default, then the only one that is registered. -/
def restoreTarget (s : WalletSession) (files : Files) : Option String :=
  s.lastWallet.or <| (s.store.getDefault files.existsSync).or <|
    match s.store.listWallets with
    | [name] => some name
    | _ => none

def tryRestoreWalletSession (s : WalletSession) (files : Files) : Option WalletSession :=
  match s.restoreTarget files with
  | none => none
  | some target =>
    if target = "" ∨ !s.store.listWallets.contains target then none
    else
      match s.store.getWalletPath files.existsSync target with
      | .error _ => none
      | .ok walletPath =>
        match s.load files walletPath with
        | .error _ => none
        | .ok (s, address) => some (s.shows address target)

/-- Outside simulation a trade needs a key pair, which may be restored; `none` blocks. -/
def walletMiddleware (s : WalletSession) (files : Files) (simulationMode : Bool)
    (action : ActionType) : Option WalletSession :=
  if simulationMode || !isTradingAction action then some s
  else if s.walletManager.keypair.isSome then some s
  else s.tryRestoreWalletSession files

def readOnlyMiddleware (s : WalletSession) (simulationMode : Bool) (action : ActionType) :
    Option WalletSession :=
  if simulationMode || s.walletManager.keypair.isSome then some s
  else if s.walletManager.publicKey.isSome && isTradingAction action then none
  else some s

/-- The pipeline; the middleware that logs always passes. -/
def runMiddleware (s : WalletSession) (files : Files) (simulationMode : Bool)
    (action : ActionType) : Option WalletSession :=
  (s.walletMiddleware files simulationMode action).bind fun s =>
    s.readOnlyMiddleware simulationMode action

/-- With a key pair everything passes. -/
theorem runMiddleware_connected {s : WalletSession} (files : Files) (simulationMode : Bool)
    (action : ActionType) (h : s.walletManager.keypair.isSome = true) :
    s.runMiddleware files simulationMode action = some s := by
  have hwallet : s.walletMiddleware files simulationMode action = some s := by
    simp only [walletMiddleware, h, if_true, ite_self]
  rw [runMiddleware, hwallet]
  show s.readOnlyMiddleware simulationMode action = some s
  rw [readOnlyMiddleware, h, Bool.or_true, if_pos rfl]

/-! ## What a restoration loads -/

/-- The address of the key file that is registered under a name. -/
def addressOf (files : Files) (store : WalletStore) (name : String) : Option String :=
  match store.getWalletPath files.existsSync name with
  | .ok walletPath => (files.loadFromFile walletPath).toOption
  | .error _ => none

/-- The name that a restoration takes, and its address. -/
def recalled (s : WalletSession) (files : Files) : Option (String × String) :=
  match s.restoreTarget files with
  | none => none
  | some name =>
    if name = "" ∨ !s.store.listWallets.contains name then none
    else (addressOf files s.store name).map fun address => (name, address)

/-- The session with another wallet. -/
def restored (s : WalletSession) (name address : String) : WalletSession :=
  { s with
    walletManager := s.walletManager.loadFromFile (some address)
    walletAddress := address
    walletName := name }

theorem tryRestoreWalletSession_eq (s : WalletSession) (files : Files) :
    s.tryRestoreWalletSession files =
      (s.recalled files).map fun wallet => s.restored wallet.1 wallet.2 := by
  unfold tryRestoreWalletSession recalled addressOf
  cases s.restoreTarget files with
  | none => rfl
  | some name =>
    dsimp only
    split
    · rfl
    · cases s.store.getWalletPath files.existsSync name with
      | error _ => rfl
      | ok walletPath =>
        dsimp only [load]
        cases files.loadFromFile walletPath with
        | error _ => rfl
        | ok address => rfl

end WalletSession

end FlashEdge
