import FlashEdge.Js
import FlashEdge.Theory.Machine

/-!
# The registry of wallets (`wallet/wallet-store.ts`)

A wallet is registered under a name, with the path of its key file and its address. Names
are kept as they are written; a look-up takes an exact match, and otherwise the first that
agrees up to case.

The file system is a parameter: what the validation of a path and the reading of a key
file give, and which files exist.
-/

namespace FlashEdge

namespace WalletStore

structure WalletEntry where
  name : String
  path : String
  address : String
deriving DecidableEq, Repr

end WalletStore

open WalletStore

/-- `WalletRegistry`: what is stored in `wallets.json`. -/
structure WalletStore where
  wallets : List WalletEntry := []
  defaultWallet : Option String := none
deriving DecidableEq, Repr

namespace WalletStore

/-- `[a-zA-Z0-9_-]`. -/
def isNameChar (c : Char) : Bool := c.isAlphanum || c = '_' || c = '-'

/-- Other characters are dropped. -/
def sanitizeName (name : String) : Except String String :=
  let clean := String.ofList (name.toList.filter isNameChar)
  if clean = "" ∨ 64 < clean.length then
    .error "Wallet name must be 1-64 alphanumeric/hyphen/underscore characters"
  else .ok clean

/-- `realPath` is what `validateWalletPath` gives, and `address` what the key file gives. -/
def registerWallet (s : WalletStore) (name : String) (realPath address : Except String String) :
    Except String (WalletStore × String × String) := do
  let safeName ← sanitizeName name
  let realPath ← realPath
  if s.wallets.any fun w => w.name = safeName then
    .error ("Wallet \"" ++ safeName ++
      "\" already exists. Use a different name or remove it first.")
  else
    let address ← address
    .ok ({ s with wallets := s.wallets ++ [{ name := safeName, path := realPath, address }] },
      address, realPath)

/-- Exact match first, then the first match up to case. -/
def findEntry (wallets : List WalletEntry) (safeName : String) : Option WalletEntry :=
  (wallets.find? fun w => w.name = safeName).or
    (wallets.find? fun w => toLowerCase w.name = toLowerCase safeName)

def getWalletPath (s : WalletStore) (existsSync : String → Bool) (name : String) :
    Except String String := do
  let safeName ← sanitizeName name
  match findEntry s.wallets safeName with
  | none => .error ("Wallet \"" ++ safeName ++
      "\" not found. Use \"wallet list\" to see registered wallets.")
  | some entry =>
    if existsSync entry.path then .ok entry.path
    else .error ("Wallet file no longer exists at: " ++ entry.path ++
      "\n  Re-register with: wallet import " ++ safeName ++ " <new-path>")

def setDefault (s : WalletStore) (existsSync : String → Bool) (name : String) :
    Except String WalletStore := do
  let safeName ← sanitizeName name
  let _ ← s.getWalletPath existsSync safeName
  .ok { s with defaultWallet := some safeName }

def clearDefault (s : WalletStore) : WalletStore := { s with defaultWallet := none }

def getDefault (s : WalletStore) (existsSync : String → Bool) : Option String :=
  match s.defaultWallet with
  | none => none
  | some name =>
    match s.getWalletPath existsSync name with
    | .ok _ => some name
    | .error _ => none

/-- In the order of registration; the source sorts them, on which no caller depends. -/
def listWallets (s : WalletStore) : List String := s.wallets.map WalletEntry.name

def hasWallet (s : WalletStore) (name : String) : Bool :=
  match sanitizeName name with
  | .ok safeName =>
    s.wallets.any fun w =>
      w.name = safeName || toLowerCase w.name = toLowerCase safeName
  | .error _ => false

/-- Only the exact name is removed. -/
def removeWallet (s : WalletStore) (name : String) : Except String WalletStore := do
  let safeName ← sanitizeName name
  if s.wallets.any fun w => w.name = safeName then
    .ok {
      wallets := s.wallets.eraseP fun w => w.name = safeName
      defaultWallet := if s.defaultWallet = some safeName then none else s.defaultWallet }
  else .error ("Wallet \"" ++ safeName ++ "\" not found.")

/-! ## The machine -/

inductive StoreCall where
  | registerWallet (name : String) (realPath address : Except String String)
  | setDefault (existsSync : String → Bool) (name : String)
  | clearDefault
  | removeWallet (name : String)

/-- A default was set, with the entry that its name was resolved to, or a call failed. -/
inductive StoreEvent where
  | defaultSet (entry : Option WalletEntry)
  | failed (message : String)
deriving DecidableEq, Repr

/-- A call that fails leaves the registry as it is. -/
def call (s : WalletStore) : StoreCall → WalletStore × List StoreEvent
  | .registerWallet name realPath address =>
    match s.registerWallet name realPath address with
    | .ok (s', _) => (s', [])
    | .error message => (s, [.failed message])
  | .setDefault existsSync name =>
    match s.setDefault existsSync name with
    | .ok s' => (s', [.defaultSet (s'.defaultWallet.bind (findEntry s.wallets))])
    | .error message => (s, [.failed message])
  | .clearDefault => (s.clearDefault, [])
  | .removeWallet name =>
    match s.removeWallet name with
    | .ok s' => (s', [])
    | .error message => (s, [.failed message])

end WalletStore

/-- A store, call after call. -/
def walletStore : Machine WalletStore StoreCall StoreEvent where
  init := {}
  step s a := some (s.call a)

end FlashEdge
