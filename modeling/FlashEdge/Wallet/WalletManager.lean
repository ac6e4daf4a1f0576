import FlashEdge.Theory.Machine
import FlashEdge.Theory.OrderedMap
import Mathlib.Data.Rat.Defs

/-!
# The wallet manager and its balances (`wallet/walletManager.ts`)

One manager holds the connection, the key that is connected, and one cached answer of
`getTokenBalances`. A call that is not answered from the cache asks the network, once more
if that fails, and every attempt reads the key and the connection again. Then the symbols
of unknown tokens are looked up, the cache is written, and the call returns.

`walletManager` is the machine of everything that can happen between two awaits. Calls are
numbered. Balances carry the key they were asked for (`Fetched`), and `clears` counts the
calls of `setConnection` and `clearBalanceCache`, so that it dates what happens in between.
-/

namespace FlashEdge

namespace WalletManager

def maxAttempts : ℕ := 2
def TOKEN_CACHE_TTL : ℚ := 30000
def LAMPORTS_PER_SOL : ℚ := 1000000000

def KNOWN_MINTS : List (String × String) := [
  ("EPjFWdd5AufqSSqeM2qN1xzybapC8G4wEGGkZwyTDt1v", "USDC"),
  ("Es9vMFrzaCERmJfrF4H2FYD4KCoNkY11McCe8BenwNYB", "USDT"),
  ("So11111111111111111111111111111111111111112", "WSOL"),
  ("JUPyiwrYJFskUPiHa7hkeR8VUtAeFoSYbKedZNsDvCN", "JUP"),
  ("HZ1JovNiVvGrGNiiYvEozEVgZ58xaU3RKwX8eACQBCt3", "PYTH"),
  ("jtojtomepa8beP8AuQc6eXt5FriJwfFMwQx2v2f9mCL", "JTO"),
  ("4k3Dyjzvzp8eMZWUXbBCjEvwSkkk59S5iCNLY3QrkX6R", "RAY"),
  ("DezXAZ8z7PnrnRJjz3wXBoRgixCa6xjnB7YaB1pPB263", "BONK"),
  ("EKpQGSJtjMFqKZ9KQanSqYXRcF8fBopzLHYxdM65zcjm", "WIF"),
  ("BZLbGTNCSFfoth2GYDtwr7e4imWzpR5jqcUuGEwr646K", "ORE"),
  ("FAFxVxnkzZHMCodkWyoccgUNgVScqMw2mhhQBYDFjFAF", "FAF"),
  ("KMNo3nJsBXfcpJTVhZcXLW7RmTwTt4GVFE7suUBo9sS", "KMNO"),
  ("98sMhvDwXj1RQi5c5Mndm3vPe9cBqPrbLaufMXFNMh5g", "HYPE"),
  ("2wMe8SNFQo768SvTCCxJcpYhKZrawHYVmCHbBhFGKCoJ", "MET"),
  ("27G8MtK7VtTcCHkpASjSDdkWWYfoqT6ggEuKidVJidD4", "JLP"),
  ("mSoLzYCxHdYgdzU16g5QSh3i5K3z3KZK7ytfqcJm7So", "mSOL"),
  ("J1toso1uCk3RLmjorhTtrVwY9HJ7X8V9yYac6Y7kGCPn", "JitoSOL"),
  ("bSo13r4TkiE4KumL71LsHTPpL2euBYLFx6h9HP3piy1", "bSOL"),
  ("7vfCXTUXx5WJV5JADk17DUJ4ksgau7utNKj4b963voxs", "ETH"),
  ("3NZ9JMVBmGAqocybic2c7LQCJScmgsAZ6vQqTDzcqmJh", "WBTC"),
  ("PENGUdRFKyGbMx6s3KcAMR7G4k26hAciRmvMKsKKBuv", "PENGU"),
  ("A8C3xuqscfmyLrte3VVY3lGbmkyYZbQ5Lg3JgLJPump", "PUMP"),
  ("FARTCuNRGY2rjZjGbGqJWbVBiL4CZUEVBq6xtJwMWYF", "FARTCOIN"),
  ("orcaEKTdK7LKz57vaAYr9QeNsVEPfiu6QeMU1kektZE", "ORCA"),
  ("rndrizKT3MK1iimdxRdWabcF7Zg7AR5T4nud4EkHBof", "RNDR"),
  ("TNSRxcUxoT9xBG3de7PiJyTDYu7kskLqcpddxnEJAS6", "TNSR"),
  ("7dHbWXmci3dT8UFYWYZweBLXgycu7Y3iL6trKn1Y7ARj", "stSOL"),
  ("HeLp6NuQkmYB4pYWo2zYs22mESHXPQYzXbB8n4V98jwC", "AI16Z"),
  ("NUZ3oov2tMkRBMjUvZuy8FMo4ZTQ7SgFLSfP8Rjpump", "FLP")]

structure Token where
  symbol : String
  mint : String
  amount : ℚ
deriving DecidableEq, Repr

structure TokenBalances where
  sol : ℚ
  tokens : List Token
deriving DecidableEq, Repr

/-- The parsed `info` of a token account. -/
structure TokenInfo where
  mint : String
  uiAmount : Option ℚ
deriving DecidableEq, Repr

/-- What the three requests of an attempt give; an account may have no parsed `info`. -/
structure Answer where
  solBalance : ℕ
  tokenAccounts : List (Option TokenInfo) := []
  token2022Accounts : List (Option TokenInfo) := []
deriving DecidableEq, Repr

/-- The loop over the accounts. `metadata` is what the lookups of the unknown mints give,
in their order: a symbol, or nothing. -/
def readTokens : List (Option TokenInfo) → List (Option String) → List Token
  | [], _ => []
  | none :: accounts, metadata => readTokens accounts metadata
  | some info :: accounts, metadata =>
    let uiAmount := info.uiAmount.getD 0
    if uiAmount = 0 then readTokens accounts metadata
    else
      match KNOWN_MINTS.lookup info.mint with
      | some symbol => ⟨symbol, info.mint, uiAmount⟩ :: readTokens accounts metadata
      | none =>
        let symbol := metadata.head?.join.getD "UNKNOWN"
        ⟨symbol, info.mint, uiAmount⟩ :: readTokens accounts metadata.tail

def readBalances (answer : Answer) (metadata : List (Option String)) : TokenBalances where
  sol := answer.solBalance / LAMPORTS_PER_SOL
  tokens := readTokens (answer.tokenAccounts ++ answer.token2022Accounts) metadata

/-- The key that was connected when `getTokenBalances` was called, and when that was. -/
structure Caller where
  address : String
  clears : ℕ
deriving DecidableEq, Repr

/-- Balances, the key and the connection of the attempt that gave them, and when that
attempt and the call that made it began. -/
structure Fetched where
  address : String
  connection : ℕ
  clearsAtAttempt : ℕ
  clearsAtCall : ℕ
  balances : TokenBalances
deriving DecidableEq, Repr

/-- `stored` says when the cache was written. -/
structure Cached where
  data : Fetched
  expiry : ℚ
  stored : ℕ
deriving DecidableEq, Repr

/-- What a call waits for: an attempt, with the key and the connection it read and when;
the delay after one that failed; or the symbols. -/
inductive Phase where
  | asking (attempt : ℕ) (publicKey : Option String) (connection clears : ℕ)
  | waiting (attempt : ℕ)
  | naming (address : String) (connection clears : ℕ) (answer : Answer)
deriving DecidableEq, Repr

structure Call where
  caller : Caller
  phase : Phase
deriving DecidableEq, Repr

/-- A method is called, with what it finds: the key in the file, or the key that the
address is, if it is one. A timer fires. An attempt fails, with what the retry budget
says; the delay is over; an attempt is answered; the lookups have ended. -/
inductive WalletAction where
  | loadFromFile (loaded : Option String)
  | connectAddress (parsed : Option String)
  | disconnect
  | resetIdleTimer
  | sessionTimedOut
  | setConnection (connection : ℕ)
  | clearBalanceCache
  | getTokenBalances (now : ℚ)
  | attemptFailed (call : ℕ) (budget : Bool)
  | retries (call : ℕ)
  | attemptAnswered (call : ℕ) (answer : Answer)
  | finished (call : ℕ) (now : ℚ) (metadata : List (Option String))
deriving DecidableEq, Repr

/-- A call returns balances, or throws. -/
inductive WalletEvent where
  | returned (caller : Caller) (data : Fetched)
  | threw
deriving DecidableEq, Repr

end WalletManager

open WalletManager

structure WalletManager where
  connection : ℕ := 0
  keypair : Option String := none
  publicKey : Option String := none
  tokenBalancesCache : Option Cached := none
  idleTimer : Bool := false
  clears : ℕ := 0
  calls : ℕ := 0
  inFlight : OrderedMap ℕ Call := .empty

namespace WalletManager

def resetIdleTimer (s : WalletManager) : WalletManager :=
  { s with idleTimer := s.keypair.isSome }

def disconnect (s : WalletManager) : WalletManager :=
  { s with keypair := none, publicKey := none, tokenBalancesCache := none, idleTimer := false }

/-- The timer of a wallet that can sign disconnects it. -/
def sessionTimedOut (s : WalletManager) : Option (WalletManager × List WalletEvent) :=
  if s.idleTimer then
    some (if s.keypair.isSome then s.disconnect else { s with idleTimer := false }, [])
  else none

/-- A file that is not a keypair throws. -/
def loadFromFile (s : WalletManager) : Option String → WalletManager
  | some address => { s with keypair := some address, publicKey := some address }.resetIdleTimer
  | none => s

/-- An address that is not a wallet throws. -/
def connectAddress (s : WalletManager) : Option String → WalletManager
  | some address => { s with publicKey := some address, keypair := none }
  | none => s

def setConnection (s : WalletManager) (connection : ℕ) : WalletManager :=
  { s with connection, tokenBalancesCache := none, clears := s.clears + 1 }

def clearBalanceCache (s : WalletManager) : WalletManager :=
  { s with tokenBalancesCache := none, clears := s.clears + 1 }

/-- The cached answer, if it has not expired. -/
def unexpired (s : WalletManager) (now : ℚ) : Option Cached :=
  s.tokenBalancesCache.filter fun cached => decide (now < cached.expiry)

/-- The requests of an attempt are sent. -/
def ask (s : WalletManager) (attempt : ℕ) : Phase :=
  .asking attempt s.publicKey s.connection s.clears

/-- `getTokenBalances` up to its first await. -/
def getTokenBalances (s : WalletManager) (now : ℚ) : WalletManager × List WalletEvent :=
  match s.publicKey with
  | none => (s, [.threw])
  | some address =>
    let caller := ⟨address, s.clears⟩
    match s.unexpired now with
    | some cached => (s, [.returned caller cached.data])
    | none =>
      ({ s with calls := s.calls + 1, inFlight := s.inFlight.set s.calls ⟨caller, s.ask 1⟩ }, [])

/-- An attempt fails: another one follows a delay, or the call throws. -/
def attemptFailed (s : WalletManager) (call : ℕ) (budget : Bool) :
    Option (WalletManager × List WalletEvent) :=
  match s.inFlight.get? call with
  | some ⟨caller, .asking attempt _ _ _⟩ =>
    if attempt < maxAttempts ∧ budget = true then
      some ({ s with inFlight := s.inFlight.set call ⟨caller, .waiting attempt⟩ }, [])
    else some ({ s with inFlight := s.inFlight.delete call }, [.threw])
  | _ => none

def retries (s : WalletManager) (call : ℕ) : Option (WalletManager × List WalletEvent) :=
  match s.inFlight.get? call with
  | some ⟨caller, .waiting attempt⟩ =>
    some ({ s with inFlight := s.inFlight.set call ⟨caller, s.ask (attempt + 1)⟩ }, [])
  | _ => none

/-- The requests are answered. Those for no key are not. -/
def attemptAnswered (s : WalletManager) (call : ℕ) (answer : Answer) :
    Option (WalletManager × List WalletEvent) :=
  match s.inFlight.get? call with
  | some ⟨caller, .asking _ (some address) connection clears⟩ =>
    let phase := .naming address connection clears answer
    some ({ s with inFlight := s.inFlight.set call ⟨caller, phase⟩ }, [])
  | _ => none

/-- The cache is written, whatever has happened since. -/
def finished (s : WalletManager) (call : ℕ) (now : ℚ) (metadata : List (Option String)) :
    Option (WalletManager × List WalletEvent) :=
  match s.inFlight.get? call with
  | some ⟨caller, .naming address connection clears answer⟩ =>
    let data : Fetched := ⟨address, connection, clears, caller.clears, readBalances answer metadata⟩
    some ({ s with
        tokenBalancesCache := some ⟨data, now + TOKEN_CACHE_TTL, s.clears⟩
        inFlight := s.inFlight.delete call }, [.returned caller data])
  | _ => none

def step (s : WalletManager) : WalletAction → Option (WalletManager × List WalletEvent)
  | .loadFromFile loaded => some (s.loadFromFile loaded, [])
  | .connectAddress parsed => some (s.connectAddress parsed, [])
  | .disconnect => some (s.disconnect, [])
  | .resetIdleTimer => some (s.resetIdleTimer, [])
  | .sessionTimedOut => s.sessionTimedOut
  | .setConnection connection => some (s.setConnection connection, [])
  | .clearBalanceCache => some (s.clearBalanceCache, [])
  | .getTokenBalances now => some (s.getTokenBalances now)
  | .attemptFailed call budget => s.attemptFailed call budget
  | .retries call => s.retries call
  | .attemptAnswered call answer => s.attemptAnswered call answer
  | .finished call now metadata => s.finished call now metadata

end WalletManager

/-- A wallet manager, with any interleaving of its callers. -/
def walletManager : Machine WalletManager WalletAction WalletEvent where
  init := {}
  step := WalletManager.step

end FlashEdge
