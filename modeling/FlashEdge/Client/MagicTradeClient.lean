import FlashEdge.Js
import FlashEdge.Security.SigningGuard
import FlashEdge.Theory.Machine
import FlashEdge.Theory.OrderedMap

/-!
# Trades of the Magic client (`client/magic-client.ts`)

The six operations that take the trade lock of a market-side. They share one
course: resolve the market, pass the signing guard, take the lock, look for a
recent signature of the same trade, and only then build and send a transaction;
`startTrade` is this course, and each operation is it with its own values.

`magicTradeClient` is the machine. A `call` runs up to its first wait, which is
after the look-up in the cache, so a call that finds a signature there is
answered in the same step. The other calls wait for the SDK and the rollup:
their transactions are submitted (twice at most, because of the stale-blockhash
retry), and they finish or fail, in any order and at any time. Calls are
numbered; the code does not keep these numbers.

The pool configuration is a parameter. What a quote says of prices and sizes is
left out, and so are the instructions the SDK builds.
-/

namespace FlashEdge

def MAX_ACTIVE_TRADES : ℕ := 32
def RECENT_TRADE_TTL_MS : ℚ := 60000

structure MagicCustody where
  custodyAccount : String
  symbol : String
  decimals : ℕ
deriving DecidableEq, Repr

structure MagicMarket where
  targetCustody : String
  collateralCustody : String
  side : TradeSide
deriving DecidableEq, Repr

/-- The pool configuration of the SDK, with its look-up of custodies. -/
structure MagicPool where
  poolName : String
  custodies : List MagicCustody
  markets : List MagicMarket
  getCustodyFromSymbol : String → Option MagicCustody

/-- What an operation throws. -/
inductive MagicError where
  | message (text : String)
  | refused (reason : SigningRefusal)
deriving DecidableEq, Repr

/-- An operation with the arguments it was called with, tokens in upper case
and defaulted. -/
inductive Operation where
  | openPosition (collateralSymbol : String) (collateralAmount leverage : ℚ)
  | closePosition (receivingSymbol : String) (closePercent closeAmount : Option ℚ)
  | addCollateral (amount : ℚ)
  | removeCollateral (amount : ℚ)
  | decreasePosition (receivingSymbol : String) (closeUsd : ℚ)
  | increasePosition (collateralSymbol : String) (addUsd addCollateralUsd : ℚ)
deriving DecidableEq, Repr

/-- The key of the signature cache. In the code it is the text of the operation,
the lock key and the numbers, joined by colons; such texts agree only when the
parts do. -/
inductive CacheKey where
  | «open» (lockKey : String) (collateralAmount leverage : ℚ)
  | close (lockKey : String)
  | add (lockKey : String) (amount : ℚ)
  | remove (lockKey : String) (amount : ℚ)
deriving DecidableEq, Repr

/-- A trade whose market is resolved. -/
structure Trade where
  targetSymbol : String
  side : TradeSide
  lockSymbol : String
  operation : Operation
deriving DecidableEq, Repr

namespace Trade

/-- The market and side a trade is about. -/
def position (t : Trade) : String × TradeSide := (t.targetSymbol, t.side)

/-- `MARKET:side`. -/
def lockKey (t : Trade) : String := t.targetSymbol ++ ":" ++ t.side.value

/-- The key under which the signature of a trade is kept; changes of the size
are not kept. -/
def cacheKey (t : Trade) : Option CacheKey :=
  match t.operation with
  | .openPosition _ collateralAmount leverage => some (.open t.lockKey collateralAmount leverage)
  | .closePosition _ _ _ => some (.close t.lockKey)
  | .addCollateral amount => some (.add t.lockKey amount)
  | .removeCollateral amount => some (.remove t.lockKey amount)
  | .decreasePosition _ _ => none
  | .increasePosition _ _ _ => none

end Trade

structure RecentTrade where
  sig : String
  ts : ℚ
deriving DecidableEq, Repr

/-- A call that waits, with the signatures of the transactions it has submitted,
the last one last. -/
structure PendingTrade where
  trade : Trade
  signatures : List String := []
deriving DecidableEq, Repr

/-- The client, the signing guard it asks, and the calls that wait. -/
structure MagicTradeClient where
  guard : SigningGuard := {}
  activeTrades : List String := []
  recentTrades : OrderedMap CacheKey RecentTrade := .empty
  pending : OrderedMap ℕ PendingTrade := .empty
  calls : ℕ := 0
deriving DecidableEq

namespace MagicTradeClient

/-! ## Locks and the signature cache -/

def acquireTradeLock (s : MagicTradeClient) (key : String) : Except MagicError MagicTradeClient :=
  if key ∈ s.activeTrades then
    .error (.message ("[magic-mode] trade already in progress for " ++ key))
  else if MAX_ACTIVE_TRADES ≤ s.activeTrades.length then
    .error (.message "[magic-mode] too many concurrent trades — wait for inflight to settle")
  else .ok { s with activeTrades := s.activeTrades ++ [key] }

def releaseTradeLock (s : MagicTradeClient) (key : String) : MagicTradeClient :=
  { s with activeTrades := s.activeTrades.filter (· ≠ key) }

/-- Drop the entries older than the time to live, and look a key up. -/
def checkRecentTrade (s : MagicTradeClient) (cacheKey : CacheKey) (now : ℚ) :
    MagicTradeClient × Option String :=
  let recentTrades := s.recentTrades.filter fun _ v => !decide (RECENT_TRADE_TTL_MS < now - v.ts)
  ({ s with recentTrades },
    match recentTrades.get? cacheKey with
    | some hit => if now - hit.ts < RECENT_TRADE_TTL_MS then some hit.sig else none
    | none => none)

def recordRecentTrade (s : MagicTradeClient) (cacheKey : CacheKey) (sig : String) (now : ℚ) :
    MagicTradeClient :=
  { s with recentTrades := s.recentTrades.set cacheKey { sig, ts := now } }

/-! ## The course of an operation up to its first wait -/

/-- The lock symbol of the first market of this target and side. -/
def resolveMarket (pool : MagicPool) (targetSymbol : String) (side : TradeSide) :
    Except MagicError String :=
  match pool.getCustodyFromSymbol targetSymbol with
  | none =>
    .error (.message ("[magic-mode] unknown market symbol '" ++ targetSymbol ++
      "'. Run `magic markets` to see available."))
  | some target =>
    let lockSymbol? := pool.markets.findSome? fun m =>
      if m.targetCustody = target.custodyAccount ∧ m.side = side then
        (pool.custodies.find? (·.custodyAccount = m.collateralCustody)).map MagicCustody.symbol
      else none
    match lockSymbol? with
    | none =>
      .error (.message ("[magic-mode] no market for " ++ targetSymbol ++ " " ++ side.value ++
        " in pool " ++ pool.poolName))
    | some lockSymbol => .ok lockSymbol

/-- `custody.decimals`, of a custody that may be undefined. -/
def custodyDecimals (pool : MagicPool) (symbol : String) : Except MagicError ℕ :=
  match pool.getCustodyFromSymbol symbol with
  | none => .error (.message "Cannot read properties of undefined (reading 'decimals')")
  | some custody => .ok custody.decimals

/-- What an operation checks before the rate limit: an open position asks for
its limits, added collateral needs the custody it is deposited in. -/
def precheck (pool : MagicPool) (guard : SigningGuard) : Operation → Except MagicError Unit
  | .openPosition _ collateralAmount leverage =>
    match guard.checkTradeLimits collateralAmount leverage (collateralAmount * leverage) with
    | .error reason => .error (.refused reason)
    | .ok () => .ok ()
  | .addCollateral _ => (custodyDecimals pool "USDC").map fun _ => ()
  | .increasePosition collateralSymbol _ _ =>
    (custodyDecimals pool collateralSymbol).map fun _ => ()
  | _ => .ok ()

/-- Everything before the `try`: the trade with its lock taken, or what is thrown.
A slot of the rate limit is taken even if the lock is not free. -/
def enter (pool : MagicPool) (s : MagicTradeClient) (market : String) (side : TradeSide)
    (operation : Operation) (now : ℚ) : MagicTradeClient × Except MagicError Trade :=
  let targetSymbol := toUpperCase market
  match resolveMarket pool targetSymbol side with
  | .error error => (s, .error error)
  | .ok lockSymbol =>
    match precheck pool s.guard operation with
    | .error error => (s, .error error)
    | .ok () =>
      -- the slot is reserved here, before the lock is known to be free
      let (guard, refusal) := s.guard.checkRateLimit now
      let s := { s with guard }
      match refusal with
      | some reason => (s, .error (.refused reason))
      | none =>
        let trade := { targetSymbol, side, lockSymbol, operation }
        match s.acquireTradeLock trade.lockKey with
        | .error error => (s, .error error)
        | .ok s => (s, .ok trade)

/-- The recent signature of a trade, if its kind is kept; an empty text counts
as none. -/
def cached (s : MagicTradeClient) (trade : Trade) (now : ℚ) : MagicTradeClient × Option String :=
  match trade.cacheKey with
  | none => (s, none)
  | some key =>
    let (s, sig) := s.checkRecentTrade key now
    (s, sig.filter (· ≠ ""))

/-- What an observer of the client sees. -/
inductive Event where
  | submitted (call : ℕ) (trade : Trade) (sig : String)
  | resolved (call : ℕ) (trade : Trade) (sig : String)
  | thrown (call : ℕ) (error : MagicError)
deriving DecidableEq, Repr

/-- The course of every operation: the call that is admitted is answered from
the cache, or begins to wait with its lock held. -/
def startTrade (pool : MagicPool) (s : MagicTradeClient) (market : String) (side : TradeSide)
    (operation : Operation) (now : ℚ) : MagicTradeClient × List Event :=
  let call := s.calls
  match enter pool { s with calls := s.calls + 1 } market side operation now with
  | (s, .error error) => (s, [.thrown call error])
  | (s, .ok trade) =>
    match s.cached trade now with
    -- answered from the cache: nothing is submitted
    | (s, some sig) => (s.releaseTradeLock trade.lockKey, [.resolved call trade sig])
    | (s, none) => ({ s with pending := s.pending.set call { trade } }, [])

/-! ## The operations -/

/-- `(token ?? 'USDC').toUpperCase()`. -/
def tokenOrUsdc (token : Option String) : String := toUpperCase (token.getD "USDC")

def openPosition (pool : MagicPool) (s : MagicTradeClient) (market : String) (side : TradeSide)
    (collateralAmount leverage : ℚ) (collateralToken : Option String) (now : ℚ) :
    MagicTradeClient × List Event :=
  startTrade pool s market side
    (.openPosition (tokenOrUsdc collateralToken) collateralAmount leverage) now

def closePosition (pool : MagicPool) (s : MagicTradeClient) (market : String) (side : TradeSide)
    (receiveToken : Option String) (closePercent closeAmount : Option ℚ) (now : ℚ) :
    MagicTradeClient × List Event :=
  startTrade pool s market side
    (.closePosition (tokenOrUsdc receiveToken) closePercent closeAmount) now

def addCollateral (pool : MagicPool) (s : MagicTradeClient) (market : String) (side : TradeSide)
    (amount now : ℚ) : MagicTradeClient × List Event :=
  startTrade pool s market side (.addCollateral amount) now

def removeCollateral (pool : MagicPool) (s : MagicTradeClient) (market : String)
    (side : TradeSide) (amount now : ℚ) : MagicTradeClient × List Event :=
  startTrade pool s market side (.removeCollateral amount) now

/-- A size change, which waits for the oracle price between resolving its market
and asking the guard; resolving reads nothing that changes. -/
def changeSize (pool : MagicPool) (s : MagicTradeClient) (market : String) (side : TradeSide)
    (operation : Operation) (purpose : String) (oraclePrice : JsNumber) (now : ℚ) :
    MagicTradeClient × List Event :=
  match resolveMarket pool (toUpperCase market) side, oraclePrice.finitePositive? with
  | .ok _, none =>
    ({ s with calls := s.calls + 1 },
      [.thrown s.calls (.message ("[magic-mode] could not fetch " ++ toUpperCase market ++
        " oracle for " ++ purpose))])
  | _, _ => startTrade pool s market side operation now

def decreasePosition (pool : MagicPool) (s : MagicTradeClient) (market : String)
    (side : TradeSide) (closeUsd : ℚ) (receiveToken : Option String) (oraclePrice : JsNumber)
    (now : ℚ) : MagicTradeClient × List Event :=
  changeSize pool s market side (.decreasePosition (tokenOrUsdc receiveToken) closeUsd)
    "partial close" oraclePrice now

def increasePosition (pool : MagicPool) (s : MagicTradeClient) (market : String)
    (side : TradeSide) (addUsd addCollateralUsd : ℚ) (collateralToken : Option String)
    (oraclePrice : JsNumber) (now : ℚ) : MagicTradeClient × List Event :=
  changeSize pool s market side
    (.increasePosition (tokenOrUsdc collateralToken) addUsd addCollateralUsd)
    "increase" oraclePrice now

/-! ## What happens to a call that waits -/

/-- `sendErIxs` submits a transaction: the first, or the one of its retry. -/
def submit (s : MagicTradeClient) (call : ℕ) (sig : String) :
    Option (MagicTradeClient × List Event) :=
  match s.pending.get? call with
  | none => none
  | some p =>
    -- one retry at most
    if 2 ≤ p.signatures.length then none
    else
      some ({ s with pending := s.pending.set call { p with signatures := p.signatures ++ [sig] } },
        [.submitted call p.trade sig])

/-- `sendErIxs` has returned: record the signature, and resolve with it. -/
def finish (s : MagicTradeClient) (call : ℕ) (now : ℚ) : Option (MagicTradeClient × List Event) :=
  match s.pending.get? call with
  | none => none
  | some p =>
    -- after a retry the later signature is the one returned
    p.signatures.getLast?.map fun sig =>
      let s := match p.trade.cacheKey with
        | some key => s.recordRecentTrade key sig now
        | none => s
      let s := { s with guard := s.guard.recordSigning now, pending := s.pending.delete call }
      (s.releaseTradeLock p.trade.lockKey, [.resolved call p.trade sig])

/-- The SDK, the whitelist or the rollup throws. -/
def fail (s : MagicTradeClient) (call : ℕ) (message : String) :
    Option (MagicTradeClient × List Event) :=
  (s.pending.get? call).map fun p =>
    (({ s with pending := s.pending.delete call } : MagicTradeClient).releaseTradeLock
      p.trade.lockKey, [.thrown call (.message message)])

/-- A call with its arguments; a size change comes with the oracle's answer. -/
inductive Call where
  | openPosition (market : String) (side : TradeSide) (collateralAmount leverage : ℚ)
      (collateralToken : Option String)
  | closePosition (market : String) (side : TradeSide) (receiveToken : Option String)
      (closePercent closeAmount : Option ℚ)
  | addCollateral (market : String) (side : TradeSide) (amount : ℚ)
  | removeCollateral (market : String) (side : TradeSide) (amount : ℚ)
  | decreasePosition (market : String) (side : TradeSide) (closeUsd : ℚ)
      (receiveToken : Option String) (oraclePrice : JsNumber)
  | increasePosition (market : String) (side : TradeSide) (addUsd addCollateralUsd : ℚ)
      (collateralToken : Option String) (oraclePrice : JsNumber)

inductive Action where
  | call (c : Call) (now : ℚ)
  | submit (call : ℕ) (sig : String)
  | finish (call : ℕ) (now : ℚ)
  | fail (call : ℕ) (message : String)

def perform (pool : MagicPool) (s : MagicTradeClient) (now : ℚ) :
    Call → MagicTradeClient × List Event
  | .openPosition market side collateralAmount leverage collateralToken =>
    openPosition pool s market side collateralAmount leverage collateralToken now
  | .closePosition market side receiveToken closePercent closeAmount =>
    closePosition pool s market side receiveToken closePercent closeAmount now
  | .addCollateral market side amount => addCollateral pool s market side amount now
  | .removeCollateral market side amount => removeCollateral pool s market side amount now
  | .decreasePosition market side closeUsd receiveToken oraclePrice =>
    decreasePosition pool s market side closeUsd receiveToken oraclePrice now
  | .increasePosition market side addUsd addCollateralUsd collateralToken oraclePrice =>
    increasePosition pool s market side addUsd addCollateralUsd collateralToken oraclePrice now

def step (pool : MagicPool) (s : MagicTradeClient) :
    Action → Option (MagicTradeClient × List Event)
  | .call c now => some (perform pool s now c)
  | .submit call sig => s.submit call sig
  | .finish call now => s.finish call now
  | .fail call message => s.fail call message

end MagicTradeClient

/-- The client of a pool, with a signing guard of some configuration. -/
def magicTradeClient (pool : MagicPool) (config : SigningGuardConfig) :
    Machine MagicTradeClient MagicTradeClient.Action MagicTradeClient.Event where
  init := { guard := { config } }
  step := MagicTradeClient.step pool

end FlashEdge
