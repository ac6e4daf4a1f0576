import FlashEdge.Theory.Machine
import FlashEdge.Theory.OrderedMap

/-!
# The cache of accounts (`core/state-cache.ts`)

The accounts of the pools are fetched in batches every few seconds. A read is answered from
the cache while its entry is fresh, and otherwise from the network; where that fails, the
old entry is better than nothing. `stateCache` is the machine of the refresh and of any
number of reads that wait for their answers: single ones, and batched ones, which hold the
entries that were fresh when they were called.

The network answers a batch key by key, with an account or nothing. The pools are those of
the SDK, so they are a parameter, and so is the time at every step. There is no
subscription: the refresh is the only way in besides the reads.
-/

namespace FlashEdge

namespace StateCache

def STALENESS_THRESHOLD_MS : ℤ := 10000
def BATCH_SIZE : ℕ := 100
def MAX_DATA_LENGTH : ℕ := 10485760

def FLASH_PROGRAM : String := "FLASH6Lo6h3iasJKWDs2F8TkW2UKf3s15C8PMGuVfgBn"
def PYTH_PROGRAM : String := "FsJ3A3u2vn5cTVofAjvy6y5kwABJAqYWpe4975bi2epH"
def PYTH_RECEIVER : String := "rec5EKMGg6MxZYaMdyBfgwp4d5rB9T1VQH5pJv5LtFJ"

/-- An account, with the length of its data. -/
structure AccountInfo where
  owner : String
  dataLength : ℕ
  lamports : ℕ
deriving DecidableEq, Repr

structure CachedAccount extends AccountInfo where
  fetchedAt : ℤ
deriving DecidableEq, Repr

inductive Source where
  | custody
  | oracle
deriving DecidableEq, Repr

structure PoolCacheEntry where
  custodyKeys : List String
  oracleKeys : List String
deriving DecidableEq, Repr

/-- All keys with their sources, pool by pool. -/
def allKeys (pools : List PoolCacheEntry) : List (String × Source) :=
  pools.flatMap fun entry =>
    entry.custodyKeys.map (·, .custody) ++ entry.oracleKeys.map (·, .oracle)

/-- The key's source in the map that is filled in this order. -/
def source (pools : List PoolCacheEntry) (key : String) : Option Source :=
  (allKeys pools).reverse.lookup key

def uniqueKeys (pools : List PoolCacheEntry) : List String :=
  ((allKeys pools).map Prod.fst).eraseDups

def validateOwner (account : AccountInfo) : Option Source → Bool
  | none => true
  | some .custody => account.owner = FLASH_PROGRAM
  | some .oracle => account.owner = PYTH_PROGRAM || account.owner = PYTH_RECEIVER

def CachedAccount.fresh (cached : CachedAccount) (now : ℤ) : Bool :=
  decide (now - cached.fetchedAt < STALENESS_THRESHOLD_MS)

/-- A read that waits: a single one, with the entry it found; a batched one, with the
entries that were fresh. -/
inductive Pending where
  | account (key : String) (cached : Option CachedAccount)
  | accounts (slots : List (String × Option CachedAccount))
deriving DecidableEq, Repr

/-- A method is called; a batch of the refresh, or a read, is answered or fails. -/
inductive CacheAction where
  | refresh
  | batchAnswered (accounts : List (Option AccountInfo)) (now : ℤ)
  | batchFailed
  | getAccount (key : String) (now : ℤ)
  | accountAnswered (call : ℕ) (account : Option AccountInfo) (now : ℤ)
  | getAccounts (keys : List String) (now : ℤ)
  | accountsAnswered (call : ℕ) (accounts : List (Option AccountInfo)) (now : ℤ)
  | readFailed (call : ℕ)
  | shutdown
deriving DecidableEq, Repr

/-- A read returns this for a key. -/
inductive CacheEvent where
  | returned (key : String) (account : Option AccountInfo)
deriving DecidableEq, Repr

end StateCache

open StateCache

/-- `refreshing`: the keys from the batch on that the refresh waits for. -/
structure StateCache where
  accountCache : OrderedMap String CachedAccount := .empty
  refreshing : List String := []
  calls : ℕ := 0
  inFlight : OrderedMap ℕ Pending := .empty

namespace StateCache

def store (s : StateCache) (key : String) (account : AccountInfo) (now : ℤ) : StateCache :=
  { s with accountCache := s.accountCache.set key { account with fetchedAt := now } }

/-- A refresh that is on its way is not started again. -/
def refresh (pools : List PoolCacheEntry) (s : StateCache) : StateCache :=
  if s.refreshing = [] then { s with refreshing := uniqueKeys pools } else s

/-- An account of a batch: its owner is validated, then its size. -/
def storeRefreshed (pools : List PoolCacheEntry) (now : ℤ) (s : StateCache) :
    String × Option AccountInfo → StateCache
  | (_, none) => s
  | (key, some account) =>
    if !validateOwner account (source pools key) then s
    else if MAX_DATA_LENGTH < account.dataLength then s
    else s.store key account now

def batchAnswered (pools : List PoolCacheEntry) (s : StateCache)
    (accounts : List (Option AccountInfo)) (now : ℤ) : StateCache :=
  let stored := ((s.refreshing.take BATCH_SIZE).zip accounts).foldl (storeRefreshed pools now) s
  { stored with refreshing := s.refreshing.drop BATCH_SIZE }

def batchFailed (s : StateCache) : StateCache :=
  { s with refreshing := s.refreshing.drop BATCH_SIZE }

/-- From the cache while it is fresh, and otherwise from the network. -/
def getAccount (s : StateCache) (key : String) (now : ℤ) : StateCache × List CacheEvent :=
  let cached := s.accountCache.get? key
  match cached.filter (·.fresh now) with
  | some fresh => (s, [.returned key (some fresh.toAccountInfo)])
  | none =>
    ({ s with calls := s.calls + 1, inFlight := s.inFlight.set s.calls (.account key cached) }, [])

/-- Too large an account is not returned; the owner is not looked at. -/
def accountAnswered (s : StateCache) (key : String) (account : Option AccountInfo) (now : ℤ) :
    StateCache × List CacheEvent :=
  match account with
  | none => (s, [.returned key none])
  | some account =>
    if MAX_DATA_LENGTH < account.dataLength then (s, [.returned key none])
    else (s.store key account now, [.returned key (some account)])

def getAccounts (s : StateCache) (keys : List String) (now : ℤ) :
    StateCache × List CacheEvent :=
  let slots := keys.map fun key => (key, (s.accountCache.get? key).filter (·.fresh now))
  if slots.all fun slot => slot.2.isSome then
    (s, slots.map fun slot => .returned slot.1 (slot.2.map CachedAccount.toAccountInfo))
  else
    ({ s with calls := s.calls + 1, inFlight := s.inFlight.set s.calls (.accounts slots) }, [])

/-- The slots that were missing, with the accounts that were fetched for them. -/
def fetched : List (String × Option CachedAccount) → List (Option AccountInfo) →
    List (String × Option AccountInfo)
  | [], _ => []
  | (_, some _) :: slots, accounts => fetched slots accounts
  | (key, none) :: slots, [] => (key, none) :: fetched slots []
  | (key, none) :: slots, account :: accounts => (key, account) :: fetched slots accounts

/-- The results, in the order of the keys. -/
def fill : List (String × Option CachedAccount) → List (Option AccountInfo) →
    List (String × Option AccountInfo)
  | [], _ => []
  | (key, some cached) :: slots, accounts => (key, some cached.toAccountInfo) :: fill slots accounts
  | (key, none) :: slots, [] => (key, none) :: fill slots []
  | (key, none) :: slots, account :: accounts => (key, account) :: fill slots accounts

/-- An account that was fetched: too large a one is a result all the same. -/
def storeFetched (now : ℤ) (s : StateCache) : String × Option AccountInfo → StateCache
  | (_, none) => s
  | (key, some account) =>
    if MAX_DATA_LENGTH < account.dataLength then s else s.store key account now

def accountsAnswered (s : StateCache) (slots : List (String × Option CachedAccount))
    (accounts : List (Option AccountInfo)) (now : ℤ) : StateCache × List CacheEvent :=
  ((fetched slots accounts).foldl (storeFetched now) s,
    (fill slots accounts).map fun result => .returned result.1 result.2)

/-- A single read returns the entry it found, a batched one those that are there now. -/
def readFailed (s : StateCache) : Pending → List CacheEvent
  | .account key cached => [.returned key (cached.map CachedAccount.toAccountInfo)]
  | .accounts slots =>
    slots.map fun slot =>
      .returned slot.1 ((slot.2.or (s.accountCache.get? slot.1)).map CachedAccount.toAccountInfo)

def finish (s : StateCache) (call : ℕ) : StateCache :=
  { s with inFlight := s.inFlight.delete call }

def step (pools : List PoolCacheEntry) (s : StateCache) :
    CacheAction → Option (StateCache × List CacheEvent)
  | .refresh => some (s.refresh pools, [])
  | .batchAnswered accounts now =>
    if s.refreshing = [] then none else some (s.batchAnswered pools accounts now, [])
  | .batchFailed => if s.refreshing = [] then none else some (s.batchFailed, [])
  | .getAccount key now => some (s.getAccount key now)
  | .accountAnswered call account now =>
    match s.inFlight.get? call with
    | some (.account key _) => some ((s.finish call).accountAnswered key account now)
    | _ => none
  | .getAccounts keys now => some (s.getAccounts keys now)
  | .accountsAnswered call accounts now =>
    match s.inFlight.get? call with
    | some (.accounts slots) => some ((s.finish call).accountsAnswered slots accounts now)
    | _ => none
  | .readFailed call =>
    match s.inFlight.get? call with
    | some pending => some (s.finish call, s.readFailed pending)
    | none => none
  | .shutdown => some ({ s with accountCache := .empty }, [])

end StateCache

/-- A cache over these pools. -/
def stateCache (pools : List PoolCacheEntry) : Machine StateCache CacheAction CacheEvent where
  init := {}
  step := StateCache.step pools

end FlashEdge
