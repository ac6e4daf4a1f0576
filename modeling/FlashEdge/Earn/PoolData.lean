import FlashEdge.JsNumberText
import FlashEdge.Theory.Decimal
import FlashEdge.Theory.Machine
import FlashEdge.Theory.OrderedMap

/-!
# Pool metrics (`earn/pool-data.ts`, `earn/pool-registry.ts`, `data/flash-api.ts`)

The metrics of the registry's pools come from the trading API first, through an adapter to its
old format and a map keyed by the symbol of the LP token; a pool that is not in the map gets its
price from fstats and its value from the token supplies on chain. The adapter leaves the symbol
empty, so nothing gets into the map.

- `getPoolMetrics`: the metrics from what the services answer.
- `poolData`: the cache in front of it, as a machine.
- `fetchOfficialEarnData_eq_none`: no answer of the API gives official data.
- `alwaysOfficial_iff`: the runs in which the pools of the API's answer are reported with its
  figures are those where the fallbacks have the same figures.
-/

namespace FlashEdge

namespace PoolData

open NumberText

/-! ## The registry -/

structure PoolDef where
  poolId : String
  feeShare : ℚ

def POOL_DEFS : List PoolDef :=
  [⟨"Crypto.1", 7 / 10⟩, ⟨"Virtual.1", 7 / 10⟩, ⟨"Governance.1", 7 / 10⟩, ⟨"Community.1", 8 / 10⟩,
    ⟨"Community.2", 8 / 10⟩, ⟨"Ore.1", 9 / 10⟩, ⟨"Trump.1", 8 / 10⟩]

/-- What the SDK knows of a pool. -/
structure PoolConfig where
  compoundingLpTokenSymbol : String
  compoundingTokenMint : String
  stakedLpTokenMint : String

structure PoolInfo where
  poolId : String
  flpSymbol : String
  flpMint : String
  sflpMint : String
  feeShare : ℚ

/-- The pools that the SDK can load. -/
def getPoolRegistry (fromIdsByName : String → Option PoolConfig) : List PoolInfo :=
  POOL_DEFS.filterMap fun d =>
    (fromIdsByName d.poolId).map fun pc =>
      { poolId := d.poolId
        flpSymbol := if pc.compoundingLpTokenSymbol = "" then "FLP" else pc.compoundingLpTokenSymbol
        flpMint := pc.compoundingTokenMint
        sflpMint := pc.stakedLpTokenMint
        feeShare := d.feeShare }

/-! ## The trading API -/

structure FlashApiLpStats where
  lpPrice : Option String
  totalPoolValueUsd : Option String

structure FlashApiPoolDataEntry where
  poolAddress : String
  poolName : String
  lpStats : Option FlashApiLpStats

/-- What `GET /pool-data` answers: nothing, a list, or an object with one. -/
inductive PoolDataResponse where
  | nothing
  | array (entries : List FlashApiPoolDataEntry)
  | object (pools : Option (List FlashApiPoolDataEntry))

def getPoolData : PoolDataResponse → Option (List FlashApiPoolDataEntry)
  | .nothing => none
  | .array entries => some entries
  | .object pools => pools

/-- A pool in the old format. `FlashEarnPool` of the metrics has the same fields. -/
structure FlashApiPoolData where
  poolAddress : String
  aum : String
  flpPrice : String
  sFlpPrice : String
  flpDailyApy : Option JsNumber
  flpWeeklyApy : Option JsNumber
  sflpDailyApr : Option JsNumber
  sflpWeeklyApr : Option JsNumber
  flpTokenSymbol : String
  sflpTokenSymbol : String

def legacyEntry (e : FlashApiPoolDataEntry) : FlashApiPoolData where
  poolAddress := e.poolAddress
  aum := (e.lpStats.bind FlashApiLpStats.totalPoolValueUsd).getD "0"
  flpPrice := (e.lpStats.bind FlashApiLpStats.lpPrice).getD "0"
  sFlpPrice := "0"
  flpDailyApy := none
  flpWeeklyApy := none
  sflpDailyApr := none
  sflpWeeklyApr := none
  flpTokenSymbol := ""
  sflpTokenSymbol := ""

def getPoolDataLegacy (response : PoolDataResponse) : Option (List FlashApiPoolData) :=
  (getPoolData response).map (List.map legacyEntry)

/-- A pool goes into the map under the symbol of its LP token, if it has one. -/
def addEarnPool (map : OrderedMap String FlashApiPoolData) (p : FlashApiPoolData) :
    OrderedMap String FlashApiPoolData :=
  if p.flpTokenSymbol = "" then map else map.set p.flpTokenSymbol p

def fetchOfficialEarnData (response : PoolDataResponse) :
    Option (OrderedMap String FlashApiPoolData) :=
  match getPoolDataLegacy response with
  | none => none
  | some apiPools =>
    let map := apiPools.foldl addEarnPool .empty
    if 0 < apiPools.length ∧ 0 < map.size then some map else none

/-! ## The other services -/

/-- A pool in the answer of `/pools` of fstats. -/
structure FstatsPool where
  name : Option String
  lpPriceCompounding : Option JsNumber
  lpPriceRegular : Option JsNumber
  totalVolumeUsd : Option JsNumber
  totalFeesUsd : Option JsNumber
  totalTrades : Option JsNumber
  feeSplitLp : Option JsNumber

structure FstatsData where
  flp : JsNumber
  sflp : JsNumber
  vol : JsNumber
  fees : JsNumber
  trades : JsNumber
  lpShare : JsNumber

def fstatsData (p : FstatsPool) : FstatsData where
  flp := p.lpPriceCompounding.getD 0
  sflp := p.lpPriceRegular.getD 0
  vol := p.totalVolumeUsd.getD 0
  fees := p.totalFeesUsd.getD 0
  trades := p.totalTrades.getD 0
  lpShare := p.feeSplitLp.getD (.finite 70)

/-- Pools without a name and those of Remora are left out. -/
def addFstatsPool (poolPrices : OrderedMap String FstatsData) (p : FstatsPool) :
    OrderedMap String FstatsData :=
  let name := p.name.getD ""
  if name = "" ∨ "Remora".toList <+: name.toList then poolPrices
  else poolPrices.set name (fstatsData p)

/-- What the services answer: a service or a request that fails answers nothing. The supply of a
token is asked for where there is a connection. -/
structure Sources where
  poolData : PoolDataResponse
  fstatsPools : Option (List FstatsPool)
  tokenSupply : Option (String → Option JsNumber)
  feesDaily : Option (List (Option JsNumber))
  volumeDaily : String → Option (List (Option JsNumber))

def fetchFstatsPoolData (s : Sources) : OrderedMap String FstatsData :=
  (s.fstatsPools.getD []).foldl addFstatsPool .empty

/-- `sum + (d ?? 0)` over the days. -/
def sumOfDays (days : List (Option JsNumber)) : JsNumber :=
  days.foldl (fun sum d => sum + d.getD 0) 0

/-- `x <= 0`. -/
def atMostZero (x : JsNumber) : Bool := !x.gt 0 && x ≠ .nan

/-! ## The fallbacks -/

/-- The value of a pool by the token supplies, where fstats has a price. -/
def supplyTvl (tokenSupply : String → Option JsNumber) (fstats : OrderedMap String FstatsData)
    (pool : PoolInfo) : Option JsNumber :=
  let flpPrice := ((fstats.get? pool.poolId).map FstatsData.flp).getD 0
  let sflpPrice := ((fstats.get? pool.poolId).map FstatsData.sflp).getD 0
  if atMostZero flpPrice then none
  else
    let flpSupply := (tokenSupply pool.flpMint).getD 0
    let sflpSupply := (tokenSupply pool.sflpMint).getD 0
    some (flpSupply * flpPrice + sflpSupply * sflpPrice)

/-- A record with what there is for each pool. -/
def byPool (registry : List PoolInfo) (value : PoolInfo → Option JsNumber) :
    OrderedMap String JsNumber :=
  (registry.filterMap fun pool => (value pool).map fun v => (pool.poolId, v)).foldl
    (fun m e => m.set e.1 e.2) .empty

def MAX_APY : ℚ := 1000

/-- The fees of the week go to the pools by volume and fee rate. -/
def computeFallbackApy (registry : List PoolInfo) (poolPrices : OrderedMap String FstatsData)
    (tvlByPool : OrderedMap String JsNumber) (s : Sources) : OrderedMap String JsNumber :=
  let protocolWeeklyLpFees := sumOfDays (s.feesDaily.getD [])
  if protocolWeeklyLpFees.gt 0 then
    let poolVolumes := byPool registry fun pool =>
      ((s.volumeDaily pool.poolId).map sumOfDays).filter fun vol => vol.gt 0
    let totalWeeklyVolume := (poolVolumes.entries.map Prod.snd).sum
    if totalWeeklyVolume.gt 0 then
      let weights := byPool registry fun pool =>
        let vol := (poolVolumes.get? pool.poolId).getD 0
        let prices := poolPrices.get? pool.poolId
        let feeRate :=
          match prices with
          | some p => if p.vol.gt 0 ∧ p.fees.gt 0 then p.fees.div p.vol else .finite (7 / 10000)
          | none => .finite (7 / 10000)
        if atMostZero vol then none else some (vol * feeRate)
      let totalWeight := (weights.entries.map Prod.snd).sum
      byPool registry fun pool =>
        let w := (weights.get? pool.poolId).getD 0
        let weeklyFees := protocolWeeklyLpFees * w.div totalWeight
        let tvl := (tvlByPool.get? pool.poolId).getD 0
        if w.gt 0 ∧ totalWeight.gt 0 ∧ tvl.gt 0 then
          some ((weeklyFees.div tvl * .finite 52 * .finite 100).min (.finite MAX_APY))
        else none
    else .empty
  else .empty

/-! ## The metrics -/

structure PoolMetrics where
  poolId : String
  tvl : JsNumber
  apy7d : JsNumber
  apr7d : JsNumber
  flpPrice : JsNumber
  sflpPrice : JsNumber
  totalVolume : JsNumber
  totalFees : JsNumber
  totalTrades : JsNumber
  feeShareLp : JsNumber
  weeklyLpFees : JsNumber
  flpDailyApy : JsNumber
  sflpDailyApr : JsNumber
  sflpWeeklyApr : JsNumber

/-- `parseFloat(text) || 0`. -/
def parsedOrZero (text : String) : JsNumber :=
  let x := value (parseFloat text.toList)
  if x = .nan then 0 else x

/-- `Number.isFinite(x) ? x : 0`, for a number that may be missing. -/
def presentOrZero (x : Option JsNumber) : JsNumber := .finite (x.getD 0).finiteOr0

/-- A finite rate is capped, otherwise the estimate counts. -/
def cappedRate (rate : Option JsNumber) (estimate : JsNumber) : JsNumber :=
  match rate with
  | some (.finite q) => JsNumber.min (.finite q) (.finite MAX_APY)
  | _ => estimate

def roundCents (x : JsNumber) : JsNumber := (x * .finite 100).round.div (.finite 100)

/-- The metrics of one pool, from its official entry, what fstats says, and the estimates. -/
def poolMetrics (pool : PoolInfo) (official : Option FlashApiPoolData) (fstats : Option FstatsData)
    (rpcTvl fallbackApy : Option JsNumber) : PoolMetrics :=
  let apy7d := cappedRate (official.bind FlashApiPoolData.flpWeeklyApy) (fallbackApy.getD 0)
  let sflpWeeklyApr := official.bind FlashApiPoolData.sflpWeeklyApr
  let apr7d := cappedRate sflpWeeklyApr apy7d
  { poolId := pool.poolId
    tvl := (official.map fun o => parsedOrZero o.aum).getD (rpcTvl.getD 0)
    apy7d := roundCents apy7d
    apr7d := roundCents apr7d
    flpPrice := (official.map fun o => parsedOrZero o.flpPrice).getD
      ((fstats.map FstatsData.flp).getD 0)
    sflpPrice := (official.map fun o => parsedOrZero o.sFlpPrice).getD
      ((fstats.map FstatsData.sflp).getD 0)
    totalVolume := (fstats.map FstatsData.vol).getD 0
    totalFees := (fstats.map FstatsData.fees).getD 0
    totalTrades := (fstats.map FstatsData.trades).getD 0
    feeShareLp := (fstats.map FstatsData.lpShare).getD (.finite (pool.feeShare * 100))
    weeklyLpFees := 0
    flpDailyApy := presentOrZero (official.bind FlashApiPoolData.flpDailyApy)
    sflpDailyApr := presentOrZero (official.bind FlashApiPoolData.sflpDailyApr)
    sflpWeeklyApr := presentOrZero sflpWeeklyApr }

/-- `getPoolMetrics` behind its cache. -/
def getPoolMetrics (registry : List PoolInfo) (s : Sources) : OrderedMap String PoolMetrics :=
  let officialData := fetchOfficialEarnData s.poolData
  let fstats := fetchFstatsPoolData s
  let tvlByPool : OrderedMap String JsNumber :=
    match s.tokenSupply, officialData with
    | some tokenSupply, none => byPool registry (supplyTvl tokenSupply fstats)
    | _, _ => .empty
  let fallbackApy : OrderedMap String JsNumber :=
    match officialData with
    | some _ => .empty
    | none => computeFallbackApy registry fstats tvlByPool s
  registry.foldl
    (fun metrics pool => metrics.set pool.poolId
      (poolMetrics pool (officialData.bind fun data => data.get? pool.flpSymbol)
        (fstats.get? pool.poolId) (tvlByPool.get? pool.poolId) (fallbackApy.get? pool.poolId)))
    .empty

/-! ## The cache -/

def CACHE_TTL_MS : ℚ := 30000

structure CachedMetrics where
  data : OrderedMap String PoolMetrics
  fetchedAt : ℚ

/-- A call finds the cache fresh or asks the services; the services have answered one of the
calls that asked; the cache is cleared. -/
inductive PoolDataAction where
  | call (now : ℚ)
  | answered (now : ℚ) (s : Sources)
  | clear

/-- What the services answered; what a call returned. -/
inductive PoolDataEvent where
  | read (s : Sources)
  | returned (metrics : OrderedMap String PoolMetrics)

end PoolData

open PoolData

/-- The cache, and how many calls wait for the services. -/
structure PoolData where
  cache : Option CachedMetrics := none
  waiting : ℕ := 0

namespace PoolData

/-- What is in the cache is returned for 30 seconds. -/
def fresh (d : PoolData) (now : ℚ) : Option (OrderedMap String PoolMetrics) :=
  (d.cache.filter fun c => now - c.fetchedAt < CACHE_TTL_MS).map CachedMetrics.data

def step (registry : List PoolInfo) (d : PoolData) :
    PoolDataAction → Option (PoolData × List PoolDataEvent)
  | .call now =>
    match d.fresh now with
    | some data => some (d, [.returned data])
    | none => some ({ d with waiting := d.waiting + 1 }, [])
  | .answered now s =>
    if 0 < d.waiting then
      let data := getPoolMetrics registry s
      some ({ cache := some { data, fetchedAt := now }, waiting := d.waiting - 1 },
        [.read s, .returned data])
    else none
  | .clear => some ({ d with cache := none }, [])

end PoolData

/-- Calls of `getPoolMetrics`, in any interleaving. -/
def poolData (registry : List PoolInfo) : Machine PoolData PoolDataAction PoolDataEvent where
  init := {}
  step := PoolData.step registry

namespace PoolData

open NumberText

/-! ## What the metrics are -/

/-- No pool of the old format has a symbol. -/
theorem fetchOfficialEarnData_eq_none (response : PoolDataResponse) :
    fetchOfficialEarnData response = none := by
  have hempty : ∀ entries : List FlashApiPoolDataEntry,
      (entries.map legacyEntry).foldl addEarnPool .empty = .empty := by
    intro entries
    induction entries with
    | nil => rfl
    | cons e entries ih =>
      rw [List.map_cons, List.foldl_cons]
      exact ih
  unfold fetchOfficialEarnData getPoolDataLegacy
  cases getPoolData response with
  | none => rfl
  | some entries =>
    show (if _ ∧ 0 < ((entries.map legacyEntry).foldl addEarnPool .empty).size then _ else _) = _
    rw [hempty]
    exact if_neg fun h => absurd h.2 (lt_irrefl 0)

section Registry

variable {registry : List PoolInfo} {pool : PoolInfo}

/-- No two pools have the same id. -/
theorem nodup_getPoolRegistry (fromIdsByName : String → Option PoolConfig) :
    ((getPoolRegistry fromIdsByName).map PoolInfo.poolId).Nodup := by
  have hsub : ((getPoolRegistry fromIdsByName).map PoolInfo.poolId).Sublist
      (POOL_DEFS.map PoolDef.poolId) := by
    unfold getPoolRegistry
    generalize POOL_DEFS = defs
    induction defs with
    | nil => exact List.Sublist.slnil
    | cons d defs ih =>
      rw [List.filterMap_cons]
      cases fromIdsByName d.poolId with
      | none => exact ih.cons _
      | some pc => exact ih.cons_cons _
  exact List.Nodup.sublist hsub (by decide)

/-- The record has what there is for the pool. -/
theorem get?_byPool (hids : (registry.map PoolInfo.poolId).Nodup) (hpool : pool ∈ registry)
    (value : PoolInfo → Option JsNumber) :
    (byPool registry value).get? pool.poolId = value pool := by
  unfold byPool
  rcases OrderedMap.get?_foldl_set Prod.fst Prod.snd
    (registry.filterMap fun pool => (value pool).map fun v => (pool.poolId, v)) .empty pool.poolId
    with ⟨b, hb, hid, hget⟩ | ⟨hnone, hget⟩
  · obtain ⟨other, hother, heq⟩ := List.mem_filterMap.mp hb
    obtain ⟨v, hv, rfl⟩ := Option.map_eq_some_iff.mp heq
    obtain rfl := List.inj_on_of_nodup_map hids hother hpool hid
    rw [hget, hv]
  · rw [hget]
    cases hv : value pool with
    | none => rfl
    | some v =>
      refine absurd rfl (hnone (pool.poolId, v) (List.mem_filterMap.mpr ⟨pool, hpool, ?_⟩))
      rw [hv]
      rfl

/-- What fstats says of the price, and the supplies on chain of the value. -/
def fallbackFigures (s : Sources) (pool : PoolInfo) : JsNumber × JsNumber :=
  let fstats := fetchFstatsPoolData s
  (((fstats.get? pool.poolId).map FstatsData.flp).getD 0,
    (s.tokenSupply.bind fun tokenSupply => supplyTvl tokenSupply fstats pool).getD 0)

/-- Every pool gets the figures of the fallbacks. -/
theorem get?_getPoolMetrics (hids : (registry.map PoolInfo.poolId).Nodup) (hpool : pool ∈ registry)
    (s : Sources) :
    ∃ m, (getPoolMetrics registry s).get? pool.poolId = some m ∧
      (m.flpPrice, m.tvl) = fallbackFigures s pool := by
  unfold getPoolMetrics
  simp only [fetchOfficialEarnData_eq_none]
  refine ⟨_, OrderedMap.get?_foldl_set_of_nodup _ hids hpool .empty, Prod.ext rfl ?_⟩
  show (OrderedMap.get? _ pool.poolId).getD 0 = _
  unfold fallbackFigures
  cases s.tokenSupply with
  | none => rfl
  | some tokenSupply => exact congrArg (fun tvl => Option.getD tvl 0) (get?_byPool hids hpool _)

end Registry

/-! ## What the API says -/

/-- The number that a text begins with, if it is finite. -/
def finiteText (text : Option String) : Option ℚ :=
  match text.map fun t => value (parseFloat t.toList) with
  | some (.finite q) => some q
  | _ => none

/-- The price and the value of an entry, if both are finite. -/
def figures (e : FlashApiPoolDataEntry) : Option (ℚ × ℚ) := do
  let stats ← e.lpStats
  let price ← finiteText stats.lpPrice
  let total ← finiteText stats.totalPoolValueUsd
  return (price, total)

/-- The figures that the answer of the API has for a pool. -/
def officialFigures (response : PoolDataResponse) (pool : PoolInfo) : List (ℚ × ℚ) :=
  (((getPoolData response).getD []).filter fun e => e.poolName = pool.poolId).filterMap figures

/-- Two numbers are figures of the API for a pool. -/
def IsOfficial (s : Sources) (pool : PoolInfo) (x : JsNumber × JsNumber) : Prop :=
  ∃ f ∈ officialFigures s.poolData pool, x = (.finite f.1, .finite f.2)

/-- Every pool that the answer has with figures is reported with them. -/
def ReportsOfficial (registry : List PoolInfo) (s : Sources)
    (metrics : OrderedMap String PoolMetrics) : Prop :=
  ∀ pool ∈ registry, officialFigures s.poolData pool ≠ [] →
    ∃ m, metrics.get? pool.poolId = some m ∧ IsOfficial s pool (m.flpPrice, m.tvl)

/-- The fallbacks have the same figures as the API for every pool that its answer has. -/
def FallbacksAgree (registry : List PoolInfo) (s : Sources) : Prop :=
  ∀ pool ∈ registry, officialFigures s.poolData pool ≠ [] →
    IsOfficial s pool (fallbackFigures s pool)

theorem reportsOfficial_getPoolMetrics {registry : List PoolInfo}
    (hids : (registry.map PoolInfo.poolId).Nodup) (s : Sources) :
    ReportsOfficial registry s (getPoolMetrics registry s) ↔ FallbacksAgree registry s := by
  refine forall₂_congr fun pool hpool => imp_congr_right fun _ => ?_
  obtain ⟨m, hget, hfigures⟩ := get?_getPoolMetrics hids hpool s
  rw [← hfigures, hget]
  constructor
  · rintro ⟨m', hm', hofficial⟩
    obtain rfl := Option.some.inj hm'
    exact hofficial
  · exact fun hofficial => ⟨m, rfl, hofficial⟩

/-! ## Every run -/

/-- The answer that the services gave last. -/
def lastRead (h : List PoolDataEvent) : Option Sources :=
  h.foldl (fun last e => match e with
    | .read s => some s
    | .returned _ => last) none

@[simp] theorem lastRead_read (h : List PoolDataEvent) (s : Sources) :
    lastRead (h ++ [.read s]) = some s := by
  unfold lastRead
  rw [List.foldl_append]
  rfl

@[simp] theorem lastRead_returned (h : List PoolDataEvent) (m : OrderedMap String PoolMetrics) :
    lastRead (h ++ [.returned m]) = lastRead h := by
  unfold lastRead
  rw [List.foldl_append]
  rfl

/-- What is returned reports the official figures of the answer that was given last. -/
def ReturnsOfficial (registry : List PoolInfo) (before : List PoolDataEvent) :
    PoolDataEvent → Prop
  | .read _ => True
  | .returned metrics => ∀ s, lastRead before = some s → ReportsOfficial registry s metrics

/-- What was returned is right, and so is the cache. -/
structure KeepsOfficial (registry : List PoolInfo) (d : PoolData) (h : List PoolDataEvent) :
    Prop where
  returned : Each (ReturnsOfficial registry) h
  cache : ∀ c, d.cache = some c → ∀ s, lastRead h = some s → ReportsOfficial registry s c.data

section Runs

variable {registry : List PoolInfo} {d d' : PoolData} {h es : List PoolDataEvent}

/-- A call that finds the cache fresh returns it. -/
theorem keepsOfficial_call {now : ℚ} (hI : KeepsOfficial registry d h)
    (hs : PoolData.step registry d (.call now) = some (d', es)) :
    KeepsOfficial registry d' (h ++ es) := by
  simp only [PoolData.step] at hs
  cases hfresh : d.fresh now with
  | none =>
    rw [hfresh] at hs
    obtain ⟨rfl, rfl⟩ := Machine.some_pair hs
    rw [List.append_nil]
    exact ⟨hI.returned, hI.cache⟩
  | some data =>
    rw [hfresh] at hs
    obtain ⟨rfl, rfl⟩ := Machine.some_pair hs
    obtain ⟨c, hc, rfl⟩ := Option.map_eq_some_iff.mp hfresh
    have hcache := (Option.filter_eq_some_iff.mp hc).1
    refine ⟨hI.returned.snoc (hI.cache c hcache), fun c' hc' s hlast => ?_⟩
    rw [lastRead_returned] at hlast
    exact hI.cache c' hc' s hlast

/-- What the services answer is returned and kept, as right as the fallbacks are. -/
theorem keepsOfficial_answered (hids : (registry.map PoolInfo.poolId).Nodup) {now : ℚ}
    {s : Sources} (hI : KeepsOfficial registry d h)
    (hs : PoolData.step registry d (.answered now s) = some (d', es)) :
    (FallbacksAgree registry s ∧ KeepsOfficial registry d' (h ++ es)) ∨
      (¬ FallbacksAgree registry s ∧ ¬ Each (ReturnsOfficial registry) (h ++ es)) := by
  simp only [PoolData.step] at hs
  split at hs
  · obtain ⟨rfl, rfl⟩ := Machine.some_pair hs
    rw [← reportsOfficial_getPoolMetrics hids, List.append_cons]
    by_cases hright : ReportsOfficial registry s (getPoolMetrics registry s)
    · have hlast : ∀ s', lastRead (h ++ [.read s]) = some s' →
          ReportsOfficial registry s' (getPoolMetrics registry s) := by
        intro s' hs'
        obtain rfl := Option.some.inj ((lastRead_read h s).symm.trans hs')
        exact hright
      have hread : ReturnsOfficial registry h (.read s) := trivial
      refine .inl ⟨hright, (hI.returned.snoc hread).snoc hlast, fun c hc s' hs' => ?_⟩
      obtain rfl := Option.some.inj hc
      rw [lastRead_returned] at hs'
      exact hlast s' hs'
    · exact .inr ⟨hright, fun heach => hright (heach.last s (lastRead_read h s))⟩
  · cases hs

end Runs

/-- **The official figures.** In a run of calls of `getPoolMetrics`, everything returned reports
the pools of the API's last answer with its figures exactly when, for every answer that is read,
fstats and the supplies on chain say the same of these pools. -/
theorem alwaysOfficial_iff (fromIdsByName : String → Option PoolConfig)
    (actions : List PoolDataAction) :
    (poolData (getPoolRegistry fromIdsByName)).Always
        (fun _ h => Each (ReturnsOfficial (getPoolRegistry fromIdsByName)) h) {} [] actions ↔
      (poolData (getPoolRegistry fromIdsByName)).Along
        (fun _ _ a => ∀ now s, a = .answered now s →
          FallbacksAgree (getPoolRegistry fromIdsByName) s) {} [] actions := by
  have hids := nodup_getPoolRegistry fromIdsByName
  refine Machine.always_iff_along_of_step (I := KeepsOfficial _) (fun hI => hI.returned) ?_
    ⟨Each.nil, fun _ hc => by cases hc⟩ actions
  intro d h a d' es hI hs
  cases a with
  | call now => exact .inl ⟨fun _ _ ha => (by cases ha), keepsOfficial_call hI hs⟩
  | answered now s =>
    rcases keepsOfficial_answered hids hI hs with ⟨hagree, hI'⟩ | ⟨hnot, hbad⟩
    · refine .inl ⟨fun now' s' ha => ?_, hI'⟩
      obtain ⟨-, rfl⟩ := PoolDataAction.answered.inj ha
      exact hagree
    · exact .inr ⟨fun hall => hnot (hall now s rfl), hbad⟩
  | clear =>
    refine .inl ⟨fun _ _ ha => (by cases ha), ?_⟩
    obtain ⟨rfl, rfl⟩ := Machine.some_pair hs
    rw [List.append_nil]
    exact ⟨hI.returned, fun _ hc => by cases hc⟩

/-! A pool that only the API knows is reported with a price of zero. -/

def cryptoEntry : FlashApiPoolDataEntry where
  poolAddress := "pool"
  poolName := "Crypto.1"
  lpStats := some { lpPrice := some "1.5", totalPoolValueUsd := some "2" }

def onlyOfficial : Sources where
  poolData := .object (some [cryptoEntry])
  fstatsPools := none
  tokenSupply := none
  feesDaily := none
  volumeDaily := fun _ => none

theorem figures_cryptoEntry : figures cryptoEntry = some (3 / 2, 2) := by
  have hprice : parseFloat "1.5".toList = .finite (Decimal.ofScaled false 15 (-1)) := by
    decide +kernel
  have htotal : parseFloat "2".toList = .finite (Decimal.ofScaled false 2 0) := by decide +kernel
  have h₁ : finiteText (some "1.5") = some (3 / 2) := by
    simp only [finiteText, Option.map_some, hprice, value, Decimal.toRat_ofScaled]
    norm_num
  have h₂ : finiteText (some "2") = some 2 := by
    simp only [finiteText, Option.map_some, htotal, value, Decimal.toRat_ofScaled]
    norm_num
  unfold figures cryptoEntry
  simp only [Option.bind_eq_bind, Option.bind_some, h₁, h₂]
  rfl

theorem not_alwaysOfficial :
    ¬ (poolData (getPoolRegistry fun _ => some ⟨"FLP.1", "flp", "sflp"⟩)).Always
        (fun _ h => Each
          (ReturnsOfficial (getPoolRegistry fun _ => some ⟨"FLP.1", "flp", "sflp"⟩)) h)
        {} [] [.call 0, .answered 1000 onlyOfficial] := by
  intro hall
  have heach := ((hall.2 _ _ rfl).2 _ _ rfl).head
  have hreports := heach [.read onlyOfficial] _ [] rfl onlyOfficial rfl
  rw [reportsOfficial_getPoolMetrics (nodup_getPoolRegistry _)] at hreports
  have hfigures : officialFigures onlyOfficial.poolData
      ⟨"Crypto.1", "FLP.1", "flp", "sflp", 7 / 10⟩ = [(3 / 2, 2)] := by
    show [cryptoEntry].filterMap figures = _
    rw [List.filterMap_cons, figures_cryptoEntry]
    rfl
  obtain ⟨f, hf, heq⟩ := hreports _ List.mem_cons_self (hfigures ▸ List.cons_ne_nil _ _)
  obtain rfl := List.mem_singleton.mp (hfigures ▸ hf)
  have hzero : JsNumber.finite 0 = .finite (3 / 2) := congrArg Prod.fst heq
  exact absurd (JsNumber.finite.inj hzero) (by norm_num)

end PoolData

end FlashEdge
