import Mathlib.Tactic.NormNum
import FlashEdge.Client.Simulation
import FlashEdge.Theory.OrderedMap

/-!
# The fee rates of the protocol (`utils/protocol-fees.ts`)

`getProtocolFeeRates` reads a market's rates from its custody account, checks them and caches
them; without a program client, or when the account cannot be read, it falls back on rates of
its own, and caches those as well. A cached entry is judged by the slot at which it was stored
if one is known, and otherwise by the time since the last slot was fetched.

Whether the slot can be fetched, and what the custody account says, are answers from outside;
so are the slot and the time. `getRates_valid`: whatever is returned passes the checks of the
module.
-/

namespace FlashEdge

namespace ProtocolFees

def RATE_POWER : ℚ := 1000000000
def BPS_POWER : ℚ := 10000
def SLOT_STALE_THRESHOLD : ℕ := 150
def FALLBACK_TTL_MS : ℚ := 60000
def MAX_ENTRIES : ℕ := 50

inductive RateSource where
  | onChain
  | sdkDefault
deriving DecidableEq, Repr

/-- `ProtocolFeeRates`, with the fields that the paper-trading client does not read. -/
structure FeeRates extends ProtocolFeeRates where
  maxLeverage : ℚ
  source : RateSource
deriving DecidableEq, Repr

structure CacheEntry where
  rates : FeeRates
  cachedAtSlot : ℕ
deriving DecidableEq, Repr

/-- What is read of a custody account, as numbers. -/
structure CustodyAccount where
  openPosition : JsNumber
  closePosition : JsNumber
  maxLeverage : JsNumber
deriving DecidableEq, Repr

/-- `ProtocolParameterError`, with the numbers its texts show. -/
inductive ProtocolParameterError where
  | invalidOpenFeeRate (market : String) (raw : JsNumber)
  | invalidCloseFeeRate (market : String) (raw : JsNumber)
  | invalidMaxLeverage (market : String) (raw : JsNumber)
  | invalidMaintenanceMarginRate (market : String) (maxLeverage : ℚ)
  | marginTooHigh (market : String)
  | feeTooHigh (market : String) (openFeeRate closeFeeRate : ℚ)
deriving DecidableEq, Repr

/-- What a program client makes of a market: it has no custody, the account cannot be read,
or it is read. -/
inductive CustodyAnswer where
  | unlisted
  | failed
  | account (account : CustodyAccount)
deriving DecidableEq, Repr

end ProtocolFees

open ProtocolFees

/-- The state of the module. -/
structure ProtocolFees where
  feeCache : OrderedMap String CacheEntry := .empty
  lastKnownSlot : ℕ := 0
  lastSlotFetchTime : ℚ := 0
deriving DecidableEq

namespace ProtocolFees

/-! ## The cache -/

/-- The slot, or 0 if it cannot be fetched. -/
def getCurrentSlot (s : ProtocolFees) (slot? : Option ℕ) (now : ℚ) : ProtocolFees × ℕ :=
  match slot? with
  | some slot =>
    if 0 < slot then ({ s with lastKnownSlot := slot, lastSlotFetchTime := now }, slot) else (s, 0)
  | none => (s, 0)

def isCacheFresh (s : ProtocolFees) (entry : CacheEntry) (currentSlot : ℕ) (now : ℚ) : Bool :=
  if 0 < currentSlot ∧ 0 < entry.cachedAtSlot then
    (currentSlot : ℤ) - entry.cachedAtSlot < SLOT_STALE_THRESHOLD
  else if 0 < s.lastSlotFetchTime then now - s.lastSlotFetchTime < FALLBACK_TTL_MS
  else false

/-! ## The custody account -/

/-- `Number.isFinite(x) && x >= 0`. -/
def nonnegative? : JsNumber → Option ℚ
  | .finite q => if 0 ≤ q then some q else none
  | _ => none

/-- The checks of a custody account. -/
def readCustody (market : String) (a : CustodyAccount) :
    Except ProtocolParameterError FeeRates :=
  match nonnegative? a.openPosition with
  | none => .error (.invalidOpenFeeRate market a.openPosition)
  | some openFeeRaw =>
    match nonnegative? a.closePosition with
    | none => .error (.invalidCloseFeeRate market a.closePosition)
    | some closeFeeRaw =>
      match a.maxLeverage.finitePositive? with
      | none => .error (.invalidMaxLeverage market a.maxLeverage)
      | some maxLevRaw =>
        let openFeeRate := openFeeRaw / RATE_POWER
        let closeFeeRate := closeFeeRaw / RATE_POWER
        let maxLeverage := maxLevRaw / BPS_POWER
        let maintenanceMarginRate := 1 / maxLeverage
        if maintenanceMarginRate ≤ 0 then
          .error (.invalidMaintenanceMarginRate market maxLeverage)
        else if 1 ≤ maintenanceMarginRate then .error (.marginTooHigh market)
        else if 1 / 10 < openFeeRate ∨ 1 / 10 < closeFeeRate then
          .error (.feeTooHigh market openFeeRate closeFeeRate)
        else
          .ok { openFeeRate, closeFeeRate, maintenanceMarginRate, maxLeverage, source := .onChain }

/-! ## The defaults -/

/-- `MARKET_DEFAULTS`, and the generic ones. -/
def defaultRates (market : String) : FeeRates :=
  if market = "BTC" ∨ market = "ETH" then
    { openFeeRate := 6 / 10000, closeFeeRate := 6 / 10000, maintenanceMarginRate := 5 / 1000
      maxLeverage := 100, source := .sdkDefault }
  else if market = "BONK" ∨ market = "WIF" then
    { openFeeRate := 1 / 1000, closeFeeRate := 1 / 1000, maintenanceMarginRate := 2 / 100
      maxLeverage := 50, source := .sdkDefault }
  else
    -- `SOL` has the generic rates
    { openFeeRate := 8 / 10000, closeFeeRate := 8 / 10000, maintenanceMarginRate := 1 / 100
      maxLeverage := 100, source := .sdkDefault }

/-- The defaults are cached, without a slot. -/
def storeDefaults (s : ProtocolFees) (upper : String) : ProtocolFees × FeeRates :=
  ({ s with feeCache := s.feeCache.set upper { rates := defaultRates upper, cachedAtSlot := 0 } },
    defaultRates upper)

/-! ## The look-up -/

/-- The rates read are cached, at the slot that is known; the oldest entry makes room. -/
def storeOnChain (s : ProtocolFees) (upper : String) (rates : FeeRates) : ProtocolFees :=
  let feeCache := s.feeCache.set upper { rates, cachedAtSlot := s.lastKnownSlot }
  let feeCache :=
    if MAX_ENTRIES < feeCache.size then
      match feeCache.keys.head? with
      | some oldest => if oldest ≠ "" then feeCache.delete oldest else feeCache
      | none => feeCache
    else feeCache
  { s with feeCache }

/-- What follows when the cache has no fresh entry. -/
def fetchRates (s : ProtocolFees) (upper : String) :
    Option CustodyAnswer → ProtocolFees × Except ProtocolParameterError FeeRates
  | none => let r := s.storeDefaults upper; (r.1, .ok r.2)
  | some .unlisted => let r := s.storeDefaults upper; (r.1, .ok r.2)
  | some .failed =>
    match s.feeCache.get? upper with
    | some stale =>
      if stale.rates.source = .onChain then (s, .ok stale.rates)
      else let r := s.storeDefaults upper; (r.1, .ok r.2)
    | none => let r := s.storeDefaults upper; (r.1, .ok r.2)
  | some (.account account) =>
    match readCustody upper account with
    | .error error => (s, .error error)
    | .ok rates => (s.storeOnChain upper rates, .ok rates)

/-- `client` is what the program client makes of the market, if there is one. -/
def getProtocolFeeRates (s : ProtocolFees) (market : String) (client : Option CustodyAnswer)
    (slot? : Option ℕ) (now : ℚ) : ProtocolFees × Except ProtocolParameterError FeeRates :=
  let upper := toUpperCase market
  match s.feeCache.get? upper with
  | some cached =>
    let (s, currentSlot) := s.getCurrentSlot slot? now
    if s.isCacheFresh cached currentSlot now then (s, .ok cached.rates)
    else s.fetchRates upper client
  | none => s.fetchRates upper client

def sweepExpiredCache (s : ProtocolFees) (now : ℚ) : ProtocolFees :=
  { s with feeCache := s.feeCache.filter fun _ entry =>
      !(entry.cachedAtSlot = 0 && 0 < s.lastSlotFetchTime &&
        FALLBACK_TTL_MS * 2 < now - s.lastSlotFetchTime) }

/-! ## What passes the checks -/

/-- Rates that pass the checks of the module. -/
structure Valid (r : FeeRates) : Prop where
  openFeeRate : 0 ≤ r.openFeeRate ∧ r.openFeeRate ≤ 1 / 10
  closeFeeRate : 0 ≤ r.closeFeeRate ∧ r.closeFeeRate ≤ 1 / 10
  maintenanceMarginRate : 0 < r.maintenanceMarginRate ∧ r.maintenanceMarginRate < 1
  maxLeverage : 0 < r.maxLeverage

theorem nonnegative?_le {x : JsNumber} {q : ℚ} (h : nonnegative? x = some q) : 0 ≤ q := by
  unfold nonnegative? at h
  split at h
  · split at h
    · next hq =>
      obtain rfl := Option.some.inj h
      exact hq
    · cases h
  · cases h

theorem readCustody_valid {market : String} {a : CustodyAccount} {r : FeeRates}
    (h : readCustody market a = .ok r) : Valid r ∧ r.source = .onChain := by
  unfold readCustody at h
  split at h
  · cases h
  · next openFeeRaw hopen =>
    split at h
    · cases h
    · next closeFeeRaw hclose =>
      split at h
      · cases h
      · next maxLevRaw hmax =>
        dsimp only at h
        split at h
        · cases h
        · next hpos =>
          split at h
          · cases h
          · next hbelow =>
            split at h
            · cases h
            · next hfees =>
              rw [not_or, not_lt, not_lt] at hfees
              obtain rfl := Except.ok.inj h
              have hlev : 0 < maxLevRaw / BPS_POWER := by
                rw [not_le] at hpos
                exact one_div_pos.mp hpos
              refine ⟨⟨⟨?_, hfees.1⟩, ⟨?_, hfees.2⟩, ⟨not_le.mp hpos, not_le.mp hbelow⟩, hlev⟩, rfl⟩
              · exact div_nonneg (nonnegative?_le hopen) (by unfold RATE_POWER; norm_num)
              · exact div_nonneg (nonnegative?_le hclose) (by unfold RATE_POWER; norm_num)

/-- Every default passes the checks. -/
theorem defaultRates_valid (market : String) :
    Valid (defaultRates market) ∧ (defaultRates market).source = .sdkDefault := by
  unfold defaultRates
  split
  · exact ⟨⟨by norm_num, by norm_num, by norm_num, by norm_num⟩, rfl⟩
  · split
    · exact ⟨⟨by norm_num, by norm_num, by norm_num, by norm_num⟩, rfl⟩
    · exact ⟨⟨by norm_num, by norm_num, by norm_num, by norm_num⟩, rfl⟩

/-! ## What a call does -/

/-- The state once the cache has been looked up: an entry has the slot fetched. -/
def looked (s : ProtocolFees) (upper : String) (slot? : Option ℕ) (now : ℚ) : ProtocolFees :=
  match s.feeCache.get? upper with
  | some _ => (s.getCurrentSlot slot? now).1
  | none => s

/-- An entry passes by its slot. -/
def TakenBySlot (cached : CacheEntry) (slot? : Option ℕ) : Prop :=
  ∃ slot ∈ slot?, 0 < slot ∧ 0 < cached.cachedAtSlot ∧
    slot < cached.cachedAtSlot + SLOT_STALE_THRESHOLD

/-- An entry passes by the time since a slot was fetched: just now, for an entry that has no
slot of its own, or less than a minute ago, when no slot can be fetched. -/
def TakenByTime (s : ProtocolFees) (cached : CacheEntry) (slot? : Option ℕ) (now : ℚ) : Prop :=
  ((∃ slot ∈ slot?, 0 < slot) ∧ cached.cachedAtSlot = 0 ∧ 0 < now) ∨
    ((∀ slot ∈ slot?, slot = 0) ∧ 0 < s.lastSlotFetchTime ∧
      now - s.lastSlotFetchTime < FALLBACK_TTL_MS)

@[simp] theorem getCurrentSlot_feeCache (s : ProtocolFees) (slot? : Option ℕ) (now : ℚ) :
    (s.getCurrentSlot slot? now).1.feeCache = s.feeCache := by
  unfold getCurrentSlot
  split
  · split <;> rfl
  · rfl

@[simp] theorem looked_feeCache (s : ProtocolFees) (upper : String) (slot? : Option ℕ) (now : ℚ) :
    (s.looked upper slot? now).feeCache = s.feeCache := by
  unfold looked
  split
  · exact getCurrentSlot_feeCache s slot? now
  · rfl

/-- **When an entry counts as fresh**: by its slot, or by the time. -/
theorem isCacheFresh_iff (s : ProtocolFees) (cached : CacheEntry) (slot? : Option ℕ) (now : ℚ) :
    (s.getCurrentSlot slot? now).1.isCacheFresh cached (s.getCurrentSlot slot? now).2 now = true ↔
      TakenBySlot cached slot? ∨ s.TakenByTime cached slot? now := by
  have hunknown : (∀ slot ∈ slot?, slot = 0) → s.getCurrentSlot slot? now = (s, 0) := by
    intro hzero
    unfold getCurrentSlot
    cases slot? with
    | none => rfl
    | some slot =>
      obtain rfl := hzero slot rfl
      rfl
  by_cases hknown : ∃ slot ∈ slot?, 0 < slot
  · obtain ⟨slot, rfl, hslot⟩ := hknown
    have hzero : ¬ ∀ n ∈ some slot, n = 0 := fun h => hslot.ne' (h slot rfl)
    have hbySlot : TakenBySlot cached (some slot) ↔
        0 < cached.cachedAtSlot ∧ slot < cached.cachedAtSlot + SLOT_STALE_THRESHOLD :=
      ⟨fun ⟨_, hsame, _, hrest⟩ => Option.some.inj hsame ▸ hrest, fun h => ⟨slot, rfl, hslot, h⟩⟩
    unfold getCurrentSlot isCacheFresh TakenByTime
    rw [hbySlot]
    simp only [if_pos hslot]
    by_cases hcached : 0 < cached.cachedAtSlot
    · rw [if_pos ⟨hslot, hcached⟩, decide_eq_true_iff]
      constructor
      · intro hage
        exact .inl ⟨hcached, by omega⟩
      · rintro (⟨-, hage⟩ | ⟨-, hnone, -⟩ | ⟨hz, -⟩)
        · omega
        · omega
        · exact absurd hz hzero
    · rw [if_neg fun h => hcached h.2]
      have hnow : now - now < FALLBACK_TTL_MS := by
        rw [sub_self]
        unfold FALLBACK_TTL_MS
        norm_num
      constructor
      · intro hfresh
        split at hfresh
        · next hpos => exact .inr (.inl ⟨⟨slot, rfl, hslot⟩, by omega, hpos⟩)
        · cases hfresh
      · rintro (⟨hpos, -⟩ | ⟨-, -, hpos⟩ | ⟨hz, -⟩)
        · exact absurd hpos hcached
        · rw [if_pos hpos]
          exact decide_eq_true hnow
        · exact absurd hz hzero
  · have hzero : ∀ slot ∈ slot?, slot = 0 := by
      intro slot hslot
      by_contra hne
      exact hknown ⟨slot, hslot, Nat.pos_of_ne_zero hne⟩
    rw [hunknown hzero]
    unfold isCacheFresh TakenByTime
    rw [if_neg fun h => absurd h.1 (lt_irrefl 0)]
    constructor
    · intro hfresh
      split at hfresh
      · next hpos => exact .inr (.inr ⟨hzero, hpos, of_decide_eq_true hfresh⟩)
      · cases hfresh
    · rintro (⟨slot, hslot, hpos, -⟩ | ⟨hsome, -⟩ | ⟨-, hpos, hrecent⟩)
      · exact absurd ⟨slot, hslot, hpos⟩ hknown
      · exact absurd hsome hknown
      · rw [if_pos hpos]
        exact decide_eq_true hrecent

/-- An entry is returned without asking the custody account. -/
def Takes (s : ProtocolFees) (cached : CacheEntry) (slot? : Option ℕ) (now : ℚ) : Prop :=
  TakenBySlot cached slot? ∨ s.TakenByTime cached slot? now

/-- The program client has no custody for the market, or there is none. -/
def LacksCustody (client : Option CustodyAnswer) : Prop := client = none ∨ client = some .unlisted

theorem not_lacksCustody {client : Option CustodyAnswer} {answer : CustodyAnswer}
    (hclient : client = some answer) (hlisted : answer ≠ .unlisted) : ¬ LacksCustody client := by
  rintro (hnone | hunlisted)
  · rw [hclient] at hnone
    cases hnone
  · rw [hclient] at hunlisted
    exact hlisted (Option.some.inj hunlisted)

/-- The five ways a call ends. -/
inductive Outcome (s : ProtocolFees) (upper : String) (client : Option CustodyAnswer)
    (slot? : Option ℕ) (now : ℚ) :
    ProtocolFees × Except ProtocolParameterError FeeRates → Prop where
  | taken {cached : CacheEntry} : s.feeCache.get? upper = some cached →
      s.Takes cached slot? now →
      Outcome s upper client slot? now (s.looked upper slot? now, .ok cached.rates)
  | fetched {account : CustodyAccount} {rates : FeeRates} :
      (∀ cached ∈ s.feeCache.get? upper, ¬ s.Takes cached slot? now) →
      client = some (.account account) → readCustody upper account = .ok rates →
      Outcome s upper client slot? now
        ((s.looked upper slot? now).storeOnChain upper rates, .ok rates)
  | threw {account : CustodyAccount} {error : ProtocolParameterError} :
      (∀ cached ∈ s.feeCache.get? upper, ¬ s.Takes cached slot? now) →
      client = some (.account account) → readCustody upper account = .error error →
      Outcome s upper client slot? now (s.looked upper slot? now, .error error)
  | stale {cached : CacheEntry} : s.feeCache.get? upper = some cached →
      ¬ s.Takes cached slot? now → client = some .failed → cached.rates.source = .onChain →
      Outcome s upper client slot? now (s.looked upper slot? now, .ok cached.rates)
  | defaults : (∀ cached ∈ s.feeCache.get? upper, ¬ s.Takes cached slot? now) →
      (LacksCustody client ∨ client = some .failed ∧
        ∀ cached ∈ s.feeCache.get? upper, cached.rates.source ≠ .onChain) →
      Outcome s upper client slot? now
        (((s.looked upper slot? now).storeDefaults upper).1,
          .ok ((s.looked upper slot? now).storeDefaults upper).2)

/-- What follows a look-up that has found nothing fresh. -/
theorem fetchRates_outcome (s : ProtocolFees) (upper : String) (client : Option CustodyAnswer)
    (slot? : Option ℕ) (now : ℚ)
    (hold : ∀ cached ∈ s.feeCache.get? upper, ¬ s.Takes cached slot? now) :
    Outcome s upper client slot? now ((s.looked upper slot? now).fetchRates upper client) := by
  unfold fetchRates
  cases client with
  | none => exact .defaults hold (.inl (.inl rfl))
  | some answer =>
    cases answer with
    | unlisted => exact .defaults hold (.inl (.inr rfl))
    | failed =>
      rw [looked_feeCache]
      cases hcached : s.feeCache.get? upper with
      | none =>
        refine .defaults hold (.inr ⟨rfl, fun cached hmem => ?_⟩)
        rw [hcached] at hmem
        cases hmem
      | some cached =>
        dsimp only
        split
        · next hsource => exact .stale hcached (hold cached hcached) rfl hsource
        · next hsource =>
          refine .defaults hold (.inr ⟨rfl, fun cached' hmem => ?_⟩)
          rw [hcached] at hmem
          obtain rfl := Option.some.inj hmem
          exact hsource
    | account account =>
      dsimp only
      split
      · next error herror => exact .threw hold rfl herror
      · next rates hrates => exact .fetched hold rfl hrates

/-- **What a call does.** -/
theorem getProtocolFeeRates_outcome (s : ProtocolFees) (market : String)
    (client : Option CustodyAnswer) (slot? : Option ℕ) (now : ℚ) :
    Outcome s (toUpperCase market) client slot? now
      (s.getProtocolFeeRates market client slot? now) := by
  have hfetch := s.fetchRates_outcome (toUpperCase market) client slot? now
  unfold getProtocolFeeRates
  dsimp only
  cases hcached : s.feeCache.get? (toUpperCase market) with
  | none =>
    have hlooked : s.looked (toUpperCase market) slot? now = s := by
      unfold looked
      rw [hcached]
    rw [hlooked, hcached] at hfetch
    exact hfetch fun cached hmem => (by cases hmem)
  | some cached =>
    have hlooked : s.looked (toUpperCase market) slot? now = (s.getCurrentSlot slot? now).1 := by
      unfold looked
      rw [hcached]
    dsimp only
    split
    · next hfresh =>
      rw [← hlooked]
      exact .taken hcached ((s.isCacheFresh_iff cached slot? now).mp hfresh)
    · next hold =>
      rw [hlooked, hcached] at hfetch
      refine hfetch fun cached' hmem htakes => ?_
      obtain rfl := Option.some.inj hmem
      exact hold ((s.isCacheFresh_iff cached slot? now).mpr htakes)

/-! ## The cache after a store -/

theorem storeOnChain_get? {s : ProtocolFees} {upper market : String} {rates : FeeRates}
    {entry : CacheEntry}
    (h : (s.storeOnChain upper rates).feeCache.get? market = some entry) :
    (market = upper ∧ entry = { rates, cachedAtSlot := s.lastKnownSlot }) ∨
      (market ≠ upper ∧ s.feeCache.get? market = some entry) := by
  have hset : (s.feeCache.set upper { rates, cachedAtSlot := s.lastKnownSlot }).get? market =
      some entry := by
    unfold storeOnChain at h
    dsimp only at h
    split at h
    · split at h
      · split at h
        · exact (OrderedMap.get?_delete_eq_some.mp h).2
        · exact h
      · exact h
    · exact h
  rcases OrderedMap.get?_set_eq_some.mp hset with ⟨hsame, hentry⟩ | hother
  · exact .inl ⟨hsame, hentry.symm⟩
  · exact .inr hother

/-- All rates in the cache pass the checks. -/
def ValidCache (s : ProtocolFees) : Prop :=
  ∀ market entry, s.feeCache.get? market = some entry → Valid entry.rates

/-- Only valid rates are returned, and cached. -/
theorem getRates_valid {s : ProtocolFees} (hs : s.ValidCache) (market : String)
    (client : Option CustodyAnswer) (slot? : Option ℕ) (now : ℚ) :
    (s.getProtocolFeeRates market client slot? now).1.ValidCache ∧
      ∀ rates, (s.getProtocolFeeRates market client slot? now).2 = .ok rates → Valid rates := by
  have hlooked : (s.looked (toUpperCase market) slot? now).ValidCache := by
    intro m entry hentry
    rw [looked_feeCache] at hentry
    exact hs m entry hentry
  have hout := s.getProtocolFeeRates_outcome market client slot? now
  generalize s.getProtocolFeeRates market client slot? now = r at hout ⊢
  cases hout with
  | taken hcached _ =>
    exact ⟨hlooked, fun rates hrates => Except.ok.inj hrates ▸ hs _ _ hcached⟩
  | fetched _ _ hrates =>
    obtain ⟨hvalid, -⟩ := readCustody_valid hrates
    refine ⟨fun m entry hentry => ?_, fun r hr => Except.ok.inj hr ▸ hvalid⟩
    rcases storeOnChain_get? hentry with ⟨-, rfl⟩ | ⟨-, hold⟩
    · exact hvalid
    · exact hlooked m entry hold
  | threw _ _ _ => exact ⟨hlooked, fun rates hrates => (by cases hrates)⟩
  | stale hcached _ _ _ =>
    exact ⟨hlooked, fun rates hrates => Except.ok.inj hrates ▸ hs _ _ hcached⟩
  | defaults _ _ =>
    obtain ⟨hvalid, -⟩ := defaultRates_valid (toUpperCase market)
    refine ⟨fun m entry hentry => ?_, fun r hr => Except.ok.inj hr ▸ hvalid⟩
    rcases OrderedMap.get?_set_eq_some.mp hentry with ⟨-, rfl⟩ | ⟨-, hold⟩
    · exact hvalid
    · exact hlooked m entry hold

end ProtocolFees

end FlashEdge
