import FlashEdge.Theory.Machine
import FlashEdge.Utils.ProtocolFees

/-!
# The fee rates of a run of calls

`feeRates` is the module, call after call. A call happens at a slot of the chain, which does
not go back, and at a time; whether the slot can be fetched then, and what the program client
makes of the market, are up to the call. `fetchedAt` is not in the source: it is the slot at
which a market's rates were last read from the chain.

A working client is meant to get rates of the chain that are at most 150 slots old, and rates
of the chain to stay in the cache until others replace them. `freshRates_iff`: along a run they
do exactly when no working client finds an entry that passes by the time alone and is a default
or too old, and no call without a custody finds an on-chain entry that has expired.
-/

namespace FlashEdge

namespace ProtocolFees

/-! ## The machine -/

structure FeeCall where
  market : String
  client : Option CustodyAnswer
  slot : ℕ
  slotFetched : Bool
  now : ℚ

/-- What `getSlot` gives. -/
def FeeCall.slot? (c : FeeCall) : Option ℕ := if c.slotFetched then some c.slot else none

/-- The client reads an account of the market that passes the checks. -/
def FeeCall.Working (c : FeeCall) : Prop :=
  ∃ account rates, c.client = some (.account account) ∧
    readCustody (toUpperCase c.market) account = .ok rates

/-- The same, computed. -/
def FeeCall.working (c : FeeCall) : Bool :=
  match c.client with
  | some (.account account) => (readCustody (toUpperCase c.market) account).toOption.isSome
  | _ => false

inductive FeeAction where
  | call (c : FeeCall)
  | sweepExpiredCache (now : ℚ)

/-- A call: whether its client works, its slot, its result, the slot at which the market's
rates were last read, and what the cache has of the market before and after. -/
structure FeeRecord where
  working : Bool
  slot : ℕ
  result : Except ProtocolParameterError FeeRates
  fetchedAt : Option ℕ
  before : Option FeeRates
  after : Option FeeRates

/-- The module, with the slot of the last call. -/
structure FeeRun where
  fees : ProtocolFees := {}
  fetchedAt : OrderedMap String ℕ := .empty
  slot : ℕ := 0

/-- The custody account is asked: no entry is taken. -/
def asksCustody (s : ProtocolFees) (c : FeeCall) : Bool :=
  match s.feeCache.get? (toUpperCase c.market) with
  | some cached =>
    let (s, currentSlot) := s.getCurrentSlot c.slot? c.now
    !s.isCacheFresh cached currentSlot c.now
  | none => true

def FeeRun.call (s : FeeRun) (c : FeeCall) : FeeRun × List FeeRecord :=
  let upper := toUpperCase c.market
  let r := s.fees.getProtocolFeeRates c.market c.client c.slot? c.now
  let fetchedAt :=
    if c.working && s.fees.asksCustody c then s.fetchedAt.set upper c.slot else s.fetchedAt
  ({ fees := r.1, fetchedAt, slot := c.slot },
    [{ working := c.working
       slot := c.slot
       result := r.2
       fetchedAt := fetchedAt.get? upper
       before := (s.fees.feeCache.get? upper).map CacheEntry.rates
       after := (r.1.feeCache.get? upper).map CacheEntry.rates }])

def FeeRun.step (s : FeeRun) : FeeAction → Option (FeeRun × List FeeRecord)
  | .call c => if c.slot < s.slot then none else some (s.call c)
  | .sweepExpiredCache now => some ({ s with fees := s.fees.sweepExpiredCache now }, [])

end ProtocolFees

/-- The module, from its start. -/
def feeRates : Machine ProtocolFees.FeeRun ProtocolFees.FeeAction ProtocolFees.FeeRecord where
  init := {}
  step := ProtocolFees.FeeRun.step

namespace ProtocolFees

/-! ## The property -/

/-- The rates are of the chain, read less than 150 slots ago. -/
def FeeRecord.OnChain (r : FeeRecord) : Prop :=
  ∃ rates, r.result = .ok rates ∧ rates.source = .onChain ∧
    ∃ fetched ∈ r.fetchedAt, r.slot < fetched + SLOT_STALE_THRESHOLD

/-- An entry of the chain is replaced by a default. -/
def FeeRecord.Replaced (r : FeeRecord) : Prop :=
  ∃ old ∈ r.before, ∃ new ∈ r.after, old.source = .onChain ∧ new.source = .sdkDefault

/-- A working client gets rates of the chain, and none are replaced by defaults. -/
def FeeRecord.Fresh (r : FeeRecord) : Prop := (r.working = true → r.OnChain) ∧ ¬ r.Replaced

def FreshRates (h : List FeeRecord) : Prop := ∀ r ∈ h, r.Fresh

/-! ## The condition -/

/-- A working client finds no entry that passes by the time and is a default or too old; a
call without a custody finds no on-chain entry that does not pass. -/
def KeepsFresh (s : FeeRun) : FeeAction → Prop
  | .call c =>
    ∀ cached ∈ s.fees.feeCache.get? (toUpperCase c.market),
      (c.Working → s.fees.TakenByTime cached c.slot? c.now →
        cached.rates.source = .onChain ∧
          ∃ fetched ∈ s.fetchedAt.get? (toUpperCase c.market),
            c.slot < fetched + SLOT_STALE_THRESHOLD) ∧
      (LacksCustody c.client → cached.rates.source = .onChain →
        s.fees.Takes cached c.slot? c.now)
  | .sweepExpiredCache _ => True

/-! ## The invariant -/

/-- The known slot is not ahead of the chain, and an entry that has a slot was read from the
chain, at that slot or later. -/
structure FeeInv (s : FeeRun) : Prop where
  known : s.fees.lastKnownSlot ≤ s.slot
  entries : ∀ market entry, s.fees.feeCache.get? market = some entry → 0 < entry.cachedAtSlot →
    entry.rates.source = .onChain ∧
      ∃ fetched ∈ s.fetchedAt.get? market, entry.cachedAtSlot ≤ fetched

theorem working_iff (c : FeeCall) : c.working = true ↔ c.Working := by
  unfold FeeCall.working FeeCall.Working
  cases hclient : c.client with
  | none => simp
  | some answer =>
    cases answer with
    | unlisted => simp
    | failed => simp
    | account account =>
      dsimp only
      cases hread : readCustody (toUpperCase c.market) account with
      | error error =>
        constructor
        · intro h
          cases h
        · rintro ⟨a, rates, hsame, hok⟩
          obtain rfl : account = a := by simpa using hsame
          rw [hread] at hok
          cases hok
      | ok rates => exact ⟨fun _ => ⟨account, rates, rfl, hread⟩, fun _ => rfl⟩

theorem asksCustody_iff (s : ProtocolFees) (c : FeeCall) :
    s.asksCustody c = true ↔
      ∀ cached ∈ s.feeCache.get? (toUpperCase c.market), ¬ s.Takes cached c.slot? c.now := by
  unfold asksCustody
  cases s.feeCache.get? (toUpperCase c.market) with
  | none => exact ⟨fun _ cached hmem => (by cases hmem), fun _ => rfl⟩
  | some cached =>
    dsimp only
    rw [Bool.not_eq_true', Bool.eq_false_iff]
    constructor
    · intro hold cached' hmem htakes
      obtain rfl := Option.some.inj hmem
      exact hold ((s.isCacheFresh_iff cached c.slot? c.now).mpr htakes)
    · intro hold hfresh
      exact hold cached rfl ((s.isCacheFresh_iff cached c.slot? c.now).mp hfresh)

theorem looked_known {s : FeeRun} (hI : FeeInv s) {c : FeeCall} (hslot : s.slot ≤ c.slot)
    (upper : String) : (s.fees.looked upper c.slot? c.now).lastKnownSlot ≤ c.slot := by
  have hknown := hI.known.trans hslot
  unfold looked getCurrentSlot FeeCall.slot?
  cases s.fees.feeCache.get? upper with
  | none => exact hknown
  | some cached =>
    dsimp only
    split
    · next slot hfetched =>
      split at hfetched
      · obtain rfl := Option.some.inj hfetched
        split
        · exact le_rfl
        · exact hknown
      · cases hfetched
    · exact hknown

/-- A cache that is as before keeps the invariant. -/
theorem FeeInv.same {s : FeeRun} (hI : FeeInv s) {fees : ProtocolFees} {slot : ℕ}
    (hknown : fees.lastKnownSlot ≤ slot) (hcache : fees.feeCache = s.fees.feeCache) :
    FeeInv { fees, fetchedAt := s.fetchedAt, slot } where
  known := hknown
  entries := by
    rw [hcache]
    exact hI.entries

/-- An entry that passes by its slot was read from the chain, not long ago. -/
theorem FeeInv.takenBySlot {s : FeeRun} (hI : FeeInv s) {c : FeeCall} {market : String}
    {cached : CacheEntry} (hcached : s.fees.feeCache.get? market = some cached)
    (htaken : TakenBySlot cached c.slot?) :
    cached.rates.source = .onChain ∧ ∃ fetched ∈ s.fetchedAt.get? market,
      c.slot < fetched + SLOT_STALE_THRESHOLD := by
  obtain ⟨slot, hslot, -, hpos, hage⟩ := htaken
  obtain rfl : slot = c.slot := by
    unfold FeeCall.slot? at hslot
    split at hslot
    · exact (Option.some.inj hslot).symm
    · cases hslot
  obtain ⟨hsource, fetched, hfetched, hle⟩ := hI.entries market cached hcached hpos
  exact ⟨hsource, fetched, hfetched, by omega⟩

/-- Nothing is replaced where the cache is as before. -/
theorem not_replaced {r : FeeRecord} (hsame : r.after = r.before) : ¬ r.Replaced := by
  rintro ⟨old, hold, new, hnew, honChain, hdefault⟩
  rw [hsame] at hnew
  obtain rfl := Option.mem_unique hold hnew
  rw [honChain] at hdefault
  cases hdefault

/-- A call that reads nothing and leaves the cache alone is fresh, if its client has a
custody. -/
theorem idle_fresh {s : FeeRun} (hI : FeeInv s) {c : FeeCall} {fees : ProtocolFees}
    (hknown : fees.lastKnownSlot ≤ c.slot) (hcache : fees.feeCache = s.fees.feeCache)
    (hbroken : ¬ c.Working) (hcustody : ¬ LacksCustody c.client)
    {result : Except ProtocolParameterError FeeRates} :
    FeeInv { fees
             fetchedAt := if c.working && s.fees.asksCustody c then
               s.fetchedAt.set (toUpperCase c.market) c.slot else s.fetchedAt
             slot := c.slot } ∧
      ∃ r, [({ working := c.working, slot := c.slot, result
               fetchedAt := (if c.working && s.fees.asksCustody c then
                 s.fetchedAt.set (toUpperCase c.market) c.slot else s.fetchedAt).get?
                   (toUpperCase c.market)
               before := (s.fees.feeCache.get? (toUpperCase c.market)).map CacheEntry.rates
               after := (fees.feeCache.get? (toUpperCase c.market)).map CacheEntry.rates } :
          FeeRecord)] = [r] ∧ (r.Fresh ↔ KeepsFresh s (.call c)) := by
  have hworking : c.working = false := Bool.eq_false_iff.mpr fun h => hbroken ((working_iff c).mp h)
  rw [hworking, Bool.false_and, if_neg Bool.false_ne_true]
  refine ⟨hI.same hknown hcache, _, rfl, ?_⟩
  constructor
  · intro _ cached _
    exact ⟨fun h => absurd h hbroken, fun h => absurd h hcustody⟩
  · intro _
    exact ⟨fun h => (by cases h), not_replaced (by rw [hcache])⟩

/-- **One call**: the invariant is kept, and the record is fresh exactly under the
condition. -/
theorem call_fresh {s : FeeRun} (hI : FeeInv s) {c : FeeCall} (hslot : s.slot ≤ c.slot) :
    FeeInv (s.call c).1 ∧ ∃ r, (s.call c).2 = [r] ∧ (r.Fresh ↔ KeepsFresh s (.call c)) := by
  have hknown := looked_known hI hslot (toUpperCase c.market)
  have hcache := looked_feeCache s.fees (toUpperCase c.market) c.slot? c.now
  have hout := s.fees.getProtocolFeeRates_outcome c.market c.client c.slot? c.now
  unfold FeeRun.call
  dsimp only
  generalize s.fees.getProtocolFeeRates c.market c.client c.slot? c.now = r at hout ⊢
  cases hout with
  | taken hcached htakes =>
    have hasks : s.fees.asksCustody c = false :=
      Bool.eq_false_iff.mpr fun h => (asksCustody_iff s.fees c).mp h _ hcached htakes
    rw [hasks, Bool.and_false, if_neg Bool.false_ne_true]
    refine ⟨hI.same hknown hcache, _, rfl, ?_⟩
    constructor
    · rintro ⟨hfresh, -⟩ cached' hmem
      obtain rfl := Option.mem_unique hcached hmem
      refine ⟨fun hworking _ => ?_, fun _ _ => htakes⟩
      obtain ⟨rates, hok, hsource, hrecent⟩ := hfresh ((working_iff c).mpr hworking)
      obtain rfl := Except.ok.inj hok
      exact ⟨hsource, hrecent⟩
    · intro hkeeps
      refine ⟨fun hworking => ?_, not_replaced (by rw [hcache])⟩
      rcases htakes with hbySlot | hbyTime
      · exact ⟨_, rfl, hI.takenBySlot hcached hbySlot⟩
      · exact ⟨_, rfl, (hkeeps _ hcached).1 ((working_iff c).mp hworking) hbyTime⟩
  | @fetched account rates hold hclient hrates =>
    have hworking : c.working = true := (working_iff c).mpr ⟨account, rates, hclient, hrates⟩
    have hsource : rates.source = .onChain := (readCustody_valid hrates).2
    rw [hworking, (asksCustody_iff s.fees c).mpr hold, Bool.and_true, if_pos rfl]
    refine ⟨⟨hknown, fun market entry hentry hpos => ?_⟩, _, rfl, ?_⟩
    · rcases storeOnChain_get? hentry with ⟨rfl, rfl⟩ | ⟨hne, hbefore⟩
      · exact ⟨hsource, c.slot, OrderedMap.get?_set_self _ _ _, hknown⟩
      · rw [hcache] at hbefore
        rw [OrderedMap.get?_set_of_ne hne]
        exact hI.entries market entry hbefore hpos
    · constructor
      · intro _ cached hmem
        refine ⟨fun _ htime => absurd (.inr htime) (hold cached hmem), fun hlacks => ?_⟩
        exact absurd hlacks (not_lacksCustody hclient fun h => (by cases h))
      · intro _
        refine ⟨fun _ => ⟨rates, rfl, hsource, c.slot, OrderedMap.get?_set_self _ _ _, ?_⟩, ?_⟩
        · exact Nat.lt_add_of_pos_right (by decide)
        · rintro ⟨old, -, new, hnew, -, hdefault⟩
          obtain ⟨entry, hentry, rfl⟩ := Option.map_eq_some_iff.mp hnew
          rcases storeOnChain_get? hentry with ⟨-, rfl⟩ | ⟨hne, -⟩
          · rw [hsource] at hdefault
            cases hdefault
          · exact hne rfl
  | @threw account error hold hclient herror =>
    have hbroken : ¬ c.Working := by
      rintro ⟨account', rates, hsame, hok⟩
      rw [hclient] at hsame
      obtain rfl : account = account' := by simpa using hsame
      rw [herror] at hok
      cases hok
    exact idle_fresh hI hknown hcache hbroken (not_lacksCustody hclient fun h => (by cases h))
  | stale hcached hold hclient hsource =>
    have hbroken : ¬ c.Working := by
      rintro ⟨account, rates, hsame, -⟩
      rw [hclient] at hsame
      cases hsame
    exact idle_fresh hI hknown hcache hbroken (not_lacksCustody hclient fun h => (by cases h))
  | defaults hold hwhy =>
    have hbroken : ¬ c.Working := by
      rintro ⟨account, rates, hsame, -⟩
      rcases hwhy with hlacks | ⟨hfailed, -⟩
      · exact not_lacksCustody hsame (fun h => by cases h) hlacks
      · rw [hfailed] at hsame
        cases hsame
    have hworking : c.working = false :=
      Bool.eq_false_iff.mpr fun h => hbroken ((working_iff c).mp h)
    obtain ⟨-, hdefault⟩ := defaultRates_valid (toUpperCase c.market)
    rw [hworking, Bool.false_and, if_neg Bool.false_ne_true]
    refine ⟨⟨hknown, fun market entry hentry hpos => ?_⟩, _, rfl, ?_⟩
    · rcases OrderedMap.get?_set_eq_some.mp hentry with ⟨-, rfl⟩ | ⟨-, hbefore⟩
      · exact absurd hpos (lt_irrefl 0)
      · rw [hcache] at hbefore
        exact hI.entries market entry hbefore hpos
    · constructor
      · rintro ⟨-, hkept⟩ cached hmem
        refine ⟨fun h => absurd h hbroken, fun _ hsource => absurd ?_ hkept⟩
        refine ⟨cached.rates, Option.mem_map_of_mem _ hmem, defaultRates (toUpperCase c.market), ?_,
          hsource, hdefault⟩
        unfold storeDefaults
        dsimp only
        rw [OrderedMap.get?_set_self]
        rfl
      · intro hkeeps
        refine ⟨fun h => (by cases h), ?_⟩
        rintro ⟨old, hold', -, -, hsource, -⟩
        obtain ⟨cached, hcached, rfl⟩ := Option.map_eq_some_iff.mp hold'
        rcases hwhy with hlacks | ⟨-, hother⟩
        · exact hold cached hcached ((hkeeps cached hcached).2 hlacks hsource)
        · exact hother cached hcached hsource

theorem step_freshRates {s s' : FeeRun} {a : FeeAction} {h es : List FeeRecord}
    (hI : FeeInv s ∧ FreshRates h) (hs : s.step a = some (s', es)) :
    (KeepsFresh s a ∧ FeeInv s' ∧ FreshRates (h ++ es)) ∨
      (¬ KeepsFresh s a ∧ ¬ FreshRates (h ++ es)) := by
  obtain ⟨hinv, hfresh⟩ := hI
  cases a with
  | sweepExpiredCache now =>
    obtain ⟨rfl, rfl⟩ := Machine.some_pair hs
    refine .inl ⟨trivial, ⟨hinv.known, fun market entry hentry hpos => ?_⟩, ?_⟩
    · exact hinv.entries market entry (OrderedMap.get?_filter.mp hentry).1 hpos
    · rw [List.append_nil]
      exact hfresh
  | call c =>
    unfold FeeRun.step at hs
    dsimp only at hs
    split at hs
    · cases hs
    · next hslot =>
      obtain ⟨rfl, rfl⟩ := Machine.some_pair hs
      obtain ⟨hinv', r, hr, hiff⟩ := call_fresh hinv (not_lt.mp hslot)
      rw [hr]
      by_cases hgood : KeepsFresh s (.call c)
      · refine .inl ⟨hgood, hinv', fun r' hr' => ?_⟩
        rcases List.mem_append.mp hr' with hold | hnew
        · exact hfresh r' hold
        · obtain rfl := List.mem_singleton.mp hnew
          exact hiff.mpr hgood
      · refine .inr ⟨hgood, fun hall => hgood (hiff.mp (hall r ?_))⟩
        exact List.mem_append_right _ (List.mem_singleton_self r)

/-- **When the rates are fresh**: in a run a working client always gets rates that were read
from the chain less than 150 slots ago, and rates of the chain are never replaced by defaults
in the cache, exactly when no working client finds an entry that passes by the time alone and
is a default or too old, and no call without a custody finds an on-chain entry that does not
pass. -/
theorem freshRates_iff (as : List FeeAction) :
    feeRates.Always (fun _ h => FreshRates h) feeRates.init [] as ↔
      feeRates.Along (fun s _ a => KeepsFresh s a) feeRates.init [] as := by
  refine Machine.always_iff_along_of_step (I := fun s h => FeeInv s ∧ FreshRates h)
    (fun hI => hI.2) (fun hI hs => step_freshRates hI hs) ⟨⟨le_rfl, ?_⟩, ?_⟩ as
  · intro market entry hentry
    cases hentry
  · exact fun r hr => absurd hr List.not_mem_nil

/-- **Only valid rates are used.** In every run, whatever the custodies hold and whenever the
cache is swept, every rates that a call returns pass the checks. -/
theorem returned_rates_valid {s : FeeRun} {h : List FeeRecord} (hr : feeRates.Reachable s h) :
    ∀ r ∈ h, ∀ rates, r.result = .ok rates → Valid rates := by
  have hinit : feeRates.init.fees.ValidCache := fun market entry hentry => (by cases hentry)
  refine (Machine.Reachable.invariant (I := fun s h => s.fees.ValidCache ∧
    ∀ r ∈ h, ∀ rates, r.result = .ok rates → Valid rates)
    ⟨hinit, fun r hr => absurd hr List.not_mem_nil⟩ ?_ hr).2
  rintro s s' h es a ⟨hcache, hall⟩ hs
  cases a with
  | sweepExpiredCache now =>
    obtain ⟨rfl, rfl⟩ := Machine.some_pair hs
    refine ⟨fun market entry hentry => ?_, by rwa [List.append_nil]⟩
    exact hcache market entry (OrderedMap.get?_filter.mp hentry).1
  | call c =>
    simp only [feeRates, FeeRun.step] at hs
    split at hs
    · cases hs
    · obtain ⟨rfl, rfl⟩ := Machine.some_pair hs
      obtain ⟨hcache', hvalid⟩ := getRates_valid hcache c.market c.client c.slot? c.now
      refine ⟨hcache', fun r hr => ?_⟩
      rcases List.mem_append.mp hr with hold | hnew
      · exact hall r hold
      · obtain rfl := List.mem_singleton.mp hnew
        exact hvalid

/-- The first call reads the rates before any slot was fetched, and a second call gets them
999,000 slots later: the slot is fetched just then, and the entry has none. -/
def returnsOldRates : List FeeAction :=
  let account : CustodyAccount :=
    { openPosition := .finite 510000, closePosition := .finite 510000
      maxLeverage := .finite 10000000 }
  let call (slot : ℕ) (now : ℚ) : FeeCall :=
    { market := "SOL", client := some (.account account), slot, slotFetched := true, now }
  [.call (call 1000 1), .call (call 1000000 400000000)]

/-- Old as they are, they pass the checks. -/
theorem returned_rates_valid_twice : ∃ s h, feeRates.run returnsOldRates = some (s, h) ∧
    h.length = 2 ∧ ∀ r ∈ h, ∀ rates, r.result = .ok rates → Valid rates := by
  have hrun : (feeRates.run returnsOldRates).map (fun r => r.2.length) = some 2 := by
    decide +kernel
  obtain ⟨⟨s, h⟩, hr, hlength⟩ := Option.map_eq_some_iff.mp hrun
  exact ⟨s, h, hr, hlength, returned_rates_valid (Machine.reachable_of_run hr)⟩

theorem returned_old_rates : ∃ s h, feeRates.run returnsOldRates = some (s, h) ∧
    ¬ FreshRates h := by
  have hrun : (feeRates.run returnsOldRates).map
      (fun r => r.2.map fun r => (r.working, r.slot, r.fetchedAt)) =
        some [(true, 1000, some 1000), (true, 1000000, some 1000)] := by
    decide +kernel
  obtain ⟨⟨s, h⟩, hr, hrecords⟩ := Option.map_eq_some_iff.mp hrun
  refine ⟨s, h, hr, fun hfresh => ?_⟩
  have hmem : (true, 1000000, some 1000) ∈ h.map fun r => (r.working, r.slot, r.fetchedAt) := by
    rw [hrecords]
    exact List.mem_cons_of_mem _ (List.mem_singleton_self _)
  obtain ⟨r, hr, heq⟩ := List.mem_map.mp hmem
  obtain ⟨hworking, hrest⟩ := Prod.mk.inj heq
  obtain ⟨hslot, hfetched⟩ := Prod.mk.inj hrest
  obtain ⟨-, -, -, fetched, hsome, hage⟩ := (hfresh r hr).1 hworking
  rw [hfetched] at hsome
  obtain rfl := Option.some.inj hsome
  rw [hslot] at hage
  exact absurd hage (by decide)

end ProtocolFees

end FlashEdge
