import FlashEdge.Core.StateCache

/-!
# Which accounts the cache gives out

The refresh validates owner and size of what it stores, but the two reads store and return
what the network answers: the single one looks at the size only, and the batched one
returns even what it finds too large to store. `accountsValid_iff` says that the accounts
of the pools are the valid ones exactly in the runs in which the network answers the reads
with such accounts.
-/

namespace FlashEdge

namespace StateCache

variable {pools : List PoolCacheEntry} {s s' : StateCache} {h es : List CacheEvent}
  {a : CacheAction} {key : String} {account : AccountInfo} {now : ℤ}

/-! ## The property and the condition -/

/-- An account under the key of a custody or an oracle has an owner that is allowed for it,
and at most 10 MB of data. -/
def Valid (pools : List PoolCacheEntry) (key : String) (account : AccountInfo) : Prop :=
  (source pools key).isSome = true →
    validateOwner account (source pools key) = true ∧ account.dataLength ≤ MAX_DATA_LENGTH

def CacheValid (pools : List PoolCacheEntry) (s : StateCache) : Prop :=
  ∀ key cached, s.accountCache.get? key = some cached → Valid pools key cached.toAccountInfo

structure AccountsValid (pools : List PoolCacheEntry) (s : StateCache) (h : List CacheEvent) :
    Prop where
  cached : CacheValid pools s
  returned : ∀ key account, .returned key (some account) ∈ h → Valid pools key account

/-- A single read is answered with a valid account, or one that is too large; a batched one
with valid accounts. -/
def AnswersValid (pools : List PoolCacheEntry) (s : StateCache) (_ : List CacheEvent) :
    CacheAction → Prop
  | .accountAnswered call (some account) _ =>
    ∀ key cached, s.inFlight.get? call = some (.account key cached) →
      account.dataLength ≤ MAX_DATA_LENGTH → Valid pools key account
  | .accountsAnswered call accounts _ =>
    ∀ slots, s.inFlight.get? call = some (.accounts slots) →
      ∀ key account, (key, some account) ∈ fetched slots accounts → Valid pools key account
  | _ => True

/-! ## What is stored -/

theorem CacheValid.store (hs : CacheValid pools s) (hvalid : Valid pools key account) :
    CacheValid pools (s.store key account now) := by
  intro other cached hcached
  rcases OrderedMap.get?_set_eq_some.mp hcached with ⟨rfl, rfl⟩ | ⟨-, hold⟩
  · exact hvalid
  · exact hs other cached hold

/-- The loops write the cache only. -/
@[simp] theorem storeRefreshed_inFlight (slot : String × Option AccountInfo) :
    (s.storeRefreshed pools now slot).inFlight = s.inFlight := by
  rcases slot with ⟨key, _ | account⟩
  · rfl
  · simp only [storeRefreshed]
    split
    · rfl
    · split <;> rfl

@[simp] theorem storeFetched_inFlight (slot : String × Option AccountInfo) :
    (s.storeFetched now slot).inFlight = s.inFlight := by
  rcases slot with ⟨key, _ | account⟩
  · rfl
  · simp only [storeFetched]
    split <;> rfl

theorem CacheValid.storeRefreshed (hs : CacheValid pools s) (slot : String × Option AccountInfo) :
    CacheValid pools (s.storeRefreshed pools now slot) := by
  rcases slot with ⟨key, _ | account⟩
  · exact hs
  · simp only [StateCache.storeRefreshed]
    split
    · exact hs
    · rename_i howner
      split
      · exact hs
      · rename_i hsize
        refine hs.store fun _ => ⟨?_, Nat.le_of_not_lt hsize⟩
        simpa using howner

theorem CacheValid.storeFetched (hs : CacheValid pools s) (slot : String × Option AccountInfo)
    (hvalid : ∀ account, slot.2 = some account → Valid pools slot.1 account) :
    CacheValid pools (s.storeFetched now slot) := by
  rcases slot with ⟨key, _ | account⟩
  · exact hs
  · simp only [StateCache.storeFetched]
    split
    · exact hs
    · exact hs.store (hvalid account rfl)

/-! ## What a batched read returns -/

theorem mem_fill {slots : List (String × Option CachedAccount)}
    {accounts : List (Option AccountInfo)} (hmem : (key, some account) ∈ fill slots accounts) :
    (∃ cached, (key, some cached) ∈ slots ∧ cached.toAccountInfo = account) ∨
      (key, some account) ∈ fetched slots accounts := by
  induction slots, accounts using fill.induct with
  | case1 accounts => cases hmem
  | case2 held cached slots accounts ih =>
    rw [fill] at hmem
    rcases List.mem_cons.mp hmem with hhere | hrest
    · cases hhere
      exact Or.inl ⟨cached, List.mem_cons_self, rfl⟩
    · rcases ih hrest with ⟨found, hfound, hsame⟩ | hfetched
      · exact Or.inl ⟨found, List.mem_cons_of_mem _ hfound, hsame⟩
      · exact Or.inr hfetched
  | case3 missing slots ih =>
    rw [fill] at hmem
    rcases List.mem_cons.mp hmem with hhere | hrest
    · cases hhere
    · rcases ih hrest with ⟨found, hfound, hsame⟩ | hfetched
      · exact Or.inl ⟨found, List.mem_cons_of_mem _ hfound, hsame⟩
      · exact Or.inr (List.mem_cons_of_mem _ hfetched)
  | case4 missing slots answered accounts ih =>
    rw [fill] at hmem
    rcases List.mem_cons.mp hmem with hhere | hrest
    · cases hhere
      exact Or.inr List.mem_cons_self
    · rcases ih hrest with ⟨found, hfound, hsame⟩ | hfetched
      · exact Or.inl ⟨found, List.mem_cons_of_mem _ hfound, hsame⟩
      · exact Or.inr (List.mem_cons_of_mem _ hfetched)

theorem fill_of_fetched {slots : List (String × Option CachedAccount)}
    {accounts : List (Option AccountInfo)} (hmem : (key, some account) ∈ fetched slots accounts) :
    (key, some account) ∈ fill slots accounts := by
  induction slots, accounts using fill.induct with
  | case1 accounts => cases hmem
  | case2 held cached slots accounts ih => exact List.mem_cons_of_mem _ (ih hmem)
  | case3 missing slots ih =>
    rcases List.mem_cons.mp hmem with hhere | hrest
    · cases hhere
    · exact List.mem_cons_of_mem _ (ih hrest)
  | case4 missing slots answered accounts ih =>
    rcases List.mem_cons.mp hmem with hhere | hrest
    · rw [hhere]
      exact List.mem_cons_self
    · exact List.mem_cons_of_mem _ (ih hrest)

/-! ## The steps -/

/-- What a read holds while it waits is valid. -/
def Pending.Valid (pools : List PoolCacheEntry) : Pending → Prop
  | .account key cached =>
    ∀ found, cached = some found → StateCache.Valid pools key found.toAccountInfo
  | .accounts slots =>
    ∀ key found, (key, some found) ∈ slots → StateCache.Valid pools key found.toAccountInfo

structure CacheInv (pools : List PoolCacheEntry) (s : StateCache) (h : List CacheEvent) :
    Prop where
  valid : AccountsValid pools s h
  pending : ∀ call read, s.inFlight.get? call = some read → read.Valid pools

/-- Nothing is stored in an empty cache. -/
theorem cacheValid_empty (hempty : s.accountCache = .empty) : CacheValid pools s := by
  intro key found hfound
  rw [hempty] at hfound
  cases hfound

theorem CacheInv.init : CacheInv pools {} [] where
  valid := ⟨cacheValid_empty rfl, fun _ _ hnone => absurd hnone List.not_mem_nil⟩
  pending := by
    intro call read hread
    cases hread

/-- A step that returns valid accounts and keeps the cache valid. -/
theorem CacheInv.step_of (hI : CacheInv pools s h) (hcache : CacheValid pools s')
    (hreturned : ∀ key account, .returned key (some account) ∈ es → Valid pools key account)
    (hpending : ∀ call read, s'.inFlight.get? call = some read → read.Valid pools) :
    CacheInv pools s' (h ++ es) := by
  refine ⟨⟨hcache, fun key account hmem => ?_⟩, hpending⟩
  rcases List.mem_append.mp hmem with hold | hnew
  · exact hI.valid.returned key account hold
  · exact hreturned key account hnew

/-- A step that neither returns nor stores. -/
theorem CacheInv.quiet (hI : CacheInv pools s h) {refreshing : List String} :
    CacheInv pools { s with refreshing } (h ++ []) :=
  hI.step_of hI.valid.cached (fun _ _ hnone => absurd hnone List.not_mem_nil) hI.pending

/-- A read begins to wait with what it found. -/
theorem CacheInv.waits (hI : CacheInv pools s h) {read : Pending} (hread : read.Valid pools) :
    CacheInv pools { s with calls := s.calls + 1, inFlight := s.inFlight.set s.calls read }
      (h ++ []) := by
  refine hI.step_of hI.valid.cached (fun _ _ hnone => absurd hnone List.not_mem_nil) ?_
  intro call other hother
  rcases OrderedMap.get?_set_eq_some.mp hother with ⟨-, rfl⟩ | ⟨-, hold⟩
  · exact hread
  · exact hI.pending call other hold

/-- What is still waited for when one read is over. -/
theorem CacheInv.finished (hI : CacheInv pools s h) (done : ℕ) {call : ℕ} {read : Pending}
    (hread : (s.finish done).inFlight.get? call = some read) : read.Valid pools :=
  hI.pending call read (OrderedMap.get?_delete_eq_some.mp hread).2

theorem fresh_valid (hs : CacheValid pools s) {found : CachedAccount}
    (hfound : (s.accountCache.get? key).filter (·.fresh now) = some found) :
    Valid pools key found.toAccountInfo :=
  hs key found (Option.filter_eq_some_iff.mp hfound).1

theorem CacheInv.getAccount (hI : CacheInv pools s h) (key : String) (now : ℤ) :
    CacheInv pools (s.getAccount key now).1 (h ++ (s.getAccount key now).2) := by
  unfold StateCache.getAccount
  dsimp only
  split
  · rename_i fresh hfresh
    refine hI.step_of hI.valid.cached (fun other account hmem => ?_) hI.pending
    cases List.mem_singleton.mp hmem
    exact fresh_valid hI.valid.cached hfresh
  · exact hI.waits fun found hfound => hI.valid.cached key found hfound

theorem CacheInv.getAccounts (hI : CacheInv pools s h) (keys : List String) (now : ℤ) :
    CacheInv pools (s.getAccounts keys now).1 (h ++ (s.getAccounts keys now).2) := by
  have hslots : ∀ key found,
      (key, some found) ∈ keys.map (fun key =>
        (key, (s.accountCache.get? key).filter (·.fresh now))) →
      Valid pools key found.toAccountInfo := by
    intro key found hmem
    obtain ⟨asked, -, hslot⟩ := List.mem_map.mp hmem
    obtain ⟨rfl, hfresh⟩ := Prod.mk.inj hslot
    exact fresh_valid hI.valid.cached hfresh
  unfold StateCache.getAccounts
  dsimp only
  split
  · refine hI.step_of hI.valid.cached (fun key account hmem => ?_) hI.pending
    obtain ⟨⟨asked, held⟩, hslot, hevent⟩ := List.mem_map.mp hmem
    obtain ⟨rfl, hmapped⟩ := CacheEvent.returned.inj hevent
    obtain ⟨found, rfl, rfl⟩ := Option.map_eq_some_iff.mp hmapped
    exact hslots asked found hslot
  · exact hI.waits hslots

theorem CacheInv.readFailed (hI : CacheInv pools s h) {call : ℕ} {read : Pending}
    (hread : s.inFlight.get? call = some read) :
    CacheInv pools (s.finish call) (h ++ s.readFailed read) := by
  have hvalid := hI.pending call read hread
  refine hI.step_of hI.valid.cached (fun key account hmem => ?_) fun _ _ => hI.finished call
  cases read with
  | account key cached =>
    obtain ⟨rfl, hfound⟩ := CacheEvent.returned.inj (List.mem_singleton.mp hmem)
    obtain ⟨found, rfl, rfl⟩ := Option.map_eq_some_iff.mp hfound.symm
    exact hvalid found rfl
  | accounts slots =>
    obtain ⟨⟨asked, held⟩, hslot, hevent⟩ := List.mem_map.mp hmem
    obtain ⟨rfl, hmapped⟩ := CacheEvent.returned.inj hevent
    obtain ⟨found, hfound, rfl⟩ := Option.map_eq_some_iff.mp hmapped
    rcases Option.or_eq_some_iff.mp hfound with hheld | ⟨-, hstale⟩
    · obtain rfl : held = some found := hheld
      exact hvalid asked found hslot
    · exact hI.valid.cached asked found hstale

theorem CacheInv.batchAnswered (hI : CacheInv pools s h) (accounts : List (Option AccountInfo))
    (now : ℤ) : CacheInv pools (s.batchAnswered pools accounts now) (h ++ []) := by
  let P := fun t : StateCache => CacheValid pools t ∧ t.inFlight = s.inFlight
  have hstored : P (((s.refreshing.take BATCH_SIZE).zip accounts).foldl
      (StateCache.storeRefreshed pools now) s) := by
    refine List.foldlRecOn _ _ ⟨hI.valid.cached, rfl⟩ fun t ht slot _ => ?_
    exact ⟨ht.1.storeRefreshed slot, (storeRefreshed_inFlight slot).trans ht.2⟩
  refine hI.step_of hstored.1 (fun _ _ hnone => absurd hnone List.not_mem_nil) ?_
  intro call read hread
  exact hI.pending call read (hstored.2 ▸ hread)

/-! ## The answers -/

theorem CacheInv.accountAnswered (hI : CacheInv pools s h) {call : ℕ} {key : String}
    {cached : Option CachedAccount} (hread : s.inFlight.get? call = some (.account key cached))
    (answer : Option AccountInfo) (now : ℤ)
    (hstep : (s.finish call).accountAnswered key answer now = (s', es)) :
    (AnswersValid pools s h (.accountAnswered call answer now) ∧ CacheInv pools s' (h ++ es)) ∨
      (¬ AnswersValid pools s h (.accountAnswered call answer now) ∧
        ¬ AccountsValid pools s' (h ++ es)) := by
  cases answer with
  | none =>
    cases hstep
    refine Or.inl ⟨trivial, hI.step_of hI.valid.cached (fun other account hmem => ?_)
      fun _ _ => hI.finished call⟩
    cases List.mem_singleton.mp hmem
  | some account =>
    simp only [StateCache.accountAnswered] at hstep
    split at hstep
    · rename_i hlarge
      cases hstep
      refine Or.inl ⟨fun _ _ _ hsize => absurd hlarge (Nat.not_lt_of_le hsize),
        hI.step_of hI.valid.cached (fun other found hmem => ?_) fun _ _ => hI.finished call⟩
      cases List.mem_singleton.mp hmem
    · rename_i hsize
      cases hstep
      by_cases hvalid : Valid pools key account
      · refine Or.inl ⟨fun other cached hother _ => ?_,
          hI.step_of (CacheValid.store hI.valid.cached hvalid) (fun other found hmem => ?_)
            fun _ _ => hI.finished call⟩
        · cases hread.symm.trans hother
          exact hvalid
        · cases List.mem_singleton.mp hmem
          exact hvalid
      · refine Or.inr ⟨fun hanswers => ?_, fun hafter => ?_⟩
        · exact hvalid (hanswers key cached hread (Nat.le_of_not_lt hsize))
        · exact hvalid (hafter.returned key account (List.mem_append_right h List.mem_cons_self))

theorem CacheInv.accountsAnswered (hI : CacheInv pools s h) {call : ℕ}
    {slots : List (String × Option CachedAccount)}
    (hread : s.inFlight.get? call = some (.accounts slots))
    (accounts : List (Option AccountInfo)) (now : ℤ)
    (hstep : (s.finish call).accountsAnswered slots accounts now = (s', es)) :
    (AnswersValid pools s h (.accountsAnswered call accounts now) ∧ CacheInv pools s' (h ++ es)) ∨
      (¬ AnswersValid pools s h (.accountsAnswered call accounts now) ∧
        ¬ AccountsValid pools s' (h ++ es)) := by
  have hheld := hI.pending call _ hread
  cases hstep
  by_cases hvalid : ∀ key account, (key, some account) ∈ fetched slots accounts →
      Valid pools key account
  · let P := fun t : StateCache => CacheValid pools t ∧ t.inFlight = (s.finish call).inFlight
    have hstored : P ((fetched slots accounts).foldl (StateCache.storeFetched now)
        (s.finish call)) := by
      refine List.foldlRecOn _ _ ⟨hI.valid.cached, rfl⟩ fun t ht slot hslot => ?_
      refine ⟨ht.1.storeFetched slot fun account haccount => ?_,
        (storeFetched_inFlight slot).trans ht.2⟩
      exact hvalid slot.1 account (haccount ▸ hslot)
    refine Or.inl ⟨fun other hother => ?_, hI.step_of hstored.1 (fun key account hmem => ?_) ?_⟩
    · cases hread.symm.trans hother
      exact hvalid
    · obtain ⟨⟨asked, result⟩, hfill, hevent⟩ := List.mem_map.mp hmem
      obtain ⟨rfl, rfl⟩ := CacheEvent.returned.inj hevent
      rcases mem_fill hfill with ⟨found, hslot, rfl⟩ | hfetched
      · exact hheld asked found hslot
      · exact hvalid asked account hfetched
    · intro other read hother
      exact hI.finished call (hstored.2 ▸ hother)
  · simp only [not_forall] at hvalid
    obtain ⟨key, account, hfetched, hinvalid⟩ := hvalid
    refine Or.inr ⟨fun hanswers => hinvalid (hanswers slots hread key account hfetched),
      fun hafter => hinvalid (hafter.returned key account (List.mem_append_right h ?_))⟩
    exact List.mem_map.mpr ⟨(key, some account), fill_of_fetched hfetched, rfl⟩

theorem accountsValid_iff (pools : List PoolCacheEntry) (as : List CacheAction) :
    (stateCache pools).Always (AccountsValid pools) (stateCache pools).init [] as ↔
      (stateCache pools).Along (AnswersValid pools) (stateCache pools).init [] as := by
  refine Machine.always_iff_along_of_step (I := CacheInv pools) (fun hI => hI.valid) ?_
    CacheInv.init as
  intro s h a s' es hI hs
  cases a with
  | refresh =>
    cases hs
    refine Or.inl ⟨trivial, ?_⟩
    unfold refresh
    split
    · exact hI.quiet
    · exact hI.quiet
  | batchAnswered accounts now =>
    simp only [stateCache, step] at hs
    split at hs
    · cases hs
    · cases hs
      exact Or.inl ⟨trivial, hI.batchAnswered accounts now⟩
  | batchFailed =>
    simp only [stateCache, step] at hs
    split at hs
    · cases hs
    · cases hs
      exact Or.inl ⟨trivial, hI.quiet⟩
  | getAccount key now =>
    obtain ⟨rfl, rfl⟩ := Machine.some_pair hs
    exact Or.inl ⟨trivial, hI.getAccount key now⟩
  | accountAnswered call account now =>
    simp only [stateCache, step] at hs
    split at hs
    · rename_i key cached hread
      exact hI.accountAnswered hread account now (Option.some.inj hs)
    · cases hs
  | getAccounts keys now =>
    obtain ⟨rfl, rfl⟩ := Machine.some_pair hs
    exact Or.inl ⟨trivial, hI.getAccounts keys now⟩
  | accountsAnswered call accounts now =>
    simp only [stateCache, step] at hs
    split at hs
    · rename_i slots hread
      exact hI.accountsAnswered hread accounts now (Option.some.inj hs)
    · cases hs
  | readFailed call =>
    simp only [stateCache, step] at hs
    split at hs
    · rename_i read hread
      cases hs
      exact Or.inl ⟨trivial, hI.readFailed hread⟩
    · cases hs
  | shutdown =>
    cases hs
    refine Or.inl ⟨trivial, hI.step_of (cacheValid_empty rfl)
      (fun _ _ hnone => absurd hnone List.not_mem_nil) hI.pending⟩

/-! ## An account of another program -/

/-- A pool with one custody. -/
def onePool : List PoolCacheEntry := [⟨["custody"], []⟩]

/-- An account of the system program. -/
def foreign : AccountInfo := ⟨"11111111111111111111111111111111", 0, 1⟩

/-- A read of the custody before the first refresh is answered with it. -/
theorem not_accountsValid :
    ¬ ∀ s h, (stateCache onePool).Reachable s h → AccountsValid onePool s h := by
  intro hall
  have hrun : ((stateCache onePool).run
      [.getAccount "custody" 0, .accountAnswered 0 (some foreign) 0]).map Prod.snd =
        some [.returned "custody" (some foreign)] := by decide
  obtain ⟨⟨s, h⟩, hrun, hevents⟩ := Option.map_eq_some_iff.mp hrun
  dsimp only at hevents
  subst hevents
  have hvalid := (hall s _ (Machine.reachable_of_run hrun)).returned "custody" foreign
    List.mem_cons_self (by decide)
  exact absurd hvalid.1 (by decide)

end StateCache

end FlashEdge
