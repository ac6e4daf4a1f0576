import Mathlib.Data.List.Induction
import FlashEdge.Client.MagicTradeClient
import FlashEdge.Theory.Machine

/-!
# Which signature a Magic trade is answered with

A call of the Magic client that resolves reports a signature. It should be the
signature of a transaction submitted for this call, or, the cache being there
for the "idempotent retry" of a trade that was just signed, the signature of the
same trade if nothing else has been submitted on its position since
(`Answered`). An entry of the cache lives a minute, though, and what happens to
the position in this minute does not touch it.

- `not_answered`: open, close, open, close within a minute; the second close is
  answered with the signature of the first one, and nothing is sent.
- `answered_iff`: every call of a run is answered rightly exactly when every
  call that finds an entry repeats, with the same arguments, the completed trade
  whose transaction is the last one submitted on the position.
-/

namespace FlashEdge

namespace MagicTradeClient

/-! ## The last transaction of a position -/

/-- A transaction submitted for a call, and whether the call has resolved since. -/
structure Transaction where
  call : ℕ
  trade : Trade
  sig : String
  completed : Bool
deriving DecidableEq, Repr

/-- One event more, for a position of which `last` is the last transaction. -/
def nextTransaction (position : String × TradeSide) (last : Option Transaction) :
    Event → Option Transaction
  | .submitted call trade sig =>
    if trade.position = position then some { call, trade, sig, completed := false } else last
  | .resolved call trade _ =>
    if trade.position = position then
      last.map fun l => if l.call = call then { l with completed := true } else l
    else last
  | .thrown _ _ => last

/-- The last transaction submitted on a position. -/
def lastTransaction (h : List Event) (position : String × TradeSide) : Option Transaction :=
  h.foldl (nextTransaction position) none

/-- The signature a call resolves with is that of a transaction submitted for
this call, or of the same trade completed earlier, if this is still the last
transaction on the position. -/
def Answered (past : List Event) : Event → Prop
  | .resolved call trade sig =>
    .submitted call trade sig ∈ past ∨
      ∃ l, lastTransaction past trade.position = some l ∧
        l.trade = trade ∧ l.sig = sig ∧ l.completed = true
  | _ => True

/-! ## A close that is never sent -/

/-- A pool with one market. -/
def solPool : MagicPool where
  poolName := "Pool.0"
  custodies := [{ custodyAccount := "SolCustody", symbol := "SOL", decimals := 9 }]
  markets := [{ targetCustody := "SolCustody", collateralCustody := "SolCustody", side := .Long }]
  getCustodyFromSymbol symbol :=
    if symbol = "SOL" then some { custodyAccount := "SolCustody", symbol := "SOL", decimals := 9 }
    else none

/-- A long position is opened, closed, opened again with more collateral, and
closed again, four seconds apart. -/
def openCloseOpenClose : List Action :=
  [.call (.openPosition "SOL" .Long 10 2 none) 1000, .submit 0 "open-1", .finish 0 1500,
    .call (.closePosition "SOL" .Long none none none) 5000, .submit 1 "close-1", .finish 1 5500,
    .call (.openPosition "SOL" .Long 20 2 none) 9000, .submit 2 "open-2", .finish 2 9500,
    .call (.closePosition "SOL" .Long none none none) 13000]

def solTrade (operation : Operation) : Trade :=
  { targetSymbol := "SOL", side := .Long, lockSymbol := "SOL", operation }

/-- What is submitted and answered before the second close. -/
def beforeSecondClose : List Event :=
  [.submitted 0 (solTrade (.openPosition "USDC" 10 2)) "open-1",
    .resolved 0 (solTrade (.openPosition "USDC" 10 2)) "open-1",
    .submitted 1 (solTrade (.closePosition "USDC" none none)) "close-1",
    .resolved 1 (solTrade (.closePosition "USDC" none none)) "close-1",
    .submitted 2 (solTrade (.openPosition "USDC" 20 2)) "open-2",
    .resolved 2 (solTrade (.openPosition "USDC" 20 2)) "open-2"]

/-- The second close resolves with the signature of the first. -/
theorem not_answered :
    ¬ ∀ s h, (magicTradeClient solPool {}).Reachable s h → Each Answered h := by
  intro hall
  have hrun : ((magicTradeClient solPool {}).run openCloseOpenClose).map Prod.snd = some
      (beforeSecondClose ++
        [Event.resolved 3 (solTrade (.closePosition "USDC" none none)) "close-1"]) := by
    decide +kernel
  obtain ⟨⟨s, h⟩, hs, hh⟩ := Option.map_eq_some_iff.mp hrun
  rcases (hall s h (Machine.reachable_of_run hs)).of_split hh with hown | ⟨l, hlast, htrade, -⟩
  · exact absurd hown (by decide)
  · -- the last transaction on the position is the second open
    have hopen : l.trade = solTrade (.openPosition "USDC" 20 2) :=
      (Option.some.inj (congrArg (Option.map Transaction.trade) hlast)).symm
    rw [hopen] at htrade
    exact absurd htrade (by decide)

/-! ## Reading the last transaction off a history -/

theorem lastTransaction_append (h es : List Event) (position : String × TradeSide) :
    lastTransaction (h ++ es) position =
      es.foldl (nextTransaction position) (lastTransaction h position) :=
  List.foldl_append

theorem lastTransaction_thrown (h : List Event) (call : ℕ) (error : MagicError)
    (position : String × TradeSide) :
    lastTransaction (h ++ [Event.thrown call error]) position = lastTransaction h position :=
  lastTransaction_append h _ position

theorem lastTransaction_submitted (h : List Event) (call : ℕ) (trade : Trade) (sig : String)
    (position : String × TradeSide) :
    lastTransaction (h ++ [Event.submitted call trade sig]) position =
      if trade.position = position then some { call, trade, sig, completed := false }
      else lastTransaction h position :=
  lastTransaction_append h _ position

theorem lastTransaction_resolved (h : List Event) (call : ℕ) (trade : Trade) (sig : String)
    (position : String × TradeSide) :
    lastTransaction (h ++ [Event.resolved call trade sig]) position =
      if trade.position = position then
        (lastTransaction h position).map fun l =>
          if l.call = call then { l with completed := true } else l
      else lastTransaction h position :=
  lastTransaction_append h _ position

/-- The last transaction of a position was submitted, on this position. -/
theorem mem_of_lastTransaction {h : List Event} {position : String × TradeSide} {l : Transaction}
    (hl : lastTransaction h position = some l) :
    .submitted l.call l.trade l.sig ∈ h ∧ l.trade.position = position := by
  induction h using List.reverseRecOn generalizing l with
  | nil => cases hl
  | append_singleton h e ih =>
    have hkept : lastTransaction h position = some l →
        .submitted l.call l.trade l.sig ∈ h ++ [e] ∧ l.trade.position = position :=
      fun hl => ⟨List.mem_append_left _ (ih hl).1, (ih hl).2⟩
    cases e with
    | thrown call error => exact hkept (by rwa [lastTransaction_thrown] at hl)
    | submitted call trade sig =>
      rw [lastTransaction_submitted] at hl
      split at hl
      · next hpos =>
        obtain rfl := Option.some.inj hl
        exact ⟨List.mem_append_right _ (List.mem_singleton_self _), hpos⟩
      · exact hkept hl
    | resolved call trade sig =>
      rw [lastTransaction_resolved] at hl
      split at hl
      · obtain ⟨l₀, hl₀, rfl⟩ := Option.map_eq_some_iff.mp hl
        obtain ⟨hmem, hpos⟩ := ih hl₀
        split
        · exact ⟨List.mem_append_left _ hmem, hpos⟩
        · exact ⟨List.mem_append_left _ hmem, hpos⟩
      · exact hkept hl

/-- A call that has submitted nothing resolves without a trace. -/
theorem lastTransaction_resolved_of_fresh {h : List Event} {call : ℕ}
    (hfresh : ∀ trade sig, .submitted call trade sig ∉ h) (trade : Trade) (sig : String)
    (position : String × TradeSide) :
    lastTransaction (h ++ [Event.resolved call trade sig]) position =
      lastTransaction h position := by
  rw [lastTransaction_resolved]
  split
  · cases hl : lastTransaction h position with
    | none => rfl
    | some l =>
      have hne : l.call ≠ call := by
        rintro rfl
        exact hfresh _ _ (mem_of_lastTransaction hl).1
      rw [Option.map_some, if_neg hne]
  · rfl

/-! ## Keys -/

/-- The last character of a lock key tells the side. -/
theorem getLast?_lockKey (t : Trade) :
    t.lockKey.toList.getLast? = some (match t.side with | .Long => 'g' | .Short => 't') := by
  unfold Trade.lockKey
  rw [String.toList_append, List.getLast?_append]
  cases t.side <;> rfl

/-- The lock key determines the market and the side. -/
theorem position_of_lockKey {t t' : Trade} (h : t.lockKey = t'.lockKey) :
    t.position = t'.position := by
  have hside : t.side = t'.side := by
    have hlast := getLast?_lockKey t
    rw [h, getLast?_lockKey t'] at hlast
    cases hs : t.side <;> cases hs' : t'.side <;> rw [hs, hs'] at hlast
    · exact absurd hlast (by decide)
    · exact absurd hlast (by decide)
  unfold Trade.lockKey at h
  rw [hside, String.append_left_inj, String.append_left_inj] at h
  exact Prod.ext h hside

theorem lockKey_of_position {t t' : Trade} (h : t.position = t'.position) :
    t.lockKey = t'.lockKey := by
  obtain ⟨hsymbol, hside⟩ := Prod.mk.inj h
  unfold Trade.lockKey
  rw [hsymbol, hside]

/-- The lock key in a cache key. -/
def lockKeyOf : CacheKey → String
  | .open lockKey _ _ => lockKey
  | .close lockKey => lockKey
  | .add lockKey _ => lockKey
  | .remove lockKey _ => lockKey

theorem lockKey_of_cacheKey {t : Trade} {key : CacheKey} (h : t.cacheKey = some key) :
    lockKeyOf key = t.lockKey := by
  unfold Trade.cacheKey at h
  split at h <;> cases h <;> rfl

/-- Trades with one cache key are on one position. -/
theorem position_of_cacheKey {t t' : Trade} {key : CacheKey} (h : t.cacheKey = some key)
    (h' : t'.cacheKey = some key) : t.position = t'.position :=
  position_of_lockKey ((lockKey_of_cacheKey h).symm.trans (lockKey_of_cacheKey h'))

/-! ## What the course of an operation changes -/

variable {pool : MagicPool} {s s' : MagicTradeClient} {h : List Event}

/-- An admitted call holds a lock that was free; only the guard has changed besides. -/
theorem enter_ok {market : String} {side : TradeSide} {operation : Operation} {now : ℚ}
    {trade : Trade} (henter : enter pool s market side operation now = (s', .ok trade)) :
    trade.operation = operation ∧ trade.lockKey ∉ s.activeTrades ∧
      s' = { s with guard := s'.guard, activeTrades := s.activeTrades ++ [trade.lockKey] } := by
  unfold enter at henter
  dsimp only at henter
  split at henter
  · cases henter
  split at henter
  · cases henter
  split at henter
  · cases henter
  split at henter
  · cases henter
  · next s₁ hlock =>
    unfold acquireTradeLock at hlock
    split at hlock
    · cases hlock
    · next hfree =>
      split at hlock
      · cases hlock
      · cases hlock
        cases henter
        exact ⟨rfl, hfree, rfl⟩

/-- A call that is turned away changes the guard at most. -/
theorem enter_error {market : String} {side : TradeSide} {operation : Operation} {now : ℚ}
    {error : MagicError} (henter : enter pool s market side operation now = (s', .error error)) :
    s' = { s with guard := s'.guard } := by
  unfold enter at henter
  dsimp only at henter
  split at henter
  · cases henter
    rfl
  split at henter
  · cases henter
    rfl
  split at henter
  · cases henter
    rfl
  split at henter
  · cases henter
    rfl
  · cases henter

/-- Looking a trade up drops entries of the cache, and nothing else happens. -/
theorem cached_state {trade : Trade} {now : ℚ} {found : Option String}
    (hcached : s.cached trade now = (s', found)) :
    s' = { s with recentTrades := s'.recentTrades } ∧
      ∀ key r, s'.recentTrades.get? key = some r → s.recentTrades.get? key = some r := by
  unfold cached at hcached
  split at hcached
  · cases hcached
    exact ⟨rfl, fun _ _ hr => hr⟩
  · cases hcached
    exact ⟨rfl, fun _ _ hr => (OrderedMap.get?_filter.mp hr).1⟩

/-- A signature that is found is that of an entry under the key of the trade. -/
theorem cached_some {trade : Trade} {now : ℚ} {sig : String}
    (hcached : s.cached trade now = (s', some sig)) :
    ∃ key r, trade.cacheKey = some key ∧ s.recentTrades.get? key = some r ∧ r.sig = sig := by
  unfold cached at hcached
  split at hcached
  · cases hcached
  · next key hkey =>
    have hfound := congrArg Prod.snd hcached
    obtain ⟨hsig, -⟩ := Option.filter_eq_some_iff.mp hfound
    unfold checkRecentTrade at hsig
    dsimp only at hsig
    split at hsig
    · next r hr =>
      split at hsig
      · exact ⟨key, r, hkey, (OrderedMap.get?_filter.mp hr).1, Option.some.inj hsig⟩
      · cases hsig
    · cases hsig

/-! ## The invariant -/

/-- What a run keeps while its calls are answered rightly.
* `exclusive`: two calls do not wait on one position, since each holds its lock;
* `last`: so a waiting call's transaction is the last one of its position;
* `recent`: an entry of the cache under the key of a completed last transaction
  holds its signature. -/
structure Tracked (s : MagicTradeClient) (h : List Event) : Prop where
  answered : Each Answered h
  submittedCalls : ∀ call trade sig, .submitted call trade sig ∈ h → call < s.calls
  pendingCalls : ∀ call p, s.pending.get? call = some p → call < s.calls
  locked : ∀ call p, s.pending.get? call = some p → p.trade.lockKey ∈ s.activeTrades
  exclusive : ∀ call p call' p', s.pending.get? call = some p →
    s.pending.get? call' = some p' → p.trade.position = p'.trade.position → call = call'
  last : ∀ call p sig, s.pending.get? call = some p → p.signatures.getLast? = some sig →
    lastTransaction h p.trade.position = some { call, trade := p.trade, sig, completed := false }
  recent : ∀ position l key r, lastTransaction h position = some l → l.completed = true →
    l.trade.cacheKey = some key → s.recentTrades.get? key = some r → r.sig = l.sig

theorem tracked_init (config : SigningGuardConfig) :
    Tracked (magicTradeClient pool config).init [] where
  answered := .nil
  submittedCalls _ _ _ hmem := by cases hmem
  pendingCalls _ _ hp := by cases hp
  locked _ _ hp := by cases hp
  exclusive _ _ _ _ hp := by cases hp
  last _ _ _ hp := by cases hp
  recent _ _ _ _ hl := by cases hl

/-- A call that throws at once. -/
theorem Tracked.refused (ht : Tracked s h) {call : ℕ} (guard : SigningGuard)
    (error : MagicError) :
    Tracked { s with guard, calls := s.calls + 1 } (h ++ [Event.thrown call error]) where
  answered := ht.answered.snoc trivial
  submittedCalls call' trade sig hmem := by
    have hold : .submitted call' trade sig ∈ h := by simpa using hmem
    exact Nat.lt_succ_of_lt (ht.submittedCalls _ _ _ hold)
  pendingCalls call' p hp := Nat.lt_succ_of_lt (ht.pendingCalls call' p hp)
  locked := ht.locked
  exclusive := ht.exclusive
  last call' p sig hp hsig := by
    rw [lastTransaction_thrown]
    exact ht.last call' p sig hp hsig
  recent position l key r hl := by
    rw [lastTransaction_thrown] at hl
    exact ht.recent position l key r hl

/-- A call that is answered from the cache, for a repetition of the completed
trade that is the last on its position. -/
theorem Tracked.repeated (ht : Tracked s h) (guard : SigningGuard)
    {recentTrades : OrderedMap CacheKey RecentTrade}
    (hrecent : ∀ key r, recentTrades.get? key = some r → s.recentTrades.get? key = some r)
    {trade : Trade} {key : CacheKey} {r : RecentTrade} (hkey : trade.cacheKey = some key)
    (hr : s.recentTrades.get? key = some r)
    (hlast : ∃ l, lastTransaction h trade.position = some l ∧ l.trade = trade ∧
      l.completed = true) :
    Tracked { s with guard, recentTrades, calls := s.calls + 1 }
      (h ++ [Event.resolved s.calls trade r.sig]) := by
  -- this call has submitted nothing
  have hfresh : ∀ trade sig, .submitted s.calls trade sig ∉ h := fun trade sig hmem =>
    Nat.lt_irrefl _ (ht.submittedCalls _ _ _ hmem)
  have hsame := lastTransaction_resolved_of_fresh hfresh trade r.sig
  refine ⟨ht.answered.snoc (.inr ?_), fun call' trade' sig' hmem => ?_,
    fun call' p hp => Nat.lt_succ_of_lt (ht.pendingCalls call' p hp), ht.locked, ht.exclusive,
    fun call' p sig' hp hsig => ?_, fun position l key' r' hl hdone hkey' hr' => ?_⟩
  · obtain ⟨l, hl, htrade, hdone⟩ := hlast
    -- the entry holds the signature of the trade that is repeated
    have hsig : r.sig = l.sig := ht.recent _ l key r hl hdone (htrade ▸ hkey) hr
    exact ⟨l, hl, htrade, hsig.symm, hdone⟩
  · have hold : .submitted call' trade' sig' ∈ h := by simpa using hmem
    exact Nat.lt_succ_of_lt (ht.submittedCalls _ _ _ hold)
  · rw [hsame]
    exact ht.last call' p sig' hp hsig
  · rw [hsame] at hl
    exact ht.recent position l key' r' hl hdone hkey' (hrecent _ _ hr')

/-- A call that begins to wait, holding a lock that was free. -/
theorem Tracked.waiting (ht : Tracked s h) (guard : SigningGuard)
    {recentTrades : OrderedMap CacheKey RecentTrade}
    (hrecent : ∀ key r, recentTrades.get? key = some r → s.recentTrades.get? key = some r)
    {trade : Trade} (hfree : trade.lockKey ∉ s.activeTrades) :
    Tracked
      { s with
        guard, recentTrades
        activeTrades := s.activeTrades ++ [trade.lockKey]
        pending := s.pending.set s.calls { trade }
        calls := s.calls + 1 } (h ++ []) := by
  rw [List.append_nil]
  -- the calls that wait: the new one, or one that did before
  have hcases : ∀ {call p}, (s.pending.set s.calls { trade }).get? call = some p →
      (call = s.calls ∧ p = { trade }) ∨ s.pending.get? call = some p := by
    intro call p hp
    rcases OrderedMap.get?_set_eq_some.mp hp with ⟨hcall, hnew⟩ | ⟨-, hp⟩
    · exact .inl ⟨hcall, hnew.symm⟩
    · exact .inr hp
  have hother : ∀ {call p}, s.pending.get? call = some p → p.trade.position ≠ trade.position := by
    intro call p hp hpos
    have hkey : p.trade.lockKey = trade.lockKey := lockKey_of_position hpos
    exact hfree (hkey ▸ ht.locked call p hp)
  refine ⟨ht.answered, fun call' trade' sig' hmem =>
    Nat.lt_succ_of_lt (ht.submittedCalls _ _ _ hmem), fun call' p hp => ?_, fun call' p hp => ?_,
    fun call₁ p₁ call₂ p₂ h₁ h₂ hpos => ?_, fun call' p sig' hp hsig => ?_,
    fun position l key r hl hdone hkey hr =>
      ht.recent position l key r hl hdone hkey (hrecent _ _ hr)⟩
  · rcases hcases hp with ⟨rfl, -⟩ | hp
    · exact Nat.lt_succ_self _
    · exact Nat.lt_succ_of_lt (ht.pendingCalls call' p hp)
  · rcases hcases hp with ⟨-, rfl⟩ | hp
    · exact List.mem_append_right _ (List.mem_singleton_self _)
    · exact List.mem_append_left _ (ht.locked call' p hp)
  · rcases hcases h₁ with ⟨rfl, rfl⟩ | h₁ <;> rcases hcases h₂ with ⟨rfl, rfl⟩ | h₂
    · rfl
    · exact absurd hpos.symm (hother h₂)
    · exact absurd hpos (hother h₁)
    · exact ht.exclusive call₁ p₁ call₂ p₂ h₁ h₂ hpos
  · rcases hcases hp with ⟨-, rfl⟩ | hp
    · cases hsig
    · exact ht.last call' p sig' hp hsig

/-- A transaction of a waiting call. -/
theorem Tracked.submit (ht : Tracked s h) {call : ℕ} {sig : String} {es : List Event}
    (hs : s.submit call sig = some (s', es)) : Tracked s' (h ++ es) := by
  unfold MagicTradeClient.submit at hs
  split at hs
  · cases hs
  next p hp =>
  split at hs
  · cases hs
  cases hs
  have hcases : ∀ {call' p'},
      (s.pending.set call { p with signatures := p.signatures ++ [sig] }).get? call' = some p' →
      (call' = call ∧ p' = { p with signatures := p.signatures ++ [sig] }) ∨
        (call' ≠ call ∧ s.pending.get? call' = some p') := by
    intro call' p' hp'
    rcases OrderedMap.get?_set_eq_some.mp hp' with ⟨hcall, hnew⟩ | hother
    · exact .inl ⟨hcall, hnew.symm⟩
    · exact .inr hother
  -- every waiting call waited before, for the same trade
  have hbefore : ∀ {call' p'},
      (s.pending.set call { p with signatures := p.signatures ++ [sig] }).get? call' = some p' →
      ∃ p₀, s.pending.get? call' = some p₀ ∧ p₀.trade = p'.trade := by
    intro call' p' hp'
    rcases hcases hp' with ⟨rfl, rfl⟩ | ⟨-, hp'⟩
    · exact ⟨p, hp, rfl⟩
    · exact ⟨p', hp', rfl⟩
  refine ⟨ht.answered.snoc trivial, fun call' trade' sig' hmem => ?_, fun call' p' hp' => ?_,
    fun call' p' hp' => ?_, fun call₁ p₁ call₂ p₂ h₁ h₂ hpos => ?_,
    fun call' p' sig' hp' hsig => ?_, fun position l key r hl hdone hkey hr => ?_⟩
  · rcases List.mem_append.mp hmem with hmem | hmem
    · exact ht.submittedCalls _ _ _ hmem
    · cases List.mem_singleton.mp hmem
      exact ht.pendingCalls call p hp
  · obtain ⟨p₀, hp₀, -⟩ := hbefore hp'
    exact ht.pendingCalls call' p₀ hp₀
  · obtain ⟨p₀, hp₀, htrade⟩ := hbefore hp'
    exact htrade ▸ ht.locked call' p₀ hp₀
  · obtain ⟨q₁, hq₁, htrade₁⟩ := hbefore h₁
    obtain ⟨q₂, hq₂, htrade₂⟩ := hbefore h₂
    exact ht.exclusive call₁ q₁ call₂ q₂ hq₁ hq₂ (by rw [htrade₁, htrade₂, hpos])
  · rw [lastTransaction_submitted]
    rcases hcases hp' with ⟨rfl, rfl⟩ | ⟨hne, hp'⟩
    · rw [if_pos rfl]
      obtain rfl : sig = sig' := by simpa using hsig
      rfl
    · -- other waiting calls are on other positions, since each holds its lock
      rw [if_neg fun hpos => hne (ht.exclusive call' p' call p hp' hp hpos.symm)]
      exact ht.last call' p' sig' hp' hsig
  · rw [lastTransaction_submitted] at hl
    split at hl
    · -- the new transaction is not completed
      cases hl
      cases hdone
    · exact ht.recent position l key r hl hdone hkey hr

/-- When a call leaves, those that still wait are on other positions, and keep
their locks. -/
theorem Tracked.others (ht : Tracked s h) {call : ℕ} {p : PendingTrade}
    (hp : s.pending.get? call = some p) {call' : ℕ} {p' : PendingTrade}
    (hp' : (s.pending.delete call).get? call' = some p') :
    s.pending.get? call' = some p' ∧ call' ≠ call ∧ p'.trade.position ≠ p.trade.position ∧
      p'.trade.lockKey ∈ s.activeTrades.filter (· ≠ p.trade.lockKey) := by
  obtain ⟨hne, hp'⟩ := OrderedMap.get?_delete_eq_some.mp hp'
  have hpos : p'.trade.position ≠ p.trade.position := fun hpos =>
    hne (ht.exclusive call' p' call p hp' hp hpos)
  have hkey : p'.trade.lockKey ≠ p.trade.lockKey := fun hkey => hpos (position_of_lockKey hkey)
  exact ⟨hp', hne, hpos,
    List.mem_filter.mpr ⟨ht.locked call' p' hp', decide_eq_true hkey⟩⟩

/-- A waiting call throws. -/
theorem Tracked.fail (ht : Tracked s h) {call : ℕ} {message : String} {es : List Event}
    (hs : s.fail call message = some (s', es)) : Tracked s' (h ++ es) := by
  obtain ⟨p, hp, hs⟩ := Option.map_eq_some_iff.mp hs
  cases hs
  refine ⟨ht.answered.snoc trivial, fun call' trade' sig' hmem => ?_,
    fun call' p' hp' => ht.pendingCalls call' p' (ht.others hp hp').1,
    fun call' p' hp' => (ht.others hp hp').2.2.2,
    fun call₁ p₁ call₂ p₂ h₁ h₂ hpos =>
      ht.exclusive call₁ p₁ call₂ p₂ (ht.others hp h₁).1 (ht.others hp h₂).1 hpos,
    fun call' p' sig' hp' hsig => ?_, fun position l key r hl => ?_⟩
  · have hold : .submitted call' trade' sig' ∈ h := by simpa using hmem
    exact ht.submittedCalls _ _ _ hold
  · rw [lastTransaction_thrown]
    exact ht.last call' p' sig' (ht.others hp hp').1 hsig
  · rw [lastTransaction_thrown] at hl
    exact ht.recent position l key r hl

/-- What the end of a successful call does: its signature is kept under its key,
and its lock is free. -/
theorem finish_cases {call : ℕ} {now : ℚ} {es : List Event}
    (hs : s.finish call now = some (s', es)) :
    ∃ p sig, s.pending.get? call = some p ∧ p.signatures.getLast? = some sig ∧
      es = [.resolved call p.trade sig] ∧ s'.pending = s.pending.delete call ∧
      s'.activeTrades = s.activeTrades.filter (· ≠ p.trade.lockKey) ∧ s'.calls = s.calls ∧
      ∀ key r, s'.recentTrades.get? key = some r →
        (p.trade.cacheKey = some key ∧ r.sig = sig) ∨
          (s.recentTrades.get? key = some r ∧ p.trade.cacheKey ≠ some key) := by
  unfold MagicTradeClient.finish at hs
  split at hs
  · cases hs
  next p hp =>
  obtain ⟨sig, hsig, hs⟩ := Option.map_eq_some_iff.mp hs
  dsimp only at hs
  obtain ⟨rfl, rfl⟩ := Prod.mk.inj hs
  refine ⟨p, sig, hp, hsig, rfl, ?_⟩
  cases hkey : p.trade.cacheKey with
  | none => exact ⟨rfl, rfl, rfl, fun key r hr => .inr ⟨hr, by simp⟩⟩
  | some key₀ =>
    refine ⟨rfl, rfl, rfl, fun key r hr => ?_⟩
    rcases OrderedMap.get?_set_eq_some.mp hr with ⟨heq, rfl⟩ | ⟨hne, hr⟩
    · exact .inl ⟨congrArg some heq.symm, rfl⟩
    · exact .inr ⟨hr, fun heq => hne (Option.some.inj heq).symm⟩

/-- A waiting call resolves, with the signature of its last transaction. -/
theorem Tracked.finish (ht : Tracked s h) {call : ℕ} {now : ℚ} {es : List Event}
    (hs : s.finish call now = some (s', es)) : Tracked s' (h ++ es) := by
  obtain ⟨p, sig, hp, hsig, rfl, hpending, hactive, hcalls, hrecent⟩ := finish_cases hs
  have hlast := ht.last call p sig hp hsig
  have hleft : ∀ {call' p'}, s'.pending.get? call' = some p' →
      s.pending.get? call' = some p' ∧ call' ≠ call ∧ p'.trade.position ≠ p.trade.position ∧
        p'.trade.lockKey ∈ s'.activeTrades := by
    intro call' p' hp'
    rw [hpending] at hp'
    rw [hactive]
    exact ht.others hp hp'
  refine ⟨ht.answered.snoc (.inl (mem_of_lastTransaction hlast).1),
    fun call' trade' sig' hmem => ?_, fun call' p' hp' => ?_,
    fun call' p' hp' => (hleft hp').2.2.2,
    fun call₁ p₁ call₂ p₂ h₁ h₂ hpos =>
      ht.exclusive call₁ p₁ call₂ p₂ (hleft h₁).1 (hleft h₂).1 hpos,
    fun call' p' sig' hp' hsig' => ?_, fun position l key r hl hdone hkey hr => ?_⟩
  · have hold : .submitted call' trade' sig' ∈ h := by simpa using hmem
    rw [hcalls]
    exact ht.submittedCalls _ _ _ hold
  · rw [hcalls]
    exact ht.pendingCalls call' p' (hleft hp').1
  · obtain ⟨hp₀, -, hpos, -⟩ := hleft hp'
    rw [lastTransaction_resolved, if_neg hpos.symm]
    exact ht.last call' p' sig' hp₀ hsig'
  · rw [lastTransaction_resolved] at hl
    split at hl
    · -- the position of this call: its own transaction is the last one
      next hpos =>
      rw [← hpos, hlast, Option.map_some, if_pos rfl] at hl
      cases hl
      rcases hrecent key r hr with ⟨-, hr⟩ | ⟨-, hne⟩
      · exact hr
      · exact absurd hkey hne
    · next hpos =>
      rcases hrecent key r hr with ⟨hown, -⟩ | ⟨hr, -⟩
      · have hon : l.trade.position = position := (mem_of_lastTransaction hl).2
        exact absurd ((position_of_cacheKey hown hkey).trans hon) hpos
      · exact ht.recent position l key r hl hdone hkey hr

/-! ## Calls -/

def Call.market : Call → String
  | .openPosition market _ _ _ _ => market
  | .closePosition market _ _ _ _ => market
  | .addCollateral market _ _ => market
  | .removeCollateral market _ _ => market
  | .decreasePosition market _ _ _ _ => market
  | .increasePosition market _ _ _ _ _ => market

def Call.side : Call → TradeSide
  | .openPosition _ side _ _ _ => side
  | .closePosition _ side _ _ _ => side
  | .addCollateral _ side _ => side
  | .removeCollateral _ side _ => side
  | .decreasePosition _ side _ _ _ => side
  | .increasePosition _ side _ _ _ _ => side

/-- What a call asks for. -/
def Call.operation : Call → Operation
  | .openPosition _ _ collateralAmount leverage collateralToken =>
    .openPosition (tokenOrUsdc collateralToken) collateralAmount leverage
  | .closePosition _ _ receiveToken closePercent closeAmount =>
    .closePosition (tokenOrUsdc receiveToken) closePercent closeAmount
  | .addCollateral _ _ amount => .addCollateral amount
  | .removeCollateral _ _ amount => .removeCollateral amount
  | .decreasePosition _ _ closeUsd receiveToken _ =>
    .decreasePosition (tokenOrUsdc receiveToken) closeUsd
  | .increasePosition _ _ addUsd addCollateralUsd collateralToken _ =>
    .increasePosition (tokenOrUsdc collateralToken) addUsd addCollateralUsd

/-- A call is admitted for a trade and finds a live entry of the cache. -/
def FindsRecent (pool : MagicPool) (s : MagicTradeClient) (c : Call) (now : ℚ)
    (trade : Trade) : Prop :=
  ∃ s₁ s₂ sig, enter pool { s with calls := s.calls + 1 } c.market c.side c.operation now =
    (s₁, .ok trade) ∧ s₁.cached trade now = (s₂, some sig)

/-- The condition on a step: a call that finds a live entry repeats the trade
whose transaction is the last one on its position, completed and with the same
arguments. -/
def RepeatsLast (pool : MagicPool) (s : MagicTradeClient) (h : List Event) : Action → Prop
  | .call c now => ∀ trade, FindsRecent pool s c now trade →
    ∃ l, lastTransaction h trade.position = some l ∧ l.trade = trade ∧ l.completed = true
  | _ => True

/-- Taking a free lock and releasing it changes nothing. -/
theorem filter_released {locks : List String} {key : String} (hfree : key ∉ locks) :
    (locks ++ [key]).filter (· ≠ key) = locks := by
  have hkept : locks.filter (· ≠ key) = locks :=
    List.filter_eq_self.mpr fun k hk => decide_eq_true fun heq => hfree (heq ▸ hk)
  have hgone : [key].filter (· ≠ key) = [] := List.filter_eq_nil_iff.mpr (by simp)
  rw [List.filter_append, hkept, hgone, List.append_nil]

/-- A call takes the common course, or it is a size change without a price. -/
theorem perform_cases (pool : MagicPool) (s : MagicTradeClient) (c : Call) (now : ℚ) :
    perform pool s now c = startTrade pool s c.market c.side c.operation now ∨
      ((∃ error, perform pool s now c =
          ({ s with calls := s.calls + 1 }, [.thrown s.calls error])) ∧
        ∀ trade : Trade, trade.operation = c.operation → trade.cacheKey = none) := by
  have hsize : ∀ (market : String) (side : TradeSide) (operation : Operation) (purpose : String)
      (price : JsNumber),
      changeSize pool s market side operation purpose price now =
          startTrade pool s market side operation now ∨
        ∃ error, changeSize pool s market side operation purpose price now =
          ({ s with calls := s.calls + 1 }, [.thrown s.calls error]) := by
    intro market side operation purpose price
    unfold changeSize
    split
    · exact .inr ⟨_, rfl⟩
    · exact .inl rfl
  cases c with
  | openPosition => exact .inl rfl
  | closePosition => exact .inl rfl
  | addCollateral => exact .inl rfl
  | removeCollateral => exact .inl rfl
  | decreasePosition market side closeUsd receiveToken price =>
    refine (hsize market side _ "partial close" price).imp id fun herror => ⟨herror, ?_⟩
    intro trade htrade
    unfold Trade.cacheKey
    rw [htrade]
    rfl
  | increasePosition market side addUsd addCollateralUsd token price =>
    refine (hsize market side _ "increase" price).imp id fun herror => ⟨herror, ?_⟩
    intro trade htrade
    unfold Trade.cacheKey
    rw [htrade]
    rfl

/-- The common course keeps the invariant. -/
theorem Tracked.start (ht : Tracked s h) {c : Call} {now : ℚ}
    (hrepeat : RepeatsLast pool s h (.call c now)) :
    Tracked (startTrade pool s c.market c.side c.operation now).1
      (h ++ (startTrade pool s c.market c.side c.operation now).2) := by
  unfold startTrade
  dsimp only
  split
  · next s₁ error henter =>
    rw [enter_error henter]
    exact ht.refused s₁.guard error
  · next s₁ trade henter =>
    obtain ⟨-, hfree, hs₁⟩ := enter_ok henter
    split
    · next s₂ sig hcached =>
      have hlast := hrepeat trade ⟨s₁, s₂, sig, henter, hcached⟩
      obtain ⟨key, r, hkey, hr, rfl⟩ := cached_some hcached
      obtain ⟨hs₂, hsub⟩ := cached_state hcached
      rw [hs₁] at hr hsub hs₂
      rw [hs₂]
      have hkept := ht.repeated s₁.guard hsub hkey hr hlast
      rw [releaseTradeLock]
      rwa [filter_released hfree]
    · next s₂ hcached =>
      obtain ⟨hs₂, hsub⟩ := cached_state hcached
      rw [hs₁] at hsub hs₂
      rw [hs₂]
      exact ht.waiting s₁.guard hsub hfree

/-- One step that meets the condition keeps the invariant. -/
theorem tracked_step {a : Action} {es : List Event} (ht : Tracked s h)
    (hrepeat : RepeatsLast pool s h a) (hs : step pool s a = some (s', es)) :
    Tracked s' (h ++ es) := by
  cases a with
  | call c now =>
    have hstart := ht.start hrepeat
    obtain ⟨rfl, rfl⟩ := Machine.some_pair hs
    rcases perform_cases pool s c now with hperform | ⟨⟨error, hperform⟩, -⟩
    · rwa [hperform]
    · rw [hperform]
      exact ht.refused s.guard error
  | submit call sig => exact ht.submit hs
  | finish call now => exact ht.finish hs
  | fail call message => exact ht.fail hs

/-- A call that finds the entry of another trade, or of one that other
transactions have followed, is answered with it all the same. -/
theorem not_answered_step {a : Action} {es : List Event} (ht : Tracked s h)
    (hrepeat : ¬ RepeatsLast pool s h a) (hs : step pool s a = some (s', es)) :
    ¬ Each Answered (h ++ es) := by
  cases a with
  | submit call sig => exact absurd trivial hrepeat
  | finish call now => exact absurd trivial hrepeat
  | fail call message => exact absurd trivial hrepeat
  | call c now =>
    rw [RepeatsLast] at hrepeat
    push Not at hrepeat
    obtain ⟨trade, ⟨s₁, s₂, sig, henter, hcached⟩, hlast⟩ := hrepeat
    obtain ⟨rfl, rfl⟩ := Machine.some_pair hs
    have hevents : (perform pool s now c).2 = [.resolved s.calls trade sig] := by
      rcases perform_cases pool s c now with hperform | ⟨-, hkey⟩
      · rw [hperform]
        unfold startTrade
        dsimp only
        rw [henter]
        dsimp only
        rw [hcached]
      · -- a size change finds nothing
        obtain ⟨key, r, hsome, -⟩ := cached_some hcached
        rw [hkey trade (enter_ok henter).1] at hsome
        cases hsome
    rw [hevents]
    intro hall
    rcases hall.of_split rfl with hown | ⟨l, hl, htrade, -, hdone⟩
    · exact Nat.lt_irrefl _ (ht.submittedCalls _ _ _ hown)
    · exact hlast l hl htrade hdone

/-- **Which runs answer rightly.** Along any run of calls, submissions and their
ends, in any order and over any clock, every call that resolves is answered with
a transaction of its own or with the completed trade it repeats exactly when
every call that finds a live entry repeats the trade whose transaction is the
last one on the position. -/
theorem answered_iff (pool : MagicPool) (config : SigningGuardConfig) (as : List Action) :
    (magicTradeClient pool config).Always (fun _ h => Each Answered h)
        (magicTradeClient pool config).init [] as ↔
      (magicTradeClient pool config).Along (RepeatsLast pool)
        (magicTradeClient pool config).init [] as :=
  Machine.always_iff_along (I := Tracked) (fun ht => ht.answered) tracked_step
    not_answered_step (tracked_init config) as

end MagicTradeClient

end FlashEdge
