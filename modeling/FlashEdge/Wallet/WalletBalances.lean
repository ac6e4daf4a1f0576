import FlashEdge.Wallet.WalletManager

/-!
# The balances are those of the wallet that asked, and not older than the last clear

A call should return balances of the key that was connected when it was made, from a fetch
that did not begin before the cache was last cleared (`Current`). The cache knows neither:
`loadFromFile` and `connectAddress` leave it as it is, a fetch that is under way while the
cache is cleared fills it again, and an attempt that is made again asks for the key that
is connected by then. `current_iff` says that nothing else goes wrong.
-/

namespace FlashEdge

namespace WalletManager

/-! ## The property -/

/-- What counts as the beginning of a fetch: the call, or the attempt that was answered. -/
inductive Beginning where
  | call
  | attempt
deriving DecidableEq, Repr

def Fetched.began (data : Fetched) : Beginning → ℕ
  | .call => data.clearsAtCall
  | .attempt => data.clearsAtAttempt

def Current (beginning : Beginning) : WalletEvent → Prop
  | .returned caller data =>
    data.address = caller.address ∧ caller.clears ≤ data.began beginning
  | .threw => True

def AllCurrent (beginning : Beginning) (_ : WalletManager) (h : List WalletEvent) : Prop :=
  ∀ e ∈ h, Current beginning e

/-! ## The condition -/

/-- No call is answered from the cache while another wallet is connected than the one it
was filled for, or after it was cleared during the fetch that filled it; and no fetch ends
whose last attempt was made for another wallet than its call. -/
def Undisturbed (beginning : Beginning) (s : WalletManager) (_ : List WalletEvent) :
    WalletAction → Prop
  | .getTokenBalances now => ∀ address cached, s.publicKey = some address →
      s.unexpired now = some cached →
      cached.data.address = address ∧ cached.stored ≤ cached.data.began beginning
  | .finished call _ _ => ∀ caller address connection clears answer,
      s.inFlight.get? call = some ⟨caller, .naming address connection clears answer⟩ →
      address = caller.address
  | _ => True

/-! ## The invariant -/

/-- An attempt is not older than its call. -/
def Call.InOrder (call : Call) : Prop :=
  match call.phase with
  | .asking _ _ _ clears => call.caller.clears ≤ clears
  | .waiting _ => True
  | .naming _ _ clears _ => call.caller.clears ≤ clears

/-- The cache was written after it was last cleared, and time goes on. -/
structure WalletInv (beginning : Beginning) (s : WalletManager) (h : List WalletEvent) : Prop where
  stored : ∀ cached, s.tokenBalancesCache = some cached → cached.stored = s.clears
  caller : ∀ n call, s.inFlight.get? n = some call → call.caller.clears ≤ s.clears
  inOrder : ∀ n call, s.inFlight.get? n = some call → call.InOrder
  current : AllCurrent beginning s h

variable {beginning : Beginning} {s s' : WalletManager} {h es : List WalletEvent}

theorem AllCurrent.append (hc : AllCurrent beginning s h) (hes : ∀ e ∈ es, Current beginning e) :
    AllCurrent beginning s' (h ++ es) := by
  intro e he
  rcases List.mem_append.mp he with he | he
  · exact hc e he
  · exact hes e he

theorem AllCurrent.throw (hc : AllCurrent beginning s h) :
    AllCurrent beginning s' (h ++ [WalletEvent.threw]) := by
  apply hc.append
  intro e he
  obtain rfl := List.mem_singleton.mp he
  trivial

theorem AllCurrent.silent (hc : AllCurrent beginning s h) :
    AllCurrent beginning s' (h ++ []) :=
  hc.append fun _ he => nomatch he

namespace WalletInv

theorem init (beginning : Beginning) : WalletInv beginning walletManager.init [] where
  stored := fun _ hcached => nomatch hcached
  caller := fun _ _ hcall => nomatch hcall
  inOrder := fun _ _ hcall => nomatch hcall
  current := fun _ he => nomatch he

/-- Who is connected does not matter. -/
theorem frame (hI : WalletInv beginning s h) (hcache : s'.tokenBalancesCache = none ∨
      s'.tokenBalancesCache = s.tokenBalancesCache) (hclears : s'.clears = s.clears)
    (hinFlight : s'.inFlight = s.inFlight) : WalletInv beginning s' (h ++ []) where
  stored := by
    intro cached hcached
    rcases hcache with hnone | hsame
    · rw [hnone] at hcached
      cases hcached
    · rw [hsame] at hcached
      rw [hclears]
      exact hI.stored cached hcached
  caller := by
    rw [hinFlight, hclears]
    exact hI.caller
  inOrder := by
    rw [hinFlight]
    exact hI.inOrder
  current := hI.current.silent

/-- The cache is cleared. -/
theorem clear (hI : WalletInv beginning s h) (hcache : s'.tokenBalancesCache = none)
    (hclears : s'.clears = s.clears + 1) (hinFlight : s'.inFlight = s.inFlight) :
    WalletInv beginning s' (h ++ []) where
  stored := by
    intro cached hcached
    rw [hcache] at hcached
    cases hcached
  caller := by
    rw [hinFlight, hclears]
    intro n call hcall
    exact (hI.caller n call hcall).trans (Nat.le_succ _)
  inOrder := by
    rw [hinFlight]
    exact hI.inOrder
  current := hI.current.silent

/-- A call goes on to its next phase. -/
theorem proceed (hI : WalletInv beginning s h) {n : ℕ} {call : Call}
    (hcaller : call.caller.clears ≤ s.clears) (horder : call.InOrder) {calls : ℕ} :
    WalletInv beginning { s with calls, inFlight := s.inFlight.set n call } (h ++ []) where
  stored := hI.stored
  caller := by
    intro m call' hcall'
    rcases OrderedMap.get?_set_eq_some.mp hcall' with ⟨-, rfl⟩ | ⟨-, hold⟩
    · exact hcaller
    · exact hI.caller m call' hold
  inOrder := by
    intro m call' hcall'
    rcases OrderedMap.get?_set_eq_some.mp hcall' with ⟨-, rfl⟩ | ⟨-, hold⟩
    · exact horder
    · exact hI.inOrder m call' hold
  current := hI.current.silent

/-- A call ends, and may have written the cache. -/
theorem leave (hI : WalletInv beginning s h) {n : ℕ} {cache : Option Cached}
    (hstored : ∀ cached, cache = some cached → cached.stored = s.clears)
    (hes : ∀ e ∈ es, Current beginning e) :
    WalletInv beginning
      { s with tokenBalancesCache := cache, inFlight := s.inFlight.delete n } (h ++ es) where
  stored := hstored
  caller := fun m call hcall => hI.caller m call (OrderedMap.get?_delete_eq_some.mp hcall).2
  inOrder := fun m call hcall => hI.inOrder m call (OrderedMap.get?_delete_eq_some.mp hcall).2
  current := hI.current.append hes

end WalletInv

/-! ## What each method keeps -/

namespace WalletInv

theorem loadFromFile (hI : WalletInv beginning s h) (loaded : Option String) :
    WalletInv beginning (s.loadFromFile loaded) (h ++ []) := by
  cases loaded with
  | none => exact hI.frame (.inr rfl) rfl rfl
  | some address => exact hI.frame (.inr rfl) rfl rfl

theorem connectAddress (hI : WalletInv beginning s h) (parsed : Option String) :
    WalletInv beginning (s.connectAddress parsed) (h ++ []) := by
  cases parsed with
  | none => exact hI.frame (.inr rfl) rfl rfl
  | some address => exact hI.frame (.inr rfl) rfl rfl

theorem sessionTimedOut (hI : WalletInv beginning s h)
    (hs : s.sessionTimedOut = some (s', es)) : WalletInv beginning s' (h ++ es) := by
  unfold WalletManager.sessionTimedOut at hs
  split at hs
  · obtain ⟨rfl, rfl⟩ := Machine.some_pair hs
    dsimp only
    split
    · exact hI.frame (.inl rfl) rfl rfl
    · exact hI.frame (.inr rfl) rfl rfl
  · cases hs

theorem getTokenBalances (hI : WalletInv beginning s h) {now : ℚ}
    (hgood : Undisturbed beginning s h (.getTokenBalances now)) :
    WalletInv beginning (s.getTokenBalances now).1 (h ++ (s.getTokenBalances now).2) := by
  unfold WalletManager.getTokenBalances
  split
  · exact { hI with current := hI.current.throw }
  · next address hkey =>
    dsimp only
    split
    · next cached hcached =>
      have hold : s.tokenBalancesCache = some cached := (Option.filter_eq_some_iff.mp hcached).1
      obtain ⟨haddress, hstored⟩ := hgood address cached hkey hcached
      have hcurrent : Current beginning (.returned ⟨address, s.clears⟩ cached.data) := by
        refine ⟨haddress, ?_⟩
        show s.clears ≤ cached.data.began beginning
        rw [← hI.stored cached hold]
        exact hstored
      refine { hI with current := hI.current.append fun e he => ?_ }
      obtain rfl := List.mem_singleton.mp he
      exact hcurrent
    · exact hI.proceed le_rfl le_rfl

theorem attemptFailed (hI : WalletInv beginning s h) {call : ℕ} {budget : Bool}
    (hs : s.attemptFailed call budget = some (s', es)) : WalletInv beginning s' (h ++ es) := by
  unfold WalletManager.attemptFailed at hs
  split at hs
  · next caller attempt _ _ _ hcall =>
    split at hs
    · obtain ⟨rfl, rfl⟩ := Machine.some_pair hs
      have hcaller : caller.clears ≤ s.clears := hI.caller call _ hcall
      refine hI.proceed ?_ ?_
      · exact hcaller
      · exact trivial
    · obtain ⟨rfl, rfl⟩ := Machine.some_pair hs
      refine hI.leave hI.stored fun e he => ?_
      obtain rfl := List.mem_singleton.mp he
      trivial
  · cases hs

/-- The next attempt is made now. -/
theorem retries (hI : WalletInv beginning s h) {call : ℕ}
    (hs : s.retries call = some (s', es)) : WalletInv beginning s' (h ++ es) := by
  unfold WalletManager.retries at hs
  split at hs
  · next caller attempt hcall =>
    obtain ⟨rfl, rfl⟩ := Machine.some_pair hs
    have hcaller : caller.clears ≤ s.clears := hI.caller call _ hcall
    refine hI.proceed ?_ ?_
    · exact hcaller
    · exact hcaller
  · cases hs

theorem attemptAnswered (hI : WalletInv beginning s h) {call : ℕ} {answer : Answer}
    (hs : s.attemptAnswered call answer = some (s', es)) : WalletInv beginning s' (h ++ es) := by
  unfold WalletManager.attemptAnswered at hs
  split at hs
  · next caller _ address connection clears hcall =>
    obtain ⟨rfl, rfl⟩ := Machine.some_pair hs
    have hcaller : caller.clears ≤ s.clears := hI.caller call _ hcall
    have horder : caller.clears ≤ clears := hI.inOrder call _ hcall
    refine hI.proceed ?_ ?_
    · exact hcaller
    · exact horder
  · cases hs

/-- A fetch begins with its call, and the attempt that is answered not before it. -/
theorem began (hI : WalletInv beginning s h) {call : ℕ} {caller : Caller} {address : String}
    {connection clears : ℕ} {answer : Answer} {balances : TokenBalances}
    (hcall : s.inFlight.get? call = some ⟨caller, .naming address connection clears answer⟩) :
    caller.clears ≤
      Fetched.began ⟨address, connection, clears, caller.clears, balances⟩ beginning := by
  cases beginning with
  | call => exact le_rfl
  | attempt => exact hI.inOrder call _ hcall

theorem finished (hI : WalletInv beginning s h) {call : ℕ} {now : ℚ}
    {metadata : List (Option String)}
    (hgood : Undisturbed beginning s h (.finished call now metadata))
    (hs : s.finished call now metadata = some (s', es)) : WalletInv beginning s' (h ++ es) := by
  unfold WalletManager.finished at hs
  split at hs
  · next caller address connection clears answer hcall =>
    obtain ⟨rfl, rfl⟩ := Machine.some_pair hs
    apply hI.leave
    · rintro cached hcached
      obtain rfl := Option.some.inj hcached
      rfl
    · intro e he
      obtain rfl := List.mem_singleton.mp he
      exact ⟨hgood caller address connection clears answer hcall, hI.began hcall⟩
  · cases hs

end WalletInv

/-! ## Every run -/

theorem WalletInv.step (hI : WalletInv beginning s h) {a : WalletAction}
    (hgood : Undisturbed beginning s h a) (hs : s.step a = some (s', es)) :
    WalletInv beginning s' (h ++ es) := by
  cases a with
  | loadFromFile loaded =>
    obtain ⟨rfl, rfl⟩ := Machine.some_pair hs
    exact hI.loadFromFile loaded
  | connectAddress parsed =>
    obtain ⟨rfl, rfl⟩ := Machine.some_pair hs
    exact hI.connectAddress parsed
  | disconnect =>
    obtain ⟨rfl, rfl⟩ := Machine.some_pair hs
    exact hI.frame (.inl rfl) rfl rfl
  | resetIdleTimer =>
    obtain ⟨rfl, rfl⟩ := Machine.some_pair hs
    exact hI.frame (.inr rfl) rfl rfl
  | sessionTimedOut => exact hI.sessionTimedOut hs
  | setConnection connection =>
    obtain ⟨rfl, rfl⟩ := Machine.some_pair hs
    exact hI.clear rfl rfl rfl
  | clearBalanceCache =>
    obtain ⟨rfl, rfl⟩ := Machine.some_pair hs
    exact hI.clear rfl rfl rfl
  | getTokenBalances now =>
    obtain ⟨rfl, rfl⟩ := Machine.some_pair hs
    exact hI.getTokenBalances hgood
  | attemptFailed call budget => exact hI.attemptFailed hs
  | retries call => exact hI.retries hs
  | attemptAnswered call answer => exact hI.attemptAnswered hs
  | finished call now metadata => exact hI.finished hgood hs

/-- A call that is answered from such a cache. -/
theorem not_current_of_cached (hI : WalletInv beginning s h) {now : ℚ}
    (hbad : ¬ Undisturbed beginning s h (.getTokenBalances now)) :
    ∃ e ∈ (s.getTokenBalances now).2, ¬ Current beginning e := by
  simp only [Undisturbed, not_forall] at hbad
  obtain ⟨address, cached, hkey, hcached, hnot⟩ := hbad
  have hold : s.tokenBalancesCache = some cached := (Option.filter_eq_some_iff.mp hcached).1
  refine ⟨.returned ⟨address, s.clears⟩ cached.data, ?_, ?_⟩
  · unfold WalletManager.getTokenBalances
    rw [hkey]
    dsimp only
    rw [hcached]
    exact List.mem_cons_self
  · rintro ⟨haddress, hclears⟩
    rw [hI.stored cached hold] at hnot
    exact hnot ⟨haddress, hclears⟩

/-- A fetch whose last attempt asked for another wallet. -/
theorem not_current_of_finished {call : ℕ} {now : ℚ} {metadata : List (Option String)}
    (hbad : ¬ Undisturbed beginning s h (.finished call now metadata))
    (hs : s.finished call now metadata = some (s', es)) : ∃ e ∈ es, ¬ Current beginning e := by
  simp only [Undisturbed, not_forall] at hbad
  obtain ⟨caller, address, connection, clears, answer, hcall, hnot⟩ := hbad
  unfold WalletManager.finished at hs
  rw [hcall] at hs
  obtain ⟨rfl, rfl⟩ := Machine.some_pair hs
  refine ⟨_, List.mem_cons_self, ?_⟩
  rintro ⟨haddress, -⟩
  exact hnot haddress

theorem not_allCurrent_of_disturbed (hI : WalletInv beginning s h) {a : WalletAction}
    (hbad : ¬ Undisturbed beginning s h a) (hs : s.step a = some (s', es)) :
    ¬ AllCurrent beginning s' (h ++ es) := by
  have hevent : ∃ e ∈ es, ¬ Current beginning e := by
    cases a with
    | getTokenBalances now =>
      obtain ⟨rfl, rfl⟩ := Machine.some_pair hs
      exact not_current_of_cached hI hbad
    | finished call now metadata => exact not_current_of_finished hbad hs
    | _ => exact absurd trivial hbad
  obtain ⟨e, he, hnot⟩ := hevent
  intro hall
  exact hnot (hall e (List.mem_append_right _ he))

/-- **Current balances.** In every interleaving, and whatever counts as the beginning of a
fetch, all balances that were returned are current exactly as long as no step disturbs
them. -/
theorem current_iff (beginning : Beginning) (as : List WalletAction) :
    walletManager.Always (AllCurrent beginning) walletManager.init [] as ↔
      walletManager.Along (Undisturbed beginning) walletManager.init [] as :=
  Machine.always_iff_along (M := walletManager) (P := AllCurrent beginning)
    (fun hI => WalletInv.current hI) (fun hI hgood hs => WalletInv.step hI hgood hs)
    (fun hI hbad hs => not_allCurrent_of_disturbed hI hbad hs) (WalletInv.init beginning) as

/-! ## Another wallet is connected -/

/-- The balances of `addrA` are fetched, `addrB` is connected, and asks within 30 s. -/
def switched : List WalletAction :=
  [.connectAddress (some "addrA"), .getTokenBalances 0, .attemptAnswered 0 ⟨5000000000, [], []⟩,
    .finished 0 1000 [], .connectAddress (some "addrB"), .getTokenBalances 2000]

/-- What the first call returned. -/
def balancesOfA : Fetched := ⟨"addrA", 0, 0, 0, readBalances ⟨5000000000, [], []⟩ []⟩

/-- `addrB` gets the balances of `addrA`. -/
theorem not_current :
    ¬ ∃ beginning, ∀ s h, walletManager.Reachable s h → AllCurrent beginning s h := by
  rintro ⟨beginning, hall⟩
  have hrun : (walletManager.run switched).map Prod.snd =
      some [.returned ⟨"addrA", 0⟩ balancesOfA, .returned ⟨"addrB", 0⟩ balancesOfA] := by
    decide +kernel
  obtain ⟨⟨s, h⟩, hs, rfl⟩ := Option.map_eq_some_iff.mp hrun
  have hcurrent : Current beginning (.returned ⟨"addrB", 0⟩ balancesOfA) :=
    hall s _ (Machine.reachable_of_run hs) _ (List.mem_cons_of_mem _ List.mem_cons_self)
  have haddress : "addrA" = "addrB" := hcurrent.1
  exact absurd haddress (by decide)

end WalletManager

end FlashEdge
