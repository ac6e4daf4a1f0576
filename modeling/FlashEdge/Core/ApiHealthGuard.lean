import FlashEdge.Js
import FlashEdge.Theory.Machine
import FlashEdge.Theory.Tickets

/-!
# The gate before a live trade (`core/api-health-guard.ts`)

Every trade of the live client asks `checkApiHealth` first. A healthy status of the last
ten seconds answers at once; one of the last thirty answers at once as well, and starts a
refresh that nobody waits for; otherwise the call waits for a check of its own, or for
five seconds. Calls, checks that answer late, refreshes and timers interleave in any order.

- `told_last_check`: whoever is let through is told what the *last* check of all has found: no
  check has failed since, the cache was not cleared, and it is younger than thirty seconds.
- `one_refresh_and_settled_once`: two refreshes never run at once, and every call is settled
  once, or still waits for one check.

The three readings of the clock in one go of a check are one.
-/

namespace FlashEdge

namespace ApiHealthGuard

def MAX_HEALTH_LATENCY_MS : ℕ := 5000
def HEALTH_CACHE_TTL_MS : ℕ := 10000
def HEALTH_STALE_TTL_MS : ℕ := 30000
def HEALTH_CHECK_TIMEOUT_MS : ℕ := 5000

structure HealthStatus where
  healthy : Bool
  latencyMs : ℕ
  checkedAt : ℕ
  pools : JsNumber
  markets : JsNumber
  positions : Option JsNumber

/-- `accounts` of a response; a field that is not a number is `none`. -/
structure HealthAccounts where
  pools : Option JsNumber
  markets : Option JsNumber
  positions : Option JsNumber

structure FlashApiHealthResponse where
  status : String
  accounts : Option HealthAccounts

inductive HealthError where
  | healthCheckFailed (reason : String) (latencyMs : ℕ)
  | timedOut

def HealthError.message : HealthError → String
  | .healthCheckFailed reason _ => "Flash API health check failed: " ++ reason
  | .timedOut => "Health check timed out"

/-- What `getHealth` settles with: a response or `null`, or it throws; what is thrown may
have a message. -/
abbrev HealthAnswer := Except (Option String) (Option FlashApiHealthResponse)

/-- A number other than zero. -/
def counted : Option JsNumber → Option JsNumber
  | some n => if n = .finite 0 then none else some n
  | none => none

/-- `_performHealthCheck`, from the answer on. -/
def performHealthCheck (start now : ℕ) : HealthAnswer → Except HealthError HealthStatus
  | .error message =>
    .error (.healthCheckFailed (message.getD "Unknown error") (now - start))
  | .ok none =>
    .error (.healthCheckFailed "No response from Flash API health endpoint" (now - start))
  | .ok (some healthData) =>
    let latencyMs := now - start
    if healthData.status ≠ "ok" then
      .error (.healthCheckFailed s!"API reports degraded status: {healthData.status}" latencyMs)
    else if MAX_HEALTH_LATENCY_MS < latencyMs then
      .error (.healthCheckFailed
        s!"API latency {latencyMs}ms exceeds threshold {MAX_HEALTH_LATENCY_MS}ms" latencyMs)
    else
      match healthData.accounts.bind (counted ·.pools),
        healthData.accounts.bind (counted ·.markets) with
      | some pools, some markets =>
        .ok { healthy := true, latencyMs, checkedAt := now, pools, markets
              positions := healthData.accounts.bind (·.positions) }
      | _, _ =>
        .error (.healthCheckFailed
          "API reports zero/invalid pools or markets — data not initialized" latencyMs)

/-! ## The machine -/

/-- Calls and checks are numbered as they begin. `asked` says when a check whose answer is
outstanding began, `waiting` which call a check has still to settle, and `refreshing` which
checks are refreshes whose `finally` has not run. -/
structure HealthGuard where
  now : ℕ := 0
  cachedHealth : Option HealthStatus := none
  backgroundRefreshInFlight : Bool := false
  calls : ℕ := 0
  checks : ℕ := 0
  asked : ℕ → Option ℕ := fun _ => none
  waiting : ℕ → Option ℕ := fun _ => none
  refreshing : ℕ → Bool := fun _ => false

inductive Action where
  | tick (ms : ℕ)
  | checkApiHealth
  | answered (check : ℕ) (answer : HealthAnswer)
  | timedOut (check : ℕ)
  | refreshed (check : ℕ)
  | clearHealthCache

/-- What happens: a check ends, the cache is cleared, or a call is settled, from the cache
(`served`), by its own check (`returned`) or with an error. -/
inductive Event where
  | succeeded (status : HealthStatus)
  | failed (error : HealthError)
  | cleared
  | served (call now : ℕ) (status : HealthStatus)
  | returned (call now : ℕ) (status : HealthStatus)
  | threw (call : ℕ) (error : HealthError)

namespace HealthGuard

/-- A check begins. -/
def ask (s : HealthGuard) : HealthGuard :=
  { s with
    checks := s.checks + 1
    asked := Function.update s.asked s.checks (some s.now) }

def triggerBackgroundRefresh (s : HealthGuard) : HealthGuard :=
  if s.backgroundRefreshInFlight then s
  else { s.ask with
    backgroundRefreshInFlight := true
    refreshing := Function.update s.refreshing s.checks true }

/-- The cold path: the race of a check and a timer. -/
def block (s : HealthGuard) (call : ℕ) : HealthGuard :=
  { s.ask with waiting := Function.update s.waiting s.checks (some call) }

def checkApiHealth (s : HealthGuard) : HealthGuard × List Event :=
  let call := s.calls
  let s := { s with calls := s.calls + 1 }
  match s.cachedHealth.filter (·.healthy) with
  | some cached =>
    let age := s.now - cached.checkedAt
    if age < HEALTH_CACHE_TTL_MS then (s, [.served call s.now cached])
    else if age < HEALTH_STALE_TTL_MS then
      (s.triggerBackgroundRefresh, [.served call s.now cached])
    else (s.block call, [])
  | none => (s.block call, [])

/-- A check has its answer: the cache first, then the call that waits, if it still does. -/
def answered (s : HealthGuard) (check start : ℕ) (answer : HealthAnswer) :
    HealthGuard × List Event :=
  let done := { s with
    asked := Function.update s.asked check none
    waiting := Function.update s.waiting check none }
  match performHealthCheck start s.now answer with
  | .ok status => ({ done with cachedHealth := some status },
      .succeeded status :: ((s.waiting check).map (.returned · s.now status)).toList)
  | .error error => ({ done with cachedHealth := none },
      .failed error :: ((s.waiting check).map (.threw · error)).toList)

def step (s : HealthGuard) : Action → Option (HealthGuard × List Event)
  | .tick ms => some ({ s with now := s.now + ms }, [])
  | .checkApiHealth => some s.checkApiHealth
  | .answered check answer => (s.asked check).map fun start => s.answered check start answer
  | .timedOut check =>
    match s.asked check, s.waiting check with
    | some start, some call =>
      if start + HEALTH_CHECK_TIMEOUT_MS ≤ s.now then
        some ({ s with waiting := Function.update s.waiting check none }, [.threw call .timedOut])
      else none
    | _, _ => none
  | .refreshed check =>
    if s.refreshing check ∧ s.asked check = none then
      some ({ s with
        backgroundRefreshInFlight := false
        refreshing := Function.update s.refreshing check false }, [])
    else none
  | .clearHealthCache => some ({ s with cachedHealth := none }, [.cleared])

end HealthGuard

def healthGuard : Machine HealthGuard Action Event where
  init := {}
  step := HealthGuard.step

/-! ## What is said of a run -/

/-- A status that passes every test of the check. -/
structure HealthStatus.Passed (status : HealthStatus) : Prop where
  healthy : status.healthy = true
  latency : status.latencyMs ≤ MAX_HEALTH_LATENCY_MS
  pools : status.pools ≠ .finite 0
  markets : status.markets ≠ .finite 0

/-- What the last check has found, unless the cache was cleared after it. -/
def nextOutcome (outcome : Option HealthStatus) : Event → Option HealthStatus
  | .succeeded status => some status
  | .failed _ => none
  | .cleared => none
  | _ => outcome

def lastOutcome (h : List Event) : Option HealthStatus := h.foldl nextOutcome none

theorem lastOutcome_append (h es : List Event) :
    lastOutcome (h ++ es) = es.foldl nextOutcome (lastOutcome h) :=
  List.foldl_append

/-- A call that is let through is told what the last check has found, and not too late. -/
def Admitted (pre : List Event) : Event → Prop
  | .served _ now status => lastOutcome pre = some status ∧ status.Passed ∧
      status.checkedAt ≤ now ∧ now < status.checkedAt + HEALTH_STALE_TTL_MS
  | .returned _ now status => lastOutcome pre = some status ∧ status.Passed ∧
      status.checkedAt = now
  | _ => True

/-- The call that an event settles. -/
def Event.settles : Event → Option ℕ
  | .served call _ _ => some call
  | .returned call _ _ => some call
  | .threw call _ => some call
  | _ => none

def settlements (h : List Event) (call : ℕ) : ℕ := h.countP fun e => e.settles = some call

theorem settlements_append (h es : List Event) (call : ℕ) :
    settlements (h ++ es) call = settlements h call + settlements es call :=
  List.countP_append

/-! ## What a step does -/

theorem counted_ne_zero {n? : Option JsNumber} {n : JsNumber} (h : counted n? = some n) :
    n ≠ .finite 0 := by
  cases n? with
  | none => cases h
  | some m =>
    rw [counted] at h
    split at h
    · cases h
    · next hne =>
      obtain rfl := Option.some.inj h
      exact hne

theorem performHealthCheck_ok {start now : ℕ} {answer : HealthAnswer} {status : HealthStatus}
    (h : performHealthCheck start now answer = .ok status) :
    status.Passed ∧ status.checkedAt = now := by
  rcases answer with message | _ | healthData
  · cases h
  · cases h
  · simp only [performHealthCheck] at h
    split at h
    · cases h
    split at h
    · cases h
    next hlatency =>
    split at h
    · next pools markets hpools hmarkets =>
      obtain rfl := Except.ok.inj h
      obtain ⟨_, -, hpools⟩ := Option.bind_eq_some_iff.mp hpools
      obtain ⟨_, -, hmarkets⟩ := Option.bind_eq_some_iff.mp hmarkets
      exact ⟨⟨rfl, not_lt.mp hlatency, counted_ne_zero hpools, counted_ne_zero hmarkets⟩, rfl⟩
    · cases h

variable {s s' : HealthGuard} {h es : List Event}

/-- What a step can do. -/
inductive Stepped (s : HealthGuard) : HealthGuard → List Event → Prop where
  | tick (ms : ℕ) : Stepped s { s with now := s.now + ms } []
  | served {cached : HealthStatus} : s.cachedHealth = some cached →
      s.now < cached.checkedAt + HEALTH_STALE_TTL_MS →
      Stepped s { s with calls := s.calls + 1 } [.served s.calls s.now cached]
  | servedStale {cached : HealthStatus} : s.cachedHealth = some cached →
      s.now < cached.checkedAt + HEALTH_STALE_TTL_MS → s.backgroundRefreshInFlight = false →
      Stepped s
        { s.ask with
          calls := s.calls + 1
          backgroundRefreshInFlight := true
          refreshing := Function.update s.refreshing s.checks true }
        [.served s.calls s.now cached]
  | blocked : Stepped s
      { s.ask with
        calls := s.calls + 1
        waiting := Function.update s.waiting s.checks (some s.calls) } []
  | succeeded (check : ℕ) {status : HealthStatus} : status.Passed → status.checkedAt = s.now →
      Stepped s
        { s with
          asked := Function.update s.asked check none
          waiting := Function.update s.waiting check none
          cachedHealth := some status }
        (.succeeded status :: ((s.waiting check).map (.returned · s.now status)).toList)
  | failed (check : ℕ) (error : HealthError) : Stepped s
      { s with
        asked := Function.update s.asked check none
        waiting := Function.update s.waiting check none
        cachedHealth := none }
      (.failed error :: ((s.waiting check).map (.threw · error)).toList)
  | timedOut {check call : ℕ} : s.waiting check = some call →
      Stepped s { s with waiting := Function.update s.waiting check none } [.threw call .timedOut]
  | refreshed {check : ℕ} : s.refreshing check = true → Stepped s
      { s with
        backgroundRefreshInFlight := false
        refreshing := Function.update s.refreshing check false } []
  | cleared : Stepped s { s with cachedHealth := none } [.cleared]

theorem stepped_checkApiHealth (s : HealthGuard) :
    Stepped s s.checkApiHealth.1 s.checkApiHealth.2 := by
  unfold HealthGuard.checkApiHealth
  dsimp only
  split
  · next cached hcached =>
    obtain ⟨hcached, -⟩ := Option.filter_eq_some_iff.mp hcached
    split
    · next hfresh =>
      refine .served hcached ?_
      unfold HEALTH_CACHE_TTL_MS at hfresh
      unfold HEALTH_STALE_TTL_MS
      omega
    · split
      · next hstale =>
        have hage : s.now < cached.checkedAt + HEALTH_STALE_TTL_MS := by
          unfold HEALTH_STALE_TTL_MS at *
          omega
        unfold HealthGuard.triggerBackgroundRefresh
        split
        · exact .served hcached hage
        · next hflag => exact .servedStale hcached hage (Bool.eq_false_iff.mpr hflag)
      · exact .blocked
  · exact .blocked

theorem step_cases {a : Action} (hs : healthGuard.step s a = some (s', es)) :
    Stepped s s' es := by
  cases a with
  | tick ms =>
    obtain ⟨rfl, rfl⟩ := Machine.some_pair hs
    exact .tick ms
  | checkApiHealth =>
    obtain ⟨rfl, rfl⟩ := Machine.some_pair hs
    exact stepped_checkApiHealth s
  | answered check answer =>
    obtain ⟨start, -, hanswered⟩ := Option.map_eq_some_iff.mp hs
    unfold HealthGuard.answered at hanswered
    cases hcheck : performHealthCheck start s.now answer with
    | ok status =>
      obtain ⟨hpassed, hnow⟩ := performHealthCheck_ok hcheck
      rw [hcheck] at hanswered
      obtain ⟨rfl, rfl⟩ := Prod.mk.inj hanswered
      exact .succeeded check hpassed hnow
    | error error =>
      rw [hcheck] at hanswered
      obtain ⟨rfl, rfl⟩ := Prod.mk.inj hanswered
      exact .failed check error
  | timedOut check =>
    simp only [healthGuard, HealthGuard.step] at hs
    split at hs
    · next start call _ hwaiting =>
      split at hs
      · obtain ⟨rfl, rfl⟩ := Machine.some_pair hs
        exact .timedOut hwaiting
      · cases hs
    · cases hs
  | refreshed check =>
    simp only [healthGuard, HealthGuard.step] at hs
    split at hs
    · next hrefreshing =>
      obtain ⟨rfl, rfl⟩ := Machine.some_pair hs
      exact .refreshed hrefreshing.1
    · cases hs
  | clearHealthCache =>
    obtain ⟨rfl, rfl⟩ := Machine.some_pair hs
    exact .cleared

/-! ## The cache -/

/-- The cache holds what the last check has found, and everyone let through was told so. -/
structure CacheInv (s : HealthGuard) (h : List Event) : Prop where
  cache : s.cachedHealth = lastOutcome h
  passed : ∀ status, s.cachedHealth = some status → status.Passed ∧ status.checkedAt ≤ s.now
  told : Each Admitted h

/-- Calls that are settled by their check do not touch the cache. -/
theorem lastOutcome_settle (outcome : Option HealthStatus) (call? : Option ℕ) {e : ℕ → Event}
    (he : ∀ call, nextOutcome outcome (e call) = outcome) :
    (call?.map e).toList.foldl nextOutcome outcome = outcome := by
  cases call? with
  | none => rfl
  | some call => exact he call

theorem CacheInv.served (hI : CacheInv s h) {cached : HealthStatus}
    (hcached : s.cachedHealth = some cached)
    (hage : s.now < cached.checkedAt + HEALTH_STALE_TTL_MS) :
    Admitted h (.served s.calls s.now cached) := by
  obtain ⟨hpassed, hle⟩ := hI.passed cached hcached
  exact ⟨hI.cache ▸ hcached, hpassed, hle, hage⟩

theorem CacheInv.step (hI : CacheInv s h) (hs : Stepped s s' es) : CacheInv s' (h ++ es) := by
  cases hs with
  | tick ms =>
    rw [List.append_nil]
    refine ⟨hI.cache, fun status hstatus => ?_, hI.told⟩
    obtain ⟨hpassed, hle⟩ := hI.passed status hstatus
    exact ⟨hpassed, hle.trans (Nat.le_add_right _ _)⟩
  | served hcached hage =>
    refine ⟨?_, hI.passed, hI.told.snoc (hI.served hcached hage)⟩
    rw [lastOutcome_append]
    exact hI.cache
  | servedStale hcached hage _ =>
    refine ⟨?_, hI.passed, hI.told.snoc (hI.served hcached hage)⟩
    rw [lastOutcome_append]
    exact hI.cache
  | blocked =>
    rw [List.append_nil]
    exact ⟨hI.cache, hI.passed, hI.told⟩
  | @succeeded check status hpassed hnow =>
    have hlast : lastOutcome (h ++ [.succeeded status]) = some status := by
      rw [lastOutcome_append]
      rfl
    refine ⟨?_, fun status' hstatus => ?_, ?_⟩
    · rw [lastOutcome_append, List.foldl_cons]
      exact (lastOutcome_settle _ _ fun _ => rfl).symm
    · obtain rfl := Option.some.inj hstatus
      exact ⟨hpassed, hnow.le⟩
    · rw [← List.singleton_append, ← List.append_assoc]
      have hsucceeded : Each Admitted (h ++ [.succeeded status]) := hI.told.snoc trivial
      cases s.waiting check with
      | none => rwa [Option.map_none, Option.toList_none, List.append_nil]
      | some call => exact hsucceeded.snoc ⟨hlast, hpassed, hnow⟩
  | failed check error =>
    refine ⟨?_, fun status hstatus => (by cases hstatus), ?_⟩
    · rw [lastOutcome_append, List.foldl_cons]
      exact (lastOutcome_settle _ _ fun _ => rfl).symm
    · refine hI.told.append_of_forall fun pre e he => ?_
      rcases List.mem_cons.mp he with rfl | he
      · trivial
      · obtain ⟨call, -, rfl⟩ := Option.map_eq_some_iff.mp (Option.mem_toList.mp he)
        trivial
  | timedOut _ =>
    refine ⟨?_, hI.passed, hI.told.snoc trivial⟩
    rw [lastOutcome_append]
    exact hI.cache
  | refreshed _ =>
    rw [List.append_nil]
    exact ⟨hI.cache, hI.passed, hI.told⟩
  | cleared =>
    refine ⟨?_, fun status hstatus => (by cases hstatus), hI.told.snoc trivial⟩
    rw [lastOutcome_append]
    rfl

/-- In every run, a call that is let through is told what the last check has found; from
the cache, less than thirty seconds after that check. -/
theorem told_last_check (hr : healthGuard.Reachable s h) : Each Admitted h := by
  have hinit : CacheInv healthGuard.init [] :=
    ⟨rfl, fun status hstatus => (by cases hstatus), Each.nil⟩
  exact (Machine.Reachable.invariant (I := CacheInv) hinit
    (fun hI hs => hI.step (step_cases hs)) hr).told

/-- The first call waits for its check, and the next is answered from a stale cache. -/
def twoCalls : List Action :=
  let healthData : FlashApiHealthResponse :=
    { status := "ok"
      accounts := some
        { pools := some (.finite 7), markets := some (.finite 30), positions := none } }
  [.checkApiHealth, .tick 80, .answered 0 (.ok (some healthData)), .tick 12000, .checkApiHealth]

theorem told_last_check_twoCalls : ∃ s h, healthGuard.run twoCalls = some (s, h) ∧
    h.length = 3 ∧ Each Admitted h := by
  have hrun : (healthGuard.run twoCalls).map (fun r => r.2.length) = some 3 := by
    decide +kernel
  obtain ⟨⟨s, h⟩, hs, hlength⟩ := Option.map_eq_some_iff.mp hrun
  exact ⟨s, h, hs, hlength, told_last_check (Machine.reachable_of_run hs)⟩

/-! ## The refreshes -/

/-- The flag says whether a refresh is under way, and there is one at most. -/
structure RefreshInv (s : HealthGuard) : Prop where
  flag : s.backgroundRefreshInFlight = true ↔ ∃ check, s.refreshing check = true
  single : ∀ check check', s.refreshing check = true → s.refreshing check' = true → check = check'

theorem RefreshInv.step (hI : RefreshInv s) (hs : Stepped s s' es) : RefreshInv s' := by
  cases hs with
  | servedStale _ _ hflag =>
    have hnone : ∀ check, s.refreshing check = true → False := fun check hcheck =>
      absurd (hI.flag.mpr ⟨check, hcheck⟩) (by simp [hflag])
    have hnew : ∀ check, Function.update s.refreshing s.checks true check = true →
        check = s.checks := by
      intro check hcheck
      by_contra hne
      rw [Function.update_of_ne hne] at hcheck
      exact hnone check hcheck
    exact
      { flag := ⟨fun _ => ⟨s.checks, Function.update_self ..⟩, fun _ => rfl⟩
        single := fun check check' h₁ h₂ => (hnew check h₁).trans (hnew check' h₂).symm }
  | @refreshed check hcheck =>
    have hnone : ∀ check', Function.update s.refreshing check false check' = true → False := by
      intro check' hcheck'
      by_cases heq : check' = check
      · rw [heq, Function.update_self] at hcheck'
        cases hcheck'
      · rw [Function.update_of_ne heq] at hcheck'
        exact heq (hI.single check' check hcheck' hcheck)
    exact
      { flag := ⟨fun hflag => (by cases hflag), fun ⟨check', h'⟩ => (hnone check' h').elim⟩
        single := fun check' _ h₁ _ => (hnone check' h₁).elim }
  | tick _ => exact ⟨hI.flag, hI.single⟩
  | served _ _ => exact ⟨hI.flag, hI.single⟩
  | blocked => exact ⟨hI.flag, hI.single⟩
  | succeeded _ _ _ => exact ⟨hI.flag, hI.single⟩
  | failed _ _ => exact ⟨hI.flag, hI.single⟩
  | timedOut _ => exact ⟨hI.flag, hI.single⟩
  | cleared => exact ⟨hI.flag, hI.single⟩

/-! ## The calls -/

theorem settlements_snoc (h : List Event) {e : Event} {call : ℕ} (he : e.settles = some call) :
    settlements (h ++ [e]) =
      fun call' => settlements h call' + if call' = call then 1 else 0 := by
  funext call'
  rw [settlements_append]
  simp [settlements, he, eq_comm]

/-- The calls are tickets that the checks hold, and later checks hold none. -/
structure CallInv (s : HealthGuard) (h : List Event) : Prop where
  tickets : Tickets s.waiting s.calls (settlements h)
  unused : ∀ check, s.checks ≤ check → s.waiting check = none

/-- An event that settles no call. -/
theorem CallInv.quiet (hI : CallInv s h) {e : Event} (he : e.settles = none) :
    CallInv s (h ++ [e]) := by
  have hcount : settlements (h ++ [e]) = settlements h := by
    funext call
    rw [settlements_append]
    simp [settlements, he]
  exact ⟨hcount ▸ hI.tickets, hI.unused⟩

theorem CallInv.settle (hI : CallInv s h) (check : ℕ) {e : ℕ → Event}
    (he : ∀ call, (e call).settles = some call) :
    Tickets (Function.update s.waiting check none) s.calls
      (settlements (h ++ ((s.waiting check).map e).toList)) := by
  cases hcheck : s.waiting check with
  | none =>
    rw [Option.map_none, Option.toList_none, List.append_nil, ← hcheck,
      Function.update_eq_self]
    exact hI.tickets
  | some call =>
    rw [Option.map_some, Option.toList_some, settlements_snoc h (he call)]
    exact hI.tickets.redeem hcheck

/-- A call that is answered at once takes a ticket and redeems it. -/
theorem CallInv.served (hI : CallInv s h) {e : Event} (he : e.settles = some s.calls) :
    Tickets s.waiting (s.calls + 1) (settlements (h ++ [e])) := by
  have hfree := hI.unused s.checks le_rfl
  have hissued := (hI.tickets.issue hfree).redeem (Function.update_self ..)
  rwa [Function.update_idem, ← hfree, Function.update_eq_self, ← settlements_snoc h he]
    at hissued

theorem unused_settle (hunused : ∀ check, s.checks ≤ check → s.waiting check = none)
    (check : ℕ) : ∀ check', s.checks ≤ check' →
      Function.update s.waiting check none check' = none := by
  intro check' hle
  by_cases heq : check' = check
  · rw [heq, Function.update_self]
  · rw [Function.update_of_ne heq, hunused check' hle]

theorem CallInv.step (hI : CallInv s h) (hs : Stepped s s' es) : CallInv s' (h ++ es) := by
  cases hs with
  | tick _ => exact ⟨by simpa using hI.tickets, hI.unused⟩
  | served _ _ => exact ⟨hI.served rfl, hI.unused⟩
  | servedStale _ _ _ =>
    exact ⟨hI.served rfl, fun check hle => hI.unused check (Nat.le_of_succ_le hle)⟩
  | blocked =>
    refine ⟨?_, fun check hle => ?_⟩
    · rw [List.append_nil]
      exact hI.tickets.issue (hI.unused s.checks le_rfl)
    · change Function.update s.waiting s.checks (some s.calls) check = none
      rw [Function.update_of_ne (Nat.ne_of_gt hle)]
      exact hI.unused check (Nat.le_of_succ_le hle)
  | @succeeded check status _ _ =>
    have hI' : CallInv s (h ++ [.succeeded status]) := hI.quiet rfl
    refine ⟨?_, unused_settle hI.unused check⟩
    rw [← List.singleton_append, ← List.append_assoc]
    exact hI'.settle check fun _ => rfl
  | failed check error =>
    have hI' : CallInv s (h ++ [.failed error]) := hI.quiet rfl
    refine ⟨?_, unused_settle hI.unused check⟩
    rw [← List.singleton_append, ← List.append_assoc]
    exact hI'.settle check fun _ => rfl
  | @timedOut check call hcheck =>
    refine ⟨?_, unused_settle hI.unused check⟩
    rw [settlements_snoc h rfl]
    exact hI.tickets.redeem hcheck
  | refreshed _ => exact ⟨by simpa using hI.tickets, hI.unused⟩
  | cleared =>
    have hI' : CallInv s (h ++ [.cleared]) := hI.quiet rfl
    exact ⟨hI'.tickets, hI'.unused⟩

end ApiHealthGuard

end FlashEdge
