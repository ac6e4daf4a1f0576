import FlashEdge.Js
import FlashEdge.Theory.Machine
import FlashEdge.Theory.Regex
import Mathlib.Data.List.Perm.Subperm
import Mathlib.Data.Rat.Floor

/-!
# Retries on a common budget (`utils/retry.ts`)

`withRetry` calls a function again when it has failed. All callers share one budget of 50 retries
a minute. A retry is put on the list of the budget when it is granted, and performed after a
delay that differs from one error to the next: so the list bounds the grants of every minute, and
not the retries.

- `withRetry`: the callers in any order, on a clock that does not go back.
- `act_cases`: what one step of a caller can do.
- `BudgetKept`: the grants of every minute are bounded.
- `sound_of_reachable`: how often a caller runs its function, and with what it rejects.
- `retries_bounded`: where grants and retries keep the same distances, retries are bounded too.
-/

namespace FlashEdge

namespace Retry

open Pattern

/-! ## The source -/

/-- The options, with their defaults. -/
structure RetryOptions where
  maxAttempts : JsNumber := .finite 3
  baseDelayMs : JsNumber := .finite 500
  maxDelayMs : JsNumber := .finite 5000
deriving DecidableEq

def BUDGET_WINDOW_MS : ℕ := 60000

def MAX_RETRIES_PER_WINDOW : ℕ := 50

/-- Entries are evicted from the front, as long as they are expired. -/
def evict (retryTimestamps : List ℕ) (now : ℕ) : List ℕ :=
  retryTimestamps.dropWhile fun t => t + BUDGET_WINDOW_MS < now

/-- Whether a retry is within the budget, and the list that is left. -/
def consumeRetryBudget (retryTimestamps : List ℕ) (now : ℕ) : Bool × List ℕ :=
  let kept := evict retryTimestamps now
  if MAX_RETRIES_PER_WINDOW ≤ kept.length then (false, kept) else (true, kept ++ [now])

/-- What a function throws: an `Error` with its message, or another value with its text. -/
inductive Thrown where
  | error (message : String)
  | value (text : String)
deriving DecidableEq

/-- The message of the `Error` that is kept. -/
def Thrown.message : Thrown → String
  | .error message => message
  | .value text => text

/-- `/[Rr]etry-?[Aa]fter[:\s]+(\d+)/`. -/
def retryAfter : Pattern :=
  seqs [char fun c => c = 'R' || c = 'r', lit "etry", optional (lit "-"),
    char fun c => c = 'A' || c = 'a', lit "fter", many1 fun c => c = ':' || isSpace c,
    group 1 digits]

/-- The delay in milliseconds that a rate limit asks for; 0 if the error is none. -/
def extractRateLimitDelay (message : String) : ℚ :=
  if !includes message "429" && !includes (toLowerCase message) "rate limit" &&
      !includes (toLowerCase message) "too many requests" then 0
  else
    match retryAfter.exec message.toList with
    | some m =>
      let seconds := Nat.ofDigitChars 10 (m.group 1) 0
      if 0 < seconds ∧ seconds ≤ 300 then seconds * 1000 else 2000
    | none => 2000

/-- The delay before the next attempt; `random` is the value of `Math.random()` and `mult` the
`retryDelayMultiplier` of the system's health. -/
def delayMs (o : RetryOptions) (attempt : ℕ) (message : String) (random : ℚ) (mult : JsNumber) :
    JsNumber :=
  let rateLimitDelay := extractRateLimitDelay message
  let delay :=
    if 0 < rateLimitDelay then (JsNumber.finite rateLimitDelay).min o.maxDelayMs
    else
      let exponential := o.baseDelayMs * .finite (2 ^ (attempt - 1))
      let jitter := .finite random * o.baseDelayMs * .finite (1 / 2)
      (exponential + jitter).min o.maxDelayMs
  if mult.gtRat 1 then (delay * mult).min (o.maxDelayMs * .finite 4) else delay

/-- The milliseconds of `setTimeout`, which are 1 if they are out of its range. -/
def timerMs : JsNumber → ℕ
  | .finite q => if 1 ≤ q ∧ q ≤ 2147483647 then q.floor.toNat else 1
  | _ => 1

/-- Where a caller stands: in an attempt, or waiting for the next since its retry was granted. -/
inductive Phase where
  | running (attempt : ℕ)
  | waiting (attempt granted wakesAt : ℕ)
  | done
deriving DecidableEq

structure Caller where
  o : RetryOptions
  phase : Phase
  lastError : Option String := none

/-- What is seen of a caller. A run of its function that is a retry says when it was granted. -/
inductive Note where
  | ran (granted : Option ℕ) (now : ℕ)
  | failed (error : String)
  | granted (now : ℕ)
  | returned
  | rejected (error : Option String)
deriving DecidableEq

/-- A call of `withRetry`; without an attempt it rejects with `undefined`. -/
def call (o : RetryOptions) (now : ℕ) : Caller × List Note :=
  if o.maxAttempts.geRat 1 then ({ o, phase := .running 1 }, [.ran none now])
  else ({ o, phase := .done }, [.rejected none])

/-- What happens to a caller: its function returns or throws, or its timer fires. -/
inductive CallerAction where
  | succeeds
  | fails (thrown : Thrown) (random : ℚ) (mult : JsNumber)
  | wakes

/-- The rest of the loop's body, from one `await` to the next. -/
def act (c : Caller) (retryTimestamps : List ℕ) (now : ℕ) :
    CallerAction → Option (Caller × List ℕ × List Note)
  | .succeeds =>
    match c.phase with
    | .running _ => some ({ c with phase := .done }, retryTimestamps, [.returned])
    | _ => none
  | .fails thrown random mult =>
    match c.phase with
    | .running attempt =>
      let lastError := thrown.message
      let failed : Caller := { c with phase := .done, lastError := some lastError }
      if c.o.maxAttempts.gtRat attempt then
        match consumeRetryBudget retryTimestamps now with
        | (false, kept) => some (failed, kept, [.failed lastError, .rejected (some lastError)])
        | (true, kept) =>
          let wakesAt := now + timerMs (delayMs c.o attempt lastError random mult)
          some ({ failed with phase := .waiting attempt now wakesAt }, kept,
            [.failed lastError, .granted now])
      else some (failed, retryTimestamps, [.failed lastError, .rejected (some lastError)])
    | _ => none
  | .wakes =>
    match c.phase with
    | .waiting attempt granted wakesAt =>
      if now < wakesAt then none
      else if c.o.maxAttempts.geRat (attempt + 1 : ℕ) then
        some ({ c with phase := .running (attempt + 1) }, retryTimestamps,
          [.ran (some granted) now])
      else some ({ c with phase := .done }, retryTimestamps, [.rejected c.lastError])
    | _ => none

/-! ## The callers together -/

/-- The time of the last step, the list of the budget, and the callers. -/
structure State where
  clock : ℕ := 0
  retryTimestamps : List ℕ := []
  callers : List Caller := []

/-- `getRetryBudgetUsage` evicts entries too. -/
inductive Action where
  | call (o : RetryOptions)
  | caller (i : ℕ) (action : CallerAction)
  | getRetryBudgetUsage

/-- The callers take their steps in any order, each at a time that is not before the last. -/
def withRetry : Machine State (ℕ × Action) (ℕ × Note) where
  init := {}
  step s a :=
    let (now, action) := a
    if now < s.clock then none
    else
      match action with
      | .call o =>
        let (c, notes) := call o now
        some ({ s with clock := now, callers := s.callers ++ [c] },
          notes.map fun note => (s.callers.length, note))
      | .caller i action =>
        match s.callers[i]? with
        | none => none
        | some c =>
          (act c s.retryTimestamps now action).map fun r =>
            ({ clock := now, retryTimestamps := r.2.1, callers := s.callers.set i r.1 },
              r.2.2.map fun note => (i, note))
      | .getRetryBudgetUsage =>
        some ({ s with clock := now, retryTimestamps := evict s.retryTimestamps now }, [])

/-! ## What a history says -/

/-- The notes of one caller, in order. -/
def notesOf (i : ℕ) (h : List (ℕ × Note)) : List Note :=
  h.filterMap fun e => if e.1 = i then some e.2 else none

/-- How often a function has been called. -/
def runs (notes : List Note) : ℕ :=
  notes.countP fun note => match note with
    | .ran _ _ => true
    | _ => false

/-- The errors of the attempts, in order. -/
def failures (notes : List Note) : List String :=
  notes.filterMap fun note => match note with
    | .failed error => some error
    | _ => none

/-- When retries were granted. -/
def grants (h : List (ℕ × Note)) : List ℕ :=
  h.filterMap fun e => match e.2 with
    | .granted now => some now
    | _ => none

/-- The retries that were performed: when each was granted, and when it was performed. -/
def retries (h : List (ℕ × Note)) : List (ℕ × ℕ) :=
  h.filterMap fun e => match e.2 with
    | .ran (some granted) now => some (granted, now)
    | _ => none

theorem notesOf_append (i : ℕ) (h es : List (ℕ × Note)) :
    notesOf i (h ++ es) = notesOf i h ++ notesOf i es :=
  List.filterMap_append ..

theorem grants_append (h es : List (ℕ × Note)) : grants (h ++ es) = grants h ++ grants es :=
  List.filterMap_append ..

theorem retries_append (h es : List (ℕ × Note)) : retries (h ++ es) = retries h ++ retries es :=
  List.filterMap_append ..

@[simp] theorem runs_append (notes more : List Note) :
    runs (notes ++ more) = runs notes + runs more :=
  List.countP_append ..

@[simp] theorem failures_append (notes more : List Note) :
    failures (notes ++ more) = failures notes ++ failures more :=
  List.filterMap_append ..

@[simp] theorem notesOf_own (i : ℕ) (notes : List Note) :
    notesOf i (notes.map fun note => (i, note)) = notes := by
  unfold notesOf
  rw [List.filterMap_map]
  exact (List.filterMap_congr fun note _ => if_pos rfl).trans List.filterMap_some

theorem notesOf_other {i j : ℕ} (hij : i ≠ j) (notes : List Note) :
    notesOf j (notes.map fun note => (i, note)) = [] := by
  unfold notesOf
  rw [List.filterMap_map]
  exact List.filterMap_eq_nil_iff.mpr fun note _ => if_neg hij

/-! ## The property -/

/-- A caller runs its function at most `maxAttempts` times, at least once if it may at all, and
rejects with the error of its last attempt. -/
structure Sound (o : RetryOptions) (notes : List Note) : Prop where
  most : runs notes = 0 ∨ o.maxAttempts.geRat (runs notes) = true
  least : o.maxAttempts.geRat 1 = true → 1 ≤ runs notes
  rejects : ∀ error, .rejected error ∈ notes → error = (failures notes).getLast?

/-- The times in the interval of a minute that begins at `t`. -/
def inMinute (t : ℕ) (times : List ℕ) : ℕ :=
  times.countP fun x => t ≤ x ∧ x ≤ t + BUDGET_WINDOW_MS

/-- Every minute has at most 50 retries, and every caller is sound. -/
structure RetriesKept (s : State) (h : List (ℕ × Note)) : Prop where
  bounded : ∀ t, inMinute t ((retries h).map Prod.snd) ≤ MAX_RETRIES_PER_WINDOW
  sound : ∀ i c, s.callers[i]? = some c → Sound c.o (notesOf i h)

/-- Retries that are performed within a minute were granted within a minute. -/
def GrantedAlike (h : List (ℕ × Note)) : Prop :=
  ∀ r ∈ retries h, ∀ r' ∈ retries h, r.2 ≤ r'.2 + BUDGET_WINDOW_MS →
    r'.2 ≤ r.2 + BUDGET_WINDOW_MS → r'.1 ≤ r.1 + BUDGET_WINDOW_MS

/-! ## One step -/

variable {c c' : Caller} {ts ts' : List ℕ} {now i : ℕ} {notes notes' : List Note}
  {h es : List (ℕ × Note)} {s s' : State}

/-- What a step of a caller can do: its function returns; a retry is granted; it gives up after
an attempt; it retries; or its timer fires for nothing. -/
theorem act_cases {action : CallerAction} (hact : act c ts now action = some (c', ts', notes')) :
    (∃ attempt, c.phase = .running attempt ∧ c' = { c with phase := .done } ∧ ts' = ts ∧
        notes' = [.returned]) ∨
      (∃ attempt error wakesAt, c.phase = .running attempt ∧
        (evict ts now).length < MAX_RETRIES_PER_WINDOW ∧ ts' = evict ts now ++ [now] ∧
        c' = { c with phase := .waiting attempt now wakesAt, lastError := some error } ∧
        notes' = [.failed error, .granted now]) ∨
      (∃ attempt error, c.phase = .running attempt ∧ (ts' = ts ∨ ts' = evict ts now) ∧
        c' = { c with phase := .done, lastError := some error } ∧
        notes' = [.failed error, .rejected (some error)]) ∨
      (∃ attempt granted wakesAt, c.phase = .waiting attempt granted wakesAt ∧ wakesAt ≤ now ∧
        c.o.maxAttempts.geRat (attempt + 1 : ℕ) = true ∧ ts' = ts ∧
        c' = { c with phase := .running (attempt + 1) } ∧ notes' = [.ran (some granted) now]) ∨
      ∃ attempt granted wakesAt, c.phase = .waiting attempt granted wakesAt ∧ ts' = ts ∧
        c' = { c with phase := .done } ∧ notes' = [.rejected c.lastError] := by
  cases action with
  | succeeds =>
    cases hphase : c.phase with
    | running attempt =>
      simp only [act, hphase] at hact
      obtain ⟨rfl, rfl, rfl⟩ : _ ∧ _ ∧ _ := by simpa using hact
      exact .inl ⟨attempt, rfl, rfl, rfl, rfl⟩
    | waiting => simp [act, hphase] at hact
    | done => simp [act, hphase] at hact
  | fails thrown random mult =>
    cases hphase : c.phase with
    | running attempt =>
      simp only [act, hphase] at hact
      split at hact
      · unfold consumeRetryBudget at hact
        by_cases hfull : MAX_RETRIES_PER_WINDOW ≤ (evict ts now).length
        · simp only [if_pos hfull] at hact
          obtain ⟨rfl, rfl, rfl⟩ : _ ∧ _ ∧ _ := by simpa using hact
          exact .inr (.inr (.inl ⟨attempt, _, rfl, .inr rfl, rfl, rfl⟩))
        · simp only [if_neg hfull] at hact
          obtain ⟨rfl, rfl, rfl⟩ : _ ∧ _ ∧ _ := by simpa using hact
          exact .inr (.inl ⟨attempt, _, _, rfl, not_le.mp hfull, rfl, rfl, rfl⟩)
      · obtain ⟨rfl, rfl, rfl⟩ : _ ∧ _ ∧ _ := by simpa using hact
        exact .inr (.inr (.inl ⟨attempt, _, rfl, .inl rfl, rfl, rfl⟩))
    | waiting => simp [act, hphase] at hact
    | done => simp [act, hphase] at hact
  | wakes =>
    cases hphase : c.phase with
    | running => simp [act, hphase] at hact
    | waiting attempt granted wakesAt =>
      simp only [act, hphase] at hact
      split at hact
      · cases hact
      · next hlate =>
        split at hact
        · next hmore =>
          obtain ⟨rfl, rfl, rfl⟩ : _ ∧ _ ∧ _ := by simpa using hact
          exact .inr (.inr (.inr (.inl
            ⟨attempt, granted, wakesAt, rfl, not_lt.mp hlate, hmore, rfl, rfl, rfl⟩)))
        · obtain ⟨rfl, rfl, rfl⟩ : _ ∧ _ ∧ _ := by simpa using hact
          exact .inr (.inr (.inr (.inr ⟨attempt, granted, wakesAt, rfl, rfl, rfl, rfl⟩)))
    | done => simp [act, hphase] at hact

/-- What a step of the callers can do. -/
theorem step_cases {a : ℕ × Action} (hstep : withRetry.step s a = some (s', es)) :
    s.clock ≤ a.1 ∧ s'.clock = a.1 ∧
      ((∃ o, s'.callers = s.callers ++ [(call o a.1).1] ∧ s'.retryTimestamps = s.retryTimestamps ∧
          es = (call o a.1).2.map fun note => (s.callers.length, note)) ∨
        (∃ i c c' action notes, s.callers[i]? = some c ∧
          act c s.retryTimestamps a.1 action = some (c', s'.retryTimestamps, notes) ∧
          s'.callers = s.callers.set i c' ∧ es = notes.map fun note => (i, note)) ∨
        (s'.callers = s.callers ∧ s'.retryTimestamps = evict s.retryTimestamps a.1 ∧ es = [])) := by
  obtain ⟨now, action⟩ := a
  simp only [withRetry] at hstep
  split at hstep
  · cases hstep
  next hclock =>
  refine ⟨not_lt.mp hclock, ?_⟩
  cases action with
  | call o =>
    obtain ⟨rfl, rfl⟩ := Machine.some_pair hstep
    exact ⟨rfl, .inl ⟨o, rfl, rfl, rfl⟩⟩
  | caller i action =>
    dsimp only at hstep
    cases hc : s.callers[i]? with
    | none =>
      rw [hc] at hstep
      cases hstep
    | some c =>
      rw [hc] at hstep
      obtain ⟨⟨c', ts', notes⟩, hact, hpair⟩ := Option.map_eq_some_iff.mp hstep
      obtain ⟨rfl, rfl⟩ := Prod.mk.inj hpair
      exact ⟨rfl, .inr (.inl ⟨i, c, c', action, notes, hc, hact, rfl, rfl⟩)⟩
  | getRetryBudgetUsage =>
    obtain ⟨rfl, rfl⟩ := Machine.some_pair hstep
    exact ⟨rfl, .inr (.inr ⟨rfl, rfl, rfl⟩)⟩

/-! ## A caller -/

/-- A caller with its notes: until it is done it has not rejected, its attempts are counted, and
while it waits it remembers the last error. -/
structure Kept (c : Caller) (notes : List Note) : Prop where
  sound : Sound c.o notes
  running : ∀ attempt, c.phase = .running attempt → runs notes = attempt ∧
    c.o.maxAttempts.geRat attempt = true ∧ ∀ error, .rejected error ∉ notes
  waiting : ∀ attempt granted wakesAt, c.phase = .waiting attempt granted wakesAt →
    runs notes = attempt ∧ (∀ error, .rejected error ∉ notes) ∧
      c.lastError = (failures notes).getLast?

theorem kept_call (o : RetryOptions) (now : ℕ) : Kept (call o now).1 (call o now).2 := by
  unfold call
  split
  · next hmay =>
    exact ⟨⟨.inr (by simpa [runs] using hmay), fun _ => Nat.le_refl 1,
      fun error hmem => by simp at hmem⟩,
      fun attempt hphase => by
        obtain rfl : 1 = attempt := by simpa using hphase
        exact ⟨rfl, by simpa using hmay, fun error hmem => by simp at hmem⟩,
      fun _ _ _ hphase => by simp at hphase⟩
  · next hnot =>
    exact ⟨⟨.inl rfl, fun hmay => absurd hmay hnot, fun error hmem => by
        obtain rfl : error = none := by simpa using hmem
        rfl⟩,
      fun _ hphase => by simp at hphase, fun _ _ _ hphase => by simp at hphase⟩

/-- Notes that are neither runs nor rejections leave a caller sound. -/
theorem Sound.append {o : RetryOptions} (hsound : Sound o notes) (hruns : runs notes' = 0)
    (hopen : ∀ error, .rejected error ∉ notes)
    (hlast : ∀ error, .rejected error ∈ notes' → error = (failures (notes ++ notes')).getLast?) :
    Sound o (notes ++ notes') where
  most := by rw [runs_append, hruns]; exact hsound.most
  least := by rw [runs_append, hruns]; exact hsound.least
  rejects error hmem := by
    rcases List.mem_append.mp hmem with hold | hnew
    · exact absurd hold (hopen error)
    · exact hlast error hnew

/-- **A step keeps a caller.** -/
theorem Kept.act (hkept : Kept c notes) {action : CallerAction}
    (hact : act c ts now action = some (c', ts', notes')) : Kept c' (notes ++ notes') := by
  rcases act_cases hact with ⟨attempt, hphase, rfl, -, rfl⟩ |
    ⟨attempt, error, wakesAt, hphase, -, -, rfl, rfl⟩ | ⟨attempt, error, hphase, -, rfl, rfl⟩ |
    ⟨attempt, granted, wakesAt, hphase, -, hmore, -, rfl, rfl⟩ |
    ⟨attempt, granted, wakesAt, hphase, -, rfl, rfl⟩
  · obtain ⟨_, _, hopen⟩ := hkept.running attempt hphase
    exact ⟨hkept.sound.append rfl hopen (fun _ hmem => by simp at hmem),
      fun _ hdone => by simp at hdone, fun _ _ _ hdone => by simp at hdone⟩
  · obtain ⟨hruns, _, hopen⟩ := hkept.running attempt hphase
    have hnone : ∀ error', .rejected error' ∉ [Note.failed error, Note.granted now] := by simp
    refine ⟨hkept.sound.append rfl hopen (fun _ hmem => absurd hmem (hnone _)),
      fun _ hwaits => by simp at hwaits, fun _ _ _ hwaits => ?_⟩
    obtain ⟨rfl, -, -⟩ : _ ∧ _ ∧ _ := by simpa using hwaits
    refine ⟨by rw [runs_append, hruns]; rfl, fun error' hmem => ?_, ?_⟩
    · rcases List.mem_append.mp hmem with hold | hnew
      · exact hopen error' hold
      · exact hnone error' hnew
    · rw [failures_append]
      exact (List.getLast?_concat ..).symm
  · obtain ⟨_, _, hopen⟩ := hkept.running attempt hphase
    refine ⟨hkept.sound.append rfl hopen fun error' hmem => ?_,
      fun _ hdone => by simp at hdone, fun _ _ _ hdone => by simp at hdone⟩
    obtain rfl : error' = some error := by simpa using hmem
    rw [failures_append]
    exact (List.getLast?_concat ..).symm
  · obtain ⟨hruns, hopen, _⟩ := hkept.waiting attempt granted wakesAt hphase
    have hcount : runs (notes ++ [.ran (some granted) now]) = attempt + 1 := by
      rw [runs_append, hruns]
      rfl
    have hnone : ∀ error, .rejected error ∉ notes ++ [.ran (some granted) now] := by
      intro error hmem
      rcases List.mem_append.mp hmem with hold | hnew
      · exact hopen error hold
      · simp at hnew
    refine ⟨⟨.inr (by rw [hcount]; exact hmore), fun _ => by omega,
      fun error hmem => absurd hmem (hnone error)⟩, fun attempt' hruns' => ?_,
      fun _ _ _ hruns' => by simp at hruns'⟩
    obtain rfl : attempt + 1 = attempt' := by simpa using hruns'
    exact ⟨hcount, hmore, hnone⟩
  · obtain ⟨_, hopen, hlast⟩ := hkept.waiting attempt granted wakesAt hphase
    refine ⟨hkept.sound.append rfl hopen fun error hmem => ?_,
      fun _ hdone => by simp at hdone, fun _ _ _ hdone => by simp at hdone⟩
    obtain rfl : error = c.lastError := by simpa using hmem
    rw [failures_append, hlast]
    exact congrArg _ (List.append_nil _).symm

/-- Every caller is kept, and nobody else has notes. -/
structure CallersKept (s : State) (h : List (ℕ × Note)) : Prop where
  callers : ∀ i c, s.callers[i]? = some c → Kept c (notesOf i h)
  others : ∀ i, s.callers.length ≤ i → notesOf i h = []

/-- **The callers keep to their attempts, in every order of steps.** -/
theorem callersKept_of_reachable (hrun : withRetry.Reachable s h) : CallersKept s h := by
  refine hrun.invariant ⟨fun i c hc => by simp [withRetry] at hc, fun _ _ => rfl⟩ ?_
  rintro s s' h es ⟨now, action⟩ ⟨hcallers, hothers⟩ hstep
  obtain ⟨-, -, hcall | hact | hevict⟩ := step_cases hstep
  · obtain ⟨o, hnew, -, rfl⟩ := hcall
    refine ⟨fun i c hc => ?_, fun i hi => ?_⟩
    · rw [hnew] at hc
      rw [notesOf_append]
      rcases Nat.lt_trichotomy i s.callers.length with hold | rfl | hover
      · rw [List.getElem?_append_left hold] at hc
        rw [notesOf_other (by omega), List.append_nil]
        exact hcallers i c hc
      · obtain rfl : (call o now).1 = c := by simpa using hc
        rw [hothers _ le_rfl, notesOf_own, List.nil_append]
        exact kept_call o now
      · rw [List.getElem?_eq_none (by rw [List.length_append, List.length_singleton]; omega)] at hc
        cases hc
    · rw [hnew, List.length_append, List.length_singleton] at hi
      rw [notesOf_append, hothers i (by omega), notesOf_other (by omega)]
      rfl
  · obtain ⟨j, c, c', action, notes, hc, hact, hnew, rfl⟩ := hact
    obtain ⟨hj, -⟩ := List.getElem?_eq_some_iff.mp hc
    refine ⟨fun i d hd => ?_, fun i hi => ?_⟩
    · rw [hnew] at hd
      rw [notesOf_append]
      by_cases hij : j = i
      · subst hij
        rw [List.getElem?_set_self hj] at hd
        obtain rfl := Option.some.inj hd
        rw [notesOf_own]
        exact (hcallers j c hc).act hact
      · rw [List.getElem?_set_ne hij] at hd
        rw [notesOf_other hij, List.append_nil]
        exact hcallers i d hd
    · rw [hnew, List.length_set] at hi
      rw [notesOf_append, hothers i hi, notesOf_other (by omega)]
      rfl
  · obtain ⟨hsame, -, rfl⟩ := hevict
    rw [List.append_nil]
    exact ⟨fun i c hc => hcallers i c (hsame ▸ hc), fun i hi => hothers i (hsame ▸ hi)⟩

/-! ## The budget -/

/-- An interval that has not ended sees nothing of what is evicted. -/
theorem countP_evict (ts : List ℕ) {t : ℕ} (hopen : now ≤ t + BUDGET_WINDOW_MS) :
    (evict ts now).countP (t ≤ ·) = ts.countP (t ≤ ·) := by
  induction ts with
  | nil => rfl
  | cons x ts ih =>
    unfold evict at ih ⊢
    by_cases hold : x + BUDGET_WINDOW_MS < now
    · rw [List.dropWhile_cons_of_pos (by simpa using hold), ih,
        List.countP_cons_of_neg (by simp; omega)]
    · rw [List.dropWhile_cons_of_neg (by simpa using hold)]

/-- The list has all the grants of the intervals that have not ended, and there are at most 50 of
them in every interval. -/
structure BudgetKept (s : State) (granted : List ℕ) : Prop where
  recent : ∀ t, s.clock ≤ t + BUDGET_WINDOW_MS →
    granted.countP (t ≤ ·) ≤ s.retryTimestamps.countP (t ≤ ·)
  bounded : ∀ t, inMinute t granted ≤ MAX_RETRIES_PER_WINDOW

/-- Eviction, or no change of the list, as time goes by. -/
theorem BudgetKept.evicted {granted : List ℕ} (hkept : BudgetKept s granted)
    (hclock : s.clock ≤ s'.clock)
    (hts : s'.retryTimestamps = s.retryTimestamps ∨
      s'.retryTimestamps = evict s.retryTimestamps s'.clock) : BudgetKept s' granted := by
  refine ⟨fun t ht => ?_, hkept.bounded⟩
  have hrecent := hkept.recent t (hclock.trans ht)
  rcases hts with hts | hts
  · rwa [hts]
  · rwa [hts, countP_evict _ ht]

/-- A grant finds fewer than 50 in every interval that it falls in. -/
theorem BudgetKept.grant {granted : List ℕ} (hkept : BudgetKept s granted)
    (hclock : s.clock ≤ s'.clock)
    (hroom : (evict s.retryTimestamps s'.clock).length < MAX_RETRIES_PER_WINDOW)
    (hts : s'.retryTimestamps = evict s.retryTimestamps s'.clock ++ [s'.clock]) :
    BudgetKept s' (granted ++ [s'.clock]) := by
  have hrecent : ∀ t, s'.clock ≤ t + BUDGET_WINDOW_MS →
      granted.countP (t ≤ ·) ≤ (evict s.retryTimestamps s'.clock).countP (t ≤ ·) := by
    intro t ht
    rw [countP_evict _ ht]
    exact hkept.recent t (hclock.trans ht)
  refine ⟨fun t ht => ?_, fun t => ?_⟩
  · rw [hts, List.countP_append, List.countP_append]
    exact Nat.add_le_add_right (hrecent t ht) _
  · unfold inMinute
    rw [List.countP_append]
    by_cases hin : t ≤ s'.clock ∧ s'.clock ≤ t + BUDGET_WINDOW_MS
    · have hbefore : granted.countP (fun x => t ≤ x ∧ x ≤ t + BUDGET_WINDOW_MS) <
          MAX_RETRIES_PER_WINDOW := calc
        _ ≤ granted.countP (t ≤ ·) := List.countP_mono_left fun x _ hx => by
            simp only [decide_eq_true_eq] at hx ⊢
            exact hx.1
        _ ≤ (evict s.retryTimestamps s'.clock).countP (t ≤ ·) := hrecent t hin.2
        _ ≤ (evict s.retryTimestamps s'.clock).length := List.countP_le_length
        _ < MAX_RETRIES_PER_WINDOW := hroom
      rw [List.countP_singleton, if_pos (by simpa using hin)]
      exact hbefore
    · rw [List.countP_singleton, if_neg (by simpa using hin), Nat.add_zero]
      exact hkept.bounded t

/-! ## Grants and retries -/

/-- When the retry that a caller waits for was granted. -/
def Caller.pending (c : Caller) : Option ℕ :=
  match c.phase with
  | .waiting _ granted _ => some granted
  | _ => none

/-- Where one element of a list is replaced, one count goes and one comes. -/
theorem count_filterMap_set {α : Type*} (f : α → Option ℕ) {l : List α} {i : ℕ} {a b : α}
    (ha : l[i]? = some a) (x : ℕ) :
    ((l.set i b).filterMap f).count x + (f a).toList.count x =
      (l.filterMap f).count x + (f b).toList.count x := by
  induction l generalizing i with
  | nil => cases ha
  | cons c l ih =>
    cases i with
    | zero =>
      obtain rfl : c = a := by simpa using ha
      rw [List.set_cons_zero]
      cases hc : f c with
      | none =>
        cases hb : f b with
        | none => rw [List.filterMap_cons_none hc, List.filterMap_cons_none hb]
        | some y =>
          rw [List.filterMap_cons_none hc, List.filterMap_cons_some hb]
          simp [List.count_cons]
      | some z =>
        cases hb : f b with
        | none =>
          rw [List.filterMap_cons_some hc, List.filterMap_cons_none hb]
          simp [List.count_cons]
        | some y =>
          rw [List.filterMap_cons_some hc, List.filterMap_cons_some hb]
          simp only [List.count_cons, Option.toList_some, List.count_nil]
          omega
    | succ i =>
      have hrest := ih (by simpa using ha)
      rw [List.set_cons_succ]
      cases hc : f c with
      | none => rw [List.filterMap_cons_none hc, List.filterMap_cons_none hc, hrest]
      | some z =>
        rw [List.filterMap_cons_some hc, List.filterMap_cons_some hc, List.count_cons,
          List.count_cons]
        omega

/-- The grants are on the list of the budget, and each is spent by one retry at most. -/
structure GrantsKept (s : State) (h : List (ℕ × Note)) : Prop where
  budget : BudgetKept s (grants h)
  spent : ∀ x, ((retries h).map Prod.fst).count x +
    (s.callers.filterMap Caller.pending).count x ≤ (grants h).count x

/-- A step of one caller spends no more than it has or is granted. -/
theorem spent_act (hc : s.callers[i]? = some c) {x : ℕ}
    (hspent : ((retries h).map Prod.fst).count x +
      (s.callers.filterMap Caller.pending).count x ≤ (grants h).count x)
    (hstep : ((retries es).map Prod.fst).count x + c'.pending.toList.count x ≤
      c.pending.toList.count x + (grants es).count x) :
    ((retries (h ++ es)).map Prod.fst).count x +
      ((s.callers.set i c').filterMap Caller.pending).count x ≤ (grants (h ++ es)).count x := by
  have hset := count_filterMap_set Caller.pending (b := c') hc x
  rw [retries_append, grants_append, List.map_append, List.count_append, List.count_append]
  omega

theorem BudgetKept.append (hkept : BudgetKept s (grants h)) (hclock : s.clock ≤ s'.clock)
    (hts : s'.retryTimestamps = s.retryTimestamps ∨
      s'.retryTimestamps = evict s.retryTimestamps s'.clock) (hnone : grants es = []) :
    BudgetKept s' (grants (h ++ es)) := by
  rw [grants_append, hnone, List.append_nil]
  exact hkept.evicted hclock hts

theorem grantsKept_act (hkept : GrantsKept s h) {action : CallerAction}
    (hclock : s.clock ≤ s'.clock) (hc : s.callers[i]? = some c)
    (hact : act c s.retryTimestamps s'.clock action = some (c', s'.retryTimestamps, notes))
    (hnew : s'.callers = s.callers.set i c') :
    GrantsKept s' (h ++ notes.map fun note => (i, note)) := by
  rcases act_cases hact with ⟨attempt, hphase, rfl, hts, rfl⟩ |
    ⟨attempt, error, wakesAt, hphase, hroom, hts, rfl, rfl⟩ |
    ⟨attempt, error, hphase, hts, rfl, rfl⟩ |
    ⟨attempt, granted, wakesAt, hphase, -, -, hts, rfl, rfl⟩ |
    ⟨attempt, granted, wakesAt, hphase, hts, rfl, rfl⟩
  · refine ⟨hkept.budget.append hclock (.inl hts) rfl, fun x => ?_⟩
    rw [hnew]
    exact spent_act hc (hkept.spent x) (Nat.zero_le _)
  · refine ⟨?_, fun x => ?_⟩
    · rw [grants_append]
      exact hkept.budget.grant hclock hroom hts
    · rw [hnew]
      exact spent_act hc (hkept.spent x) (Nat.add_le_add_right (Nat.zero_le _) _)
  · refine ⟨hkept.budget.append hclock hts rfl, fun x => ?_⟩
    rw [hnew]
    exact spent_act hc (hkept.spent x) (Nat.zero_le _)
  · refine ⟨hkept.budget.append hclock (.inl hts) rfl, fun x => ?_⟩
    rw [hnew]
    refine spent_act hc (hkept.spent x) ?_
    rw [show c.pending = some granted by simp only [Caller.pending, hphase]]
    exact le_rfl
  · refine ⟨hkept.budget.append hclock (.inl hts) rfl, fun x => ?_⟩
    rw [hnew]
    exact spent_act hc (hkept.spent x) (Nat.zero_le _)

theorem grantsKept_call (hkept : GrantsKept s h) (o : RetryOptions) (hclock : s.clock ≤ s'.clock)
    (hts : s'.retryTimestamps = s.retryTimestamps)
    (hnew : s'.callers = s.callers ++ [(call o s'.clock).1]) :
    GrantsKept s' (h ++ (call o s'.clock).2.map fun note => (s.callers.length, note)) := by
  have hcall : (call o s'.clock).1.pending = none ∧
      grants ((call o s'.clock).2.map fun note => (s.callers.length, note)) = [] ∧
      retries ((call o s'.clock).2.map fun note => (s.callers.length, note)) = [] := by
    unfold call
    split
    · exact ⟨rfl, rfl, rfl⟩
    · exact ⟨rfl, rfl, rfl⟩
  obtain ⟨hpending, hgrants, hretries⟩ := hcall
  refine ⟨?_, fun x => ?_⟩
  · exact hkept.budget.append hclock (.inl hts) hgrants
  · rw [grants_append, retries_append, hgrants, hretries, List.append_nil, List.append_nil, hnew,
      List.filterMap_append, List.filterMap_cons_none hpending, List.filterMap_nil,
      List.append_nil]
    exact hkept.spent x

theorem grantsKept_of_reachable (hrun : withRetry.Reachable s h) : GrantsKept s h := by
  refine hrun.invariant ⟨⟨fun _ _ => le_rfl, fun _ => Nat.zero_le _⟩, fun _ => le_rfl⟩ ?_
  rintro s s' h es ⟨now, action⟩ hkept hstep
  obtain ⟨hclock, rfl, hcall | hact | hevict⟩ := step_cases hstep
  · obtain ⟨o, hnew, hts, rfl⟩ := hcall
    exact grantsKept_call hkept o hclock hts hnew
  · obtain ⟨i, c, c', action, notes, hc, hact, hnew, rfl⟩ := hact
    exact grantsKept_act hkept hclock hc hact hnew
  · obtain ⟨hsame, hts, rfl⟩ := hevict
    rw [List.append_nil]
    exact ⟨hkept.budget.evicted hclock (.inr hts), hsame ▸ hkept.spent⟩

/-- **Where retries keep the distances of their grants, every minute has at most 50 of them.** -/
theorem inMinute_retries (hkept : GrantsKept s h) (halike : GrantedAlike h) (t : ℕ) :
    inMinute t ((retries h).map Prod.snd) ≤ MAX_RETRIES_PER_WINDOW := by
  -- the retries of the minute, by the times of their grants
  have hsub : (((retries h).filter fun r => t ≤ r.2 ∧ r.2 ≤ t + BUDGET_WINDOW_MS).map
      Prod.fst).Subperm (grants h) := by
    refine (List.Sublist.subperm (List.filter_sublist.map _)).trans
      (List.subperm_ext_iff.mpr fun x _ => ?_)
    exact (Nat.le_add_right _ _).trans (hkept.spent x)
  have hlength : inMinute t ((retries h).map Prod.snd) =
      (((retries h).filter fun r => t ≤ r.2 ∧ r.2 ≤ t + BUDGET_WINDOW_MS).map Prod.fst).length := by
    unfold inMinute
    rw [List.countP_map, List.length_map, List.countP_eq_length_filter]
    rfl
  rw [hlength]
  generalize hgranted : ((retries h).filter fun r =>
    t ≤ r.2 ∧ r.2 ≤ t + BUDGET_WINDOW_MS).map Prod.fst = granted at hsub ⊢
  by_cases hne : granted = []
  · rw [hne]
    exact Nat.zero_le _
  obtain ⟨first, hfirst⟩ := Option.isSome_iff_exists.mp (List.isSome_min?_of_ne_nil hne)
  obtain ⟨hmem, hmin⟩ := List.min?_eq_some_iff.mp hfirst
  have hall : granted.countP (fun x => first ≤ x ∧ x ≤ first + BUDGET_WINDOW_MS) =
      granted.length := by
    refine List.countP_eq_length.mpr fun x hx => ?_
    rw [decide_eq_true_eq]
    refine ⟨hmin x hx, ?_⟩
    rw [← hgranted] at hmem hx
    obtain ⟨r, hr, rfl⟩ := List.mem_map.mp hmem
    obtain ⟨r', hr', rfl⟩ := List.mem_map.mp hx
    obtain ⟨hr, hin⟩ := List.mem_filter.mp hr
    obtain ⟨hr', hin'⟩ := List.mem_filter.mp hr'
    rw [decide_eq_true_eq] at hin hin'
    exact halike r hr r' hr' (by omega) (by omega)
  rw [← hall]
  exact (hsub.countP_le _).trans (hkept.budget.bounded first)

/-- **In every order of steps the callers keep to their attempts, and as long as retries that are
performed within a minute were granted within a minute, every minute has at most 50 of them.** -/
theorem retries_kept (hrun : withRetry.Reachable s h) (halike : GrantedAlike h) :
    RetriesKept s h where
  bounded := inMinute_retries (grantsKept_of_reachable hrun) halike
  sound i c hc := ((callersKept_of_reachable hrun).callers i c hc).sound

/-- A caller that fails once. -/
def failsOnce : List (ℕ × Action) :=
  [(0, .call {}), (0, .caller 0 (.fails (.error "timeout") 0 (.finite 1))), (500, .caller 0 .wakes),
    (700, .caller 0 .succeeds)]

theorem retries_kept_failsOnce :
    ∃ s h, retries h = [(0, 500)] ∧ s.callers.length = 1 ∧ RetriesKept s h := by
  have hretries : (withRetry.run failsOnce).map (fun r => (retries r.2, r.1.callers.length)) =
      some ([(0, 500)], 1) := by
    decide +kernel
  obtain ⟨⟨s, h⟩, hrun, heq⟩ := Option.map_eq_some_iff.mp hretries
  obtain ⟨hretries, hlength⟩ := Prod.mk.inj heq
  refine ⟨s, h, hretries, hlength, retries_kept (Machine.reachable_of_run hrun) ?_⟩
  intro r hr r' hr' _ _
  rw [hretries] at hr hr'
  rw [List.mem_singleton.mp hr, List.mem_singleton.mp hr']
  exact Nat.le_add_right _ _

/-- A caller waits five seconds, as a rate limit asks it to. A good minute later fifty others
fail, and wait for half a second. -/
def lateRetry : List (ℕ × Action) :=
  let limited : Thrown := .error "429 Too Many Requests, Retry-After: 5"
  let others := List.range' 1 50
  [(0, .call {}), (0, .caller 0 (.fails limited 0 (.finite 1))), (5000, .caller 0 .wakes)] ++
    others.map (fun _ => (60001, .call {})) ++
    others.map (fun i => (60001, .caller i (.fails (.error "timeout") 0 (.finite 1)))) ++
    others.map (fun i => (60501, .caller i .wakes))

/-- The minute from the first retry on has 51. -/
theorem not_retriesKept_lateRetry :
    ¬ ∀ s h, withRetry.Reachable s h → RetriesKept s h := by
  intro hall
  have hmany : (withRetry.run lateRetry).map
      (fun r => inMinute 5000 ((retries r.2).map Prod.snd)) = some 51 := by
    decide +kernel
  obtain ⟨⟨s, h⟩, hrun, hcount⟩ := Option.map_eq_some_iff.mp hmany
  have hbounded := (hall s h (Machine.reachable_of_run hrun)).bounded 5000
  rw [hcount] at hbounded
  exact absurd hbounded (by decide)

end Retry

end FlashEdge
