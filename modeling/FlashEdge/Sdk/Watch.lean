import FlashEdge.Sdk.FlashSdk
import FlashEdge.Theory.JsonRoundTrip
import FlashEdge.Theory.Machine
import Mathlib.Data.List.Chain

/-!
# Watching a command (`FlashSDK.watch`, `sdk/flash-sdk.ts`)

A loop runs a command again and again and calls back with what is new; the caller can stop it
at any moment, while the command runs, while the loop sleeps, or from inside the callback.
Whether it has been stopped is looked at before the next command only, so a command that is
running then still calls back.

- `watch`: the loop as a machine, driven by what the command answers and by the caller.
- `WatchRight`: no callback after a stop, no more than the limit, no two in a row with the
  same data, and no loop after five failures in a row.
- `watchRight_iff`: the runs of which it holds are those where no command answers with
  something new after a stop.
-/

namespace FlashEdge

/-- The options the loop looks at; `onError` says whether there is such a function. -/
structure WatchOptions where
  deduplicate : Bool := true
  maxIterations : ℕ := 0
  onError : Bool := false

/-- What the loop waits for: the answer of the command, the end of a sleep, or nothing more. -/
inductive WatchPhase where
  | executing
  | sleeping
  | over
deriving DecidableEq

/-- The variables of the loop. -/
structure Watch where
  running : Bool := true
  iteration : ℕ := 0
  lastHash : List CodeUnit := []
  consecutiveFailures : ℕ := 0
  phase : WatchPhase := .executing

inductive WatchEvent where
  | answered
  | failed
  | called (response : FlashResponse) (iteration : ℕ)
  | reported (consecutiveFailures : ℕ)
  | stopped

/-- What drives the loop. With an answer come the deeds of the callback, if there is one: it may
stop the loop, and it may throw. -/
inductive WatchAction where
  | answer (response : FlashResponse) (stops throws : Bool)
  | fail
  | wake
  | stop

namespace Watch

/-- `JSON.stringify(response.data)`. -/
def hash (response : FlashResponse) : List CodeUnit := Json.printLine response.data.toJson

/-- The next round: the loop ends, or the command is run. -/
def next (o : WatchOptions) (s : Watch) : Watch :=
  if s.running = false then { s with phase := .over }
  else if 0 < o.maxIterations ∧ o.maxIterations ≤ s.iteration then
    { s with running := false, phase := .over }
  else { s with phase := .executing }

/-- The loop has caught an error. -/
def caught (o : WatchOptions) (s : Watch) : Watch × List WatchEvent :=
  let s := { s with consecutiveFailures := s.consecutiveFailures + 1 }
  if 5 ≤ s.consecutiveFailures then
    ({ s with running := false, phase := .over },
      if o.onError then [.reported s.consecutiveFailures] else [])
  else ({ s with phase := .sleeping }, [])

/-- The callback is called, and may stop the loop and throw. -/
def callBack (o : WatchOptions) (s : Watch) (response : FlashResponse) (stops throws : Bool) :
    Watch × List WatchEvent :=
  let s := { s with running := s.running && !stops }
  let events := .called response s.iteration :: if stops then [.stopped] else []
  if throws then ((s.caught o).1, events ++ (s.caught o).2)
  else ({ s with phase := .sleeping }, events)

/-- The command has answered. -/
def answer (o : WatchOptions) (s : Watch) (response : FlashResponse) (stops throws : Bool) :
    Watch × List WatchEvent :=
  let s := { s with iteration := s.iteration + 1, consecutiveFailures := 0 }
  if o.deduplicate then
    if hash response = s.lastHash then ({ s with phase := .sleeping }, [.answered])
    else
      let r := { s with lastHash := hash response }.callBack o response stops throws
      (r.1, .answered :: r.2)
  else
    let r := s.callBack o response stops throws
    (r.1, .answered :: r.2)

/-- The command has failed. -/
def fail (o : WatchOptions) (s : Watch) : Watch × List WatchEvent :=
  ((s.caught o).1, .failed :: (s.caught o).2)

def stop (s : Watch) : Watch := { s with running := false }

end Watch

/-- The loop of a call of `watch`; it begins with running the command. -/
def watch (o : WatchOptions) : Machine Watch WatchAction WatchEvent where
  init := {}
  step s
    | .answer response stops throws =>
      if s.phase = .executing then some (s.answer o response stops throws) else none
    | .fail => if s.phase = .executing then some (s.fail o) else none
    | .wake => if s.phase = .sleeping then some (s.next o, []) else none
    | .stop => some (s.stop, [.stopped])

/-! ## What callers expect -/

/-- The data of the callbacks, in order. -/
def callData (h : List WatchEvent) : List JsonData :=
  h.filterMap fun e => match e with
    | .called response _ => some response.data
    | _ => none

def WatchEvent.isFailed : WatchEvent → Bool
  | .failed => true
  | _ => false

def WatchEvent.isAnswered : WatchEvent → Bool
  | .answered => true
  | _ => false

/-- How often the command has failed since it last answered. -/
def failuresInARow (h : List WatchEvent) : ℕ :=
  streak WatchEvent.isFailed WatchEvent.isAnswered h

/-- What is asked of the loop. -/
structure WatchRight (o : WatchOptions) (s : Watch) (h : List WatchEvent) : Prop where
  silent : Each (fun past e => ∀ response n, e = .called response n → .stopped ∉ past) h
  limited : 0 < o.maxIterations → (callData h).length ≤ o.maxIterations
  fresh : o.deduplicate = true → (callData h).IsChain (· ≠ ·)
  ends : 5 ≤ failuresInARow h → s.phase = .over

/-- The command does not answer with something new after a stop. -/
def InTime (o : WatchOptions) (s : Watch) (_ : List WatchEvent) : WatchAction → Prop
  | .answer response _ _ =>
    s.running = true ∨ (o.deduplicate = true ∧ Watch.hash response = s.lastHash)
  | _ => True

namespace Watch

variable {o : WatchOptions} {s s' : Watch} {h : List WatchEvent}

/-! ## What the steps do -/

/-- The answer calls back. -/
def Notifies (o : WatchOptions) (s : Watch) (response : FlashResponse) : Prop :=
  o.deduplicate = true → hash response ≠ s.lastHash

/-- The events of a callback. -/
def callEvents (response : FlashResponse) (n : ℕ) (stops : Bool) : List WatchEvent :=
  .called response n :: if stops then [.stopped] else []

/-- The loop after a callback. -/
structure CalledBack (o : WatchOptions) (s : Watch) (response : FlashResponse) (stops : Bool)
    (s' : Watch) : Prop where
  phase : s'.phase = .sleeping
  running : s'.running = (s.running && !stops)
  iteration : s'.iteration = s.iteration + 1
  lastHash : o.deduplicate = true → s'.lastHash = hash response
  consecutiveFailures : s'.consecutiveFailures < 5

theorem callBack_eq (s : Watch) (response : FlashResponse) (stops throws : Bool)
    (hfew : s.consecutiveFailures = 0) :
    (s.callBack o response stops throws).2 = callEvents response s.iteration stops ∧
      (s.callBack o response stops throws).1 =
        { s with
          running := s.running && !stops
          consecutiveFailures := if throws then 1 else 0
          phase := .sleeping } := by
  unfold callBack
  cases throws with
  | false => simp [callEvents, hfew]
  | true => simp [caught, callEvents, hfew]

/-- **Everything that an answer can do.** -/
theorem answer_cases (s : Watch) (response : FlashResponse) (stops throws : Bool) :
    (¬ Notifies o s response ∧ s.answer o response stops throws =
        ({ s with iteration := s.iteration + 1, consecutiveFailures := 0, phase := .sleeping },
          [.answered])) ∨
      (Notifies o s response ∧
        CalledBack o s response stops (s.answer o response stops throws).1 ∧
        (s.answer o response stops throws).2 =
          .answered :: callEvents response (s.iteration + 1) stops) := by
  have hcalled : ∀ s₁ : Watch, s₁.consecutiveFailures = 0 → s₁.running = s.running →
      s₁.iteration = s.iteration + 1 → (o.deduplicate = true → s₁.lastHash = hash response) →
      CalledBack o s response stops (s₁.callBack o response stops throws).1 ∧
        (s₁.callBack o response stops throws).2 =
          callEvents response (s.iteration + 1) stops := by
    intro s₁ hfew hrunning hiteration hlast
    obtain ⟨hevents, hstate⟩ := callBack_eq (o := o) s₁ response stops throws hfew
    rw [hevents, hstate, hiteration]
    refine ⟨⟨rfl, by rw [hrunning], rfl, hlast, ?_⟩, rfl⟩
    show (if throws then 1 else 0) < 5
    split <;> decide
  unfold answer
  dsimp only
  split
  · next hdedup =>
    split
    · next hsame => exact .inl ⟨fun hnew => hnew hdedup hsame, rfl⟩
    · next hnew =>
      obtain ⟨hstate, hevents⟩ := hcalled { s with
        iteration := s.iteration + 1, consecutiveFailures := 0, lastHash := hash response }
        rfl rfl rfl fun _ => rfl
      exact .inr ⟨fun _ => hnew, hstate, congrArg _ hevents⟩
  · next hdedup =>
    obtain ⟨hstate, hevents⟩ := hcalled { s with
      iteration := s.iteration + 1, consecutiveFailures := 0 }
      rfl rfl rfl fun h => absurd h hdedup
    exact .inr ⟨fun h => absurd h hdedup, hstate, congrArg _ hevents⟩

/-- **Everything that a failure can do.** -/
theorem fail_cases (s : Watch) :
    ∃ reports, (∀ e ∈ reports, ∃ n, e = WatchEvent.reported n) ∧
      (s.fail o).2 = .failed :: reports ∧
      (s.fail o).1.iteration = s.iteration ∧ (s.fail o).1.lastHash = s.lastHash ∧
      (s.fail o).1.consecutiveFailures = s.consecutiveFailures + 1 ∧
      ((s.fail o).1.phase = .over ∨
        ((s.fail o).1.phase = .sleeping ∧ (s.fail o).1.running = s.running ∧
          s.consecutiveFailures + 1 < 5)) := by
  unfold fail caught
  dsimp only
  split
  · refine ⟨_, ?_, rfl, rfl, rfl, rfl, .inl rfl⟩
    split
    · exact fun e he => ⟨_, List.mem_singleton.mp he⟩
    · exact fun e he => absurd he (List.not_mem_nil)
  · next hfew => exact ⟨[], fun e he => absurd he (List.not_mem_nil), rfl, rfl, rfl, rfl,
      .inr ⟨rfl, rfl, not_le.mp hfew⟩⟩

/-- **Everything that waking up can do.** -/
theorem next_cases (s : Watch) :
    (s.next o).iteration = s.iteration ∧ (s.next o).lastHash = s.lastHash ∧
      (s.next o).consecutiveFailures = s.consecutiveFailures ∧
      ((s.next o).phase = .over ∨
        ((s.next o).phase = .executing ∧ (s.next o).running = s.running ∧
          (0 < o.maxIterations → s.iteration < o.maxIterations))) := by
  unfold next
  split
  · exact ⟨rfl, rfl, rfl, .inl rfl⟩
  · split
    · exact ⟨rfl, rfl, rfl, .inl rfl⟩
    · next hmore =>
      exact ⟨rfl, rfl, rfl, .inr ⟨rfl, rfl, fun hmax => not_le.mp fun h => hmore ⟨hmax, h⟩⟩⟩

/-! ## What the events say -/

theorem callData_append (h es : List WatchEvent) :
    callData (h ++ es) = callData h ++ callData es := List.filterMap_append ..

theorem callData_callEvents (response : FlashResponse) (n : ℕ) (stops : Bool) :
    callData (.answered :: callEvents response n stops) = [response.data] := by
  cases stops <;> rfl

theorem callData_reports {reports : List WatchEvent}
    (h : ∀ e ∈ reports, ∃ n, e = WatchEvent.reported n) :
    callData (.failed :: reports) = [] := by
  refine List.filterMap_eq_nil_iff.mpr fun e he => ?_
  rcases List.mem_cons.mp he with rfl | he
  · rfl
  · obtain ⟨n, rfl⟩ := h e he
    rfl

theorem failures_callEvents (h : List WatchEvent) (response : FlashResponse) (n : ℕ)
    (stops : Bool) : failuresInARow (h ++ .answered :: callEvents response n stops) = 0 := by
  unfold failuresInARow
  rw [streak_append]
  cases stops <;> rfl

theorem failures_answered (h : List WatchEvent) : failuresInARow (h ++ [.answered]) = 0 := by
  unfold failuresInARow
  rw [streak_append]
  rfl

theorem failures_reports {h reports : List WatchEvent}
    (hreports : ∀ e ∈ reports, ∃ n, e = WatchEvent.reported n) :
    failuresInARow (h ++ .failed :: reports) = failuresInARow h + 1 := by
  unfold failuresInARow
  rw [streak_append, List.foldl_cons]
  show List.foldl _ (streak _ _ h + 1) reports = _
  induction reports with
  | nil => rfl
  | cons e reports ih =>
    obtain ⟨n, rfl⟩ := hreports e List.mem_cons_self
    exact ih fun e he => hreports e (List.mem_cons_of_mem _ he)

theorem failures_stopped (h : List WatchEvent) :
    failuresInARow (h ++ [.stopped]) = failuresInARow h := by
  unfold failuresInARow
  rw [streak_append]
  rfl

/-- Every callback comes before the stops. -/
abbrev Silent (h : List WatchEvent) : Prop :=
  Each (fun past e => ∀ response n, e = .called response n → .stopped ∉ past) h

/-- Events that are no callbacks. -/
theorem Silent.append (hsilent : Silent h) {es : List WatchEvent} (hes : callData es = []) :
    Silent (h ++ es) := by
  refine hsilent.append_of_forall fun pre e he response n hcalled => ?_
  rw [callData, List.filterMap_eq_nil_iff] at hes
  have hnone := hes e he
  rw [hcalled] at hnone
  cases hnone

theorem silent_callEvents (hsilent : Silent h) (hunstopped : .stopped ∉ h)
    {response : FlashResponse} {n : ℕ} {stops : Bool} :
    Silent (h ++ .answered :: callEvents response n stops) := by
  have hsplit : h ++ .answered :: callEvents response n stops =
      ((h ++ [.answered]) ++ [.called response n]) ++ if stops then [.stopped] else [] := by
    simp [callEvents]
  rw [hsplit]
  have hanswered : Silent (h ++ [.answered]) := hsilent.append rfl
  have hcalled : Silent ((h ++ [.answered]) ++ [.called response n]) :=
    hanswered.snoc fun _ _ _ => by simp [hunstopped]
  exact hcalled.append (by cases stops <;> rfl)

/-! ## The invariant -/

/-- What every step keeps, if it is in time. -/
structure Inv (o : WatchOptions) (s : Watch) (h : List WatchEvent) : Prop where
  silent : Silent h
  fresh : o.deduplicate = true → (callData h).IsChain (· ≠ ·)
  /-- as long as the loop goes on, only a stop ends `running` -/
  stopped : s.phase ≠ .over → (s.running = false ↔ .stopped ∈ h)
  calls : (callData h).length ≤ s.iteration
  iteration : 0 < o.maxIterations → s.iteration ≤ o.maxIterations
  executing : s.phase = .executing → 0 < o.maxIterations → s.iteration < o.maxIterations
  lastHash : o.deduplicate = true → ∀ d ∈ (callData h).getLast?,
    Json.printLine d.toJson = s.lastHash
  failures : failuresInARow h ≤ s.consecutiveFailures
  few : s.phase ≠ .over → s.consecutiveFailures < 5

theorem Inv.right (hI : Inv o s h) : WatchRight o s h where
  silent := hI.silent
  limited hmax := hI.calls.trans (hI.iteration hmax)
  fresh := hI.fresh
  ends hmany := by
    by_contra hgoing
    have hfew := hI.few hgoing
    have hcounted := hI.failures
    omega

theorem inv_init (o : WatchOptions) : Inv o {} [] where
  silent := .nil
  fresh _ := List.isChain_nil
  stopped _ := by simp
  calls := le_rfl
  iteration _ := Nat.zero_le _
  executing _ hmax := hmax
  lastHash _ d hd := by cases hd
  failures := le_rfl
  few _ := by decide

theorem Inv.answer (hI : Inv o s h) (hphase : s.phase = .executing) {response : FlashResponse}
    {stops throws : Bool} (htime : InTime o s h (.answer response stops throws)) :
    Inv o (s.answer o response stops throws).1 (h ++ (s.answer o response stops throws).2) := by
  have hgoing : s.phase ≠ .over := by rw [hphase]; decide
  rcases answer_cases (o := o) s response stops throws with ⟨-, heq⟩ | ⟨hnew, hstate, hevents⟩
  · rw [heq]
    refine ⟨?_, ?_, ?_, ?_, ?_, ?_, ?_, ?_, ?_⟩
    · exact hI.silent.snoc fun response n he => by cases he
    · rw [callData_append, show callData [.answered] = [] from rfl, List.append_nil]
      exact hI.fresh
    · intro _
      rw [hI.stopped hgoing]
      simp
    · rw [callData_append, show callData [.answered] = [] from rfl, List.append_nil]
      exact hI.calls.trans (Nat.le_succ _)
    · exact fun hmax => hI.executing hphase hmax
    · intro hexec
      cases hexec
    · rw [callData_append, show callData [.answered] = [] from rfl, List.append_nil]
      exact hI.lastHash
    · exact (failures_answered h).le
    · exact fun _ => show 0 < 5 by decide
  · have hrunning : s.running = true := by
      rcases htime with hrunning | ⟨hdedup, hsame⟩
      · exact hrunning
      · exact absurd hsame (hnew hdedup)
    have hunstopped : .stopped ∉ h := fun hmem => by
      rw [(hI.stopped hgoing).mpr hmem] at hrunning
      cases hrunning
    rw [hevents]
    refine ⟨?_, ?_, ?_, ?_, ?_, ?_, ?_, ?_, ?_⟩
    · exact silent_callEvents hI.silent hunstopped
    · intro hdedup
      rw [callData_append, callData_callEvents]
      refine (hI.fresh hdedup).append (List.isChain_singleton _) fun d hd d' hd' => ?_
      obtain rfl := Option.some.inj hd'
      rintro rfl
      exact hnew hdedup (hI.lastHash hdedup _ hd)
    · intro _
      rw [hstate.running, hrunning]
      cases stops <;> simp [callEvents, hunstopped]
    · rw [callData_append, callData_callEvents, List.length_append, hstate.iteration]
      exact Nat.succ_le_succ hI.calls
    · intro hmax
      rw [hstate.iteration]
      exact hI.executing hphase hmax
    · intro hexec
      rw [hstate.phase] at hexec
      cases hexec
    · intro hdedup d hd
      rw [callData_append, callData_callEvents, List.getLast?_concat] at hd
      obtain rfl := Option.some.inj hd
      exact (hstate.lastHash hdedup).symm
    · rw [failures_callEvents]
      exact Nat.zero_le _
    · exact fun _ => hstate.consecutiveFailures

theorem Inv.fail (hI : Inv o s h) (hphase : s.phase = .executing) :
    Inv o (s.fail o).1 (h ++ (s.fail o).2) := by
  have hgoing : s.phase ≠ .over := by rw [hphase]; decide
  obtain ⟨reports, hreports, hevents, hiteration, hlast, hfailures, hphases⟩ :=
    fail_cases (o := o) s
  have hnone := callData_reports hreports
  have hunstopped : .stopped ∉ WatchEvent.failed :: reports := by
    intro hmem
    obtain ⟨n, hn⟩ := hreports .stopped (by simpa using hmem)
    cases hn
  rw [hevents]
  refine ⟨hI.silent.append hnone, ?_, ?_, ?_, ?_, ?_, ?_, ?_, ?_⟩
  · rw [callData_append, hnone, List.append_nil]
    exact hI.fresh
  · intro hmore
    rcases hphases with hover | ⟨-, hrunning, -⟩
    · exact absurd hover hmore
    · rw [hrunning, hI.stopped hgoing, List.mem_append]
      exact ⟨.inl, fun hmem => hmem.resolve_right hunstopped⟩
  · rw [callData_append, hnone, List.append_nil, hiteration]
    exact hI.calls
  · rw [hiteration]
    exact hI.iteration
  · intro hexec
    rcases hphases with hover | ⟨hsleep, -, -⟩
    · rw [hover] at hexec
      cases hexec
    · rw [hsleep] at hexec
      cases hexec
  · rw [callData_append, hnone, List.append_nil, hlast]
    exact hI.lastHash
  · rw [failures_reports hreports, hfailures]
    exact Nat.succ_le_succ hI.failures
  · intro hmore
    rw [hfailures]
    rcases hphases with hover | ⟨-, -, hfew⟩
    · exact absurd hover hmore
    · exact hfew

theorem Inv.next (hI : Inv o s h) (hphase : s.phase = .sleeping) : Inv o (s.next o) h := by
  have hgoing : s.phase ≠ .over := by rw [hphase]; decide
  obtain ⟨hiteration, hlast, hfailures, hphases⟩ := next_cases (o := o) s
  refine ⟨hI.silent, hI.fresh, ?_, ?_, ?_, ?_, ?_, ?_, ?_⟩
  · intro hmore
    rcases hphases with hover | ⟨-, hrunning, -⟩
    · exact absurd hover hmore
    · rw [hrunning]
      exact hI.stopped hgoing
  · rw [hiteration]
    exact hI.calls
  · rw [hiteration]
    exact hI.iteration
  · intro hexec
    rcases hphases with hover | ⟨-, -, hlimit⟩
    · rw [hover] at hexec
      cases hexec
    · rw [hiteration]
      exact hlimit
  · rw [hlast]
    exact hI.lastHash
  · rw [hfailures]
    exact hI.failures
  · intro _
    rw [hfailures]
    exact hI.few hgoing

theorem Inv.stop (hI : Inv o s h) : Inv o s.stop (h ++ [.stopped]) := by
  have hnone : callData [.stopped] = [] := rfl
  refine ⟨hI.silent.append hnone, ?_, fun _ => ?_, ?_, hI.iteration, hI.executing, ?_, ?_, hI.few⟩
  · rw [callData_append, hnone, List.append_nil]
    exact hI.fresh
  · show false = false ↔ _
    simp
  · rw [callData_append, hnone, List.append_nil]
    exact hI.calls
  · rw [callData_append, hnone, List.append_nil]
    exact hI.lastHash
  · rw [failures_stopped]
    exact hI.failures

/-- A callback after a stop. -/
theorem not_right_of_late (hI : Inv o s h) (hphase : s.phase = .executing)
    {response : FlashResponse} {stops throws : Bool}
    (hlate : ¬ InTime o s h (.answer response stops throws)) (s' : Watch) :
    ¬ WatchRight o s' (h ++ (s.answer o response stops throws).2) := by
  have hgoing : s.phase ≠ .over := by rw [hphase]; decide
  obtain ⟨hstopped, hnew⟩ := not_or.mp hlate
  have hmem := (hI.stopped hgoing).mp (Bool.not_eq_true _ ▸ hstopped)
  intro hright
  rcases answer_cases (o := o) s response stops throws with ⟨hsame, -⟩ | ⟨-, -, hevents⟩
  · exact hsame fun hdedup hhash => hnew ⟨hdedup, hhash⟩
  · rw [hevents] at hright
    exact hright.silent (h ++ [.answered]) (.called response (s.iteration + 1))
      (if stops then [.stopped] else []) (by simp [callEvents]) response _ rfl
      (List.mem_append_left _ hmem)

/-- **One step.** -/
theorem step_right (hI : Inv o s h) {a : WatchAction} {es : List WatchEvent}
    (hs : (watch o).step s a = some (s', es)) :
    (InTime o s h a ∧ Inv o s' (h ++ es)) ∨
      (¬ InTime o s h a ∧ ¬ WatchRight o s' (h ++ es)) := by
  cases a with
  | answer response stops throws =>
    obtain ⟨hphase, hanswer⟩ := Option.ite_none_right_eq_some.mp hs
    obtain ⟨rfl, rfl⟩ := Machine.some_pair hanswer
    by_cases htime : InTime o s h (.answer response stops throws)
    · exact .inl ⟨htime, hI.answer hphase htime⟩
    · exact .inr ⟨htime, not_right_of_late hI hphase htime _⟩
  | fail =>
    obtain ⟨hphase, hfail⟩ := Option.ite_none_right_eq_some.mp hs
    obtain ⟨rfl, rfl⟩ := Machine.some_pair hfail
    exact .inl ⟨trivial, hI.fail hphase⟩
  | wake =>
    obtain ⟨hphase, hwake⟩ := Option.ite_none_right_eq_some.mp hs
    obtain ⟨rfl, rfl⟩ := Machine.some_pair hwake
    rw [List.append_nil]
    exact .inl ⟨trivial, hI.next hphase⟩
  | stop =>
    obtain ⟨rfl, rfl⟩ := Machine.some_pair hs
    exact .inl ⟨trivial, hI.stop⟩

end Watch

/-- **When a watched command is watched right.** A run of the loop is as callers expect exactly
when no command answers with something new after a stop. -/
theorem watchRight_iff (o : WatchOptions) (actions : List WatchAction) :
    (watch o).Always (WatchRight o) (watch o).init [] actions ↔
      (watch o).Along (InTime o) (watch o).init [] actions :=
  Machine.always_iff_along_of_step (I := Watch.Inv o) Watch.Inv.right
    (fun hI hs => Watch.step_right hI hs) (Watch.inv_init o) actions

/-- An answer without data. -/
def emptyResponse : FlashResponse where
  success := true
  command := []
  timestamp := []
  version := []
  data := .null
  error := .null

/-- The loop is stopped while the first command runs; the answer is delivered. -/
theorem not_watchRight_stopped :
    ¬ (watch {}).Always (WatchRight {}) (watch {}).init []
      [.stop, .answer emptyResponse false false] := by
  rintro ⟨-, hrest⟩
  have hright := ((hrest _ _ rfl).2 _ _ rfl).silent
  exact hright [.stopped, .answered] (.called emptyResponse 1) [] rfl emptyResponse 1 rfl
    (by simp)

end FlashEdge
