import FlashEdge.Core.Submission
import FlashEdge.Theory.Machine

/-!
# Waiting for the confirmation of a transaction (`core/ultra-tx-engine.ts`)

`waitForConfirmation` is one promise that a notification, the polls and the check after the
timeout race to settle. Each of them first releases what the others use: the subscription and
three timers. The timers are constants that are initialized after the subscription is made,
so a notification that is delivered while subscribing finds them uninitialized, and releasing
them throws: after the promise counts as settled, and before it is.

- `confirmationWait`: notifications, ticks, answers and the timeout in any order.
- `conclusions`, `settlements`: what was observed that decides the transaction, and how the
  promise was settled.
- `SettledOnce`: the promise is settled by the first conclusion, and everything is released.
- `settledOnce_iff`: that holds along a run exactly when no notification is delivered while
  subscribing.

The targets of a rebroadcast are left out; a subscription is removed by the library once it has
delivered, which the code relies on.
-/

namespace FlashEdge

/-- What the wait reads of the engine's configuration; `timeoutSeconds` is the text of the
timeout in seconds. -/
structure WaitConfig where
  wsConfirmation : Bool := true
  timeoutSeconds : String := "45"
deriving DecidableEq, Repr

/-- Which of the timers are running. -/
structure WaitTimers where
  poll : Bool
  rebroadcast : Bool
  timeout : Bool
deriving DecidableEq, Repr

/-- The local variables of a wait, and what it has asked for. `timers` is empty before they are
initialized; `listening` says whether the library still has the subscription. -/
structure ConfirmationWait where
  begun : Bool := false
  settled : Bool := false
  wsSubscriptionId : Bool := false
  listening : Bool := false
  timers : Option WaitTimers := none
  polls : ℕ := 0
  lateCheck : Bool := false
  rebroadcastCount : ℕ := 0
deriving DecidableEq, Repr

/-- What subscribing does: it succeeds, it throws, or it delivers a notification at once. -/
inductive Subscribing where
  | subscribed
  | failed
  | delivered (err : Option String)
deriving DecidableEq, Repr

/-- The answer to a status request; `none` when it throws. -/
abbrev StatusAnswer := Option (Option SignatureStatus)

inductive WaitAction where
  | begin (subscribing : Subscribing)
  | notified (err : Option String)
  | pollTick
  | pollAnswered (answer : StatusAnswer)
  | rebroadcastTick
  | timeoutFired
  | lateAnswered (answer : StatusAnswer)
deriving DecidableEq, Repr

/-- An observation that decides the transaction (whether it is confirmed), and the settling of
the promise. -/
inductive WaitEvent where
  | observed (confirmed : Bool)
  | resolved (confirmedViaWs : Bool) (rebroadcastCount : ℕ)
  | rejected (message : String)
deriving DecidableEq, Repr

namespace ConfirmationWait

/-- Release everything. It throws, after `settled` is written, when the timers are not
initialized. A subscription that has delivered is removed by the library. -/
def cleanup (s : ConfirmationWait) (viaWs : Bool) : ConfirmationWait × Bool :=
  let s := { s with settled := true }
  match s.timers with
  | none => (s, false)
  | some _ =>
    let s := { s with timers := some ⟨false, false, false⟩ }
    (if s.wsSubscriptionId && !viaWs then { s with listening := false } else s, true)

/-- Settle the promise, unless it is settled; the last component says whether this returns. -/
def settle (s : ConfirmationWait) (viaWs : Bool) (outcome : WaitEvent) :
    ConfirmationWait × List WaitEvent × Bool :=
  if s.settled then (s, [], true)
  else
    match s.cleanup viaWs with
    | (s, true) => (s, [outcome], true)
    | (s, false) => (s, [], false)

def onConfirmed (s : ConfirmationWait) (viaWs : Bool) :
    ConfirmationWait × List WaitEvent × Bool :=
  s.settle viaWs (.resolved viaWs s.rebroadcastCount)

def onError (s : ConfirmationWait) (message : String) : ConfirmationWait × List WaitEvent × Bool :=
  s.settle false (.rejected message)

/-- The callback of the subscription. -/
def onSignature (s : ConfirmationWait) (err : Option String) :
    ConfirmationWait × List WaitEvent × Bool :=
  match err with
  | some err => s.onError ("Transaction failed on-chain: " ++ err)
  | none => s.onConfirmed true

/-- Subscribe; what is thrown is caught. -/
def subscribe (s : ConfirmationWait) : Subscribing → ConfirmationWait × List WaitEvent
  | .subscribed => ({ s with wsSubscriptionId := true, listening := true }, [])
  | .failed => (s, [])
  | .delivered err =>
    match s.onSignature err with
    | (s, es, true) => ({ s with wsSubscriptionId := true }, .observed err.isNone :: es)
    | (s, es, false) => (s, .observed err.isNone :: es)

variable (config : WaitConfig)

/-- The executor of the promise. -/
def begin (s : ConfirmationWait) (subscribing : Subscribing) :
    ConfirmationWait × List WaitEvent :=
  let (s, es) := if config.wsConfirmation then s.subscribe subscribing else (s, [])
  ({ s with begun := true, timers := some ⟨true, true, true⟩ }, es)

/-- The answer to a poll. -/
def pollAnswered (s : ConfirmationWait) (answer : StatusAnswer) :
    ConfirmationWait × List WaitEvent :=
  match answer with
  | some (some status) =>
    match status.err with
    | some err =>
      let (s, es, _) := s.onError ("Transaction failed on-chain: " ++ err)
      (s, .observed false :: es)
    | none =>
      if status.landed then
        let (s, es, _) := s.onConfirmed false
        (s, .observed true :: es)
      else (s, [])
  | _ => (s, [])

/-- The last check has found the transaction confirmed. -/
def confirmedLate : StatusAnswer → Bool
  | some (some status) => status.landed
  | _ => false

/-- The answer to the check after the timeout. -/
def lateAnswered (s : ConfirmationWait) (answer : StatusAnswer) :
    ConfirmationWait × List WaitEvent :=
  if confirmedLate answer then
    let (s, es, _) := s.onConfirmed false
    (s, .observed true :: es)
  else
    let (s, es, _) := s.onError ("Not confirmed within " ++ config.timeoutSeconds ++ "s")
    (s, .observed false :: es)

/-- A timer runs. -/
def runs (s : ConfirmationWait) (timer : WaitTimers → Bool) : Bool := s.timers.any timer

def step (s : ConfirmationWait) : WaitAction → Option (ConfirmationWait × List WaitEvent)
  | .begin subscribing => if s.begun then none else some (s.begin config subscribing)
  | .notified err =>
    if s.listening then
      let (s, es, _) := s.onSignature err
      some ({ s with listening := false }, .observed err.isNone :: es)
    else none
  | .pollTick =>
    if s.runs WaitTimers.poll then
      some (if s.settled then s else { s with polls := s.polls + 1 }, [])
    else none
  | .pollAnswered answer =>
    if 0 < s.polls then some ({ s with polls := s.polls - 1 }.pollAnswered answer) else none
  | .rebroadcastTick =>
    if s.runs WaitTimers.rebroadcast then
      some (if s.settled then s else { s with rebroadcastCount := s.rebroadcastCount + 1 }, [])
    else none
  | .timeoutFired =>
    if s.runs WaitTimers.timeout then
      let s := { s with timers := s.timers.map fun t => { t with timeout := false } }
      some (if s.settled then s else { s with lateCheck := true }, [])
    else none
  | .lateAnswered answer =>
    if s.lateCheck then some ({ s with lateCheck := false }.lateAnswered config answer) else none

end ConfirmationWait

/-- One wait. -/
def confirmationWait (config : WaitConfig) : Machine ConfirmationWait WaitAction WaitEvent where
  init := {}
  step := ConfirmationWait.step config

namespace ConfirmationWait

/-! ## What is promised -/

/-- What was observed that decides the transaction. -/
def conclusions (h : List WaitEvent) : List Bool :=
  h.filterMap fun e =>
    match e with
    | .observed confirmed => some confirmed
    | _ => none

/-- How the promise was settled: whether it was resolved. -/
def settlements (h : List WaitEvent) : List Bool :=
  h.filterMap fun e =>
    match e with
    | .observed _ => none
    | .resolved _ _ => some true
    | .rejected _ => some false

/-- No timer runs, and the library has no subscription. -/
structure Released (s : ConfirmationWait) : Prop where
  timers : s.timers = some ⟨false, false, false⟩
  subscription : s.listening = false

/-- The promise is settled once, by the first conclusion, and then everything is released. -/
structure SettledOnce (s : ConfirmationWait) (h : List WaitEvent) : Prop where
  first : settlements h = (conclusions h).take 1
  released : settlements h ≠ [] → s.Released

/-- No notification is delivered while subscribing. -/
def DeliversLater (config : WaitConfig) (_ : ConfirmationWait) (_ : List WaitEvent) :
    WaitAction → Prop
  | .begin (.delivered _) => config.wsConfirmation = false
  | _ => True

/-! ## Settling -/

theorem conclusions_append (h es : List WaitEvent) :
    conclusions (h ++ es) = conclusions h ++ conclusions es := List.filterMap_append

theorem settlements_append (h es : List WaitEvent) :
    settlements (h ++ es) = settlements h ++ settlements es := List.filterMap_append

variable {s s' : ConfirmationWait} {h es : List WaitEvent} {config : WaitConfig}

/-- What holds between two steps: nothing has been concluded, or the first conclusion has
settled the promise and everything is released. -/
structure WaitInv (s : ConfirmationWait) (h : List WaitEvent) : Prop where
  fresh : s.begun = false → s = {}
  initialized : s.begun = true → s.timers.isSome = true
  subscribed : s.listening = true → s.wsSubscriptionId = true
  pending : s.settled = false → conclusions h = [] ∧ settlements h = []
  closed : s.settled = true → (∃ confirmed rest, conclusions h = confirmed :: rest ∧
    settlements h = [confirmed]) ∧ s.Released

theorem WaitInv.settledOnce (hI : WaitInv s h) : SettledOnce s h := by
  cases hset : s.settled with
  | false =>
    obtain ⟨hnone, hnone'⟩ := hI.pending hset
    refine ⟨by rw [hnone, hnone']; rfl, fun hne => absurd hnone' hne⟩
  | true =>
    obtain ⟨⟨confirmed, rest, hfirst, hsettled⟩, hreleased⟩ := hI.closed hset
    exact ⟨by rw [hfirst, hsettled]; rfl, fun _ => hreleased⟩

/-- Whatever is not the initial state has begun. -/
theorem WaitInv.begun (hI : WaitInv s h) (hne : s ≠ {}) : s.begun = true := by
  cases hbegun : s.begun with
  | false => exact absurd (hI.fresh hbegun) hne
  | true => rfl

/-- A step that concludes nothing and releases nothing. -/
theorem WaitInv.same (hI : WaitInv s h) (hbegun : s'.begun = true)
    (hset : s'.settled = s.settled) (htimers : s'.timers.isSome = true)
    (hsub : s'.wsSubscriptionId = s.wsSubscriptionId) (hlisten : s'.listening = s.listening)
    (hreleased : s.Released → s'.Released) : WaitInv s' (h ++ []) := by
  rw [List.append_nil]
  refine ⟨fun hf => ?_, fun _ => htimers, ?_, ?_, ?_⟩
  · rw [hbegun] at hf
    cases hf
  · rw [hlisten, hsub]
    exact hI.subscribed
  · rw [hset]
    exact hI.pending
  · rw [hset]
    exact fun hs => ⟨(hI.closed hs).1, hreleased (hI.closed hs).2⟩

theorem settle_settled (hset : s.settled = true) (viaWs : Bool) (outcome : WaitEvent) :
    s.settle viaWs outcome = (s, [], true) := by
  unfold settle
  rw [if_pos hset]

/-- The first to settle releases the timers, and the subscription unless it has delivered. -/
theorem settle_open (hset : s.settled = false) (htimers : s.timers.isSome = true) (viaWs : Bool)
    (outcome : WaitEvent) :
    s.settle viaWs outcome =
      ({ s with
          settled := true
          timers := some ⟨false, false, false⟩
          listening := s.listening && !(s.wsSubscriptionId && !viaWs) }, [outcome], true) := by
  obtain ⟨timers, htimers⟩ := Option.isSome_iff_exists.mp htimers
  unfold settle cleanup
  rw [hset, if_neg Bool.false_ne_true]
  simp only [htimers]
  cases s.wsSubscriptionId && !viaWs with
  | false => simp
  | true => simp

/-- **A conclusion.** If it is the first, it settles the promise and everything is released;
if it is not, it changes nothing. -/
theorem WaitInv.concluded (hI : WaitInv s h) (hbegun : s.begun = true) (viaWs : Bool)
    {outcome : WaitEvent} {confirmed : Bool} (hout : settlements [outcome] = [confirmed])
    (hnone : conclusions [outcome] = []) :
    WaitInv { (s.settle viaWs outcome).1 with listening := false }
      (h ++ .observed confirmed :: (s.settle viaWs outcome).2.1) := by
  have htimers := hI.initialized hbegun
  cases hset : s.settled with
  | true =>
    obtain ⟨⟨first, rest, hfirst, hsettled⟩, hreleased⟩ := hI.closed hset
    rw [settle_settled hset]
    refine ⟨fun hf => ?_, fun _ => htimers, fun hl => (by cases hl), fun hf => ?_,
      fun _ => ⟨?_, ?_⟩⟩
    · change s.begun = false at hf
      rw [hbegun] at hf
      cases hf
    · change s.settled = false at hf
      rw [hset] at hf
      cases hf
    · refine ⟨first, rest ++ [confirmed], ?_, ?_⟩
      · rw [conclusions_append, hfirst]
        rfl
      · rw [settlements_append, hsettled]
        rfl
    · exact ⟨hreleased.timers, rfl⟩
  | false =>
    obtain ⟨hno, hno'⟩ := hI.pending hset
    rw [settle_open hset htimers]
    refine ⟨fun hf => ?_, fun _ => rfl, fun hl => (by cases hl), fun hf => (by cases hf),
      fun _ => ⟨?_, rfl, rfl⟩⟩
    · change s.begun = false at hf
      rw [hbegun] at hf
      cases hf
    · refine ⟨confirmed, [], ?_, ?_⟩
      · rw [conclusions_append, hno]
        exact congrArg (confirmed :: ·) hnone
      · rw [settlements_append, hno']
        exact hout

/-- Settling other than by a notification leaves no subscription. -/
theorem WaitInv.unsubscribed (hI : WaitInv s h) (hbegun : s.begun = true) (outcome : WaitEvent) :
    { (s.settle false outcome).1 with listening := false } = (s.settle false outcome).1 := by
  have hlisten : (s.settle false outcome).1.listening = false := by
    cases hset : s.settled with
    | true =>
      rw [settle_settled hset]
      exact (hI.closed hset).2.subscription
    | false =>
      rw [settle_open hset (hI.initialized hbegun)]
      cases hl : s.listening with
      | false => simp
      | true => simp [hI.subscribed hl]
  generalize (s.settle false outcome).1 = t at hlisten ⊢
  cases t
  cases hlisten
  rfl

/-- A conclusion other than a notification. -/
theorem WaitInv.concludedHttp (hI : WaitInv s h) (hbegun : s.begun = true)
    {outcome : WaitEvent} {confirmed : Bool} (hout : settlements [outcome] = [confirmed])
    (hnone : conclusions [outcome] = []) :
    WaitInv (s.settle false outcome).1
      (h ++ .observed confirmed :: (s.settle false outcome).2.1) := by
  rw [← hI.unsubscribed hbegun outcome]
  exact hI.concluded hbegun false hout hnone

/-! ## The steps -/

/-- Subscribing without a notification: the wait has begun. -/
theorem WaitInv.begins (hI : WaitInv s h) (hbegun : s.begun = false) {subscribing : Subscribing}
    (hlater : config.wsConfirmation = true → ∀ err, subscribing ≠ .delivered err) :
    WaitInv (s.begin config subscribing).1 (h ++ (s.begin config subscribing).2) := by
  obtain rfl := hI.fresh hbegun
  obtain ⟨hno, hno'⟩ := hI.pending rfl
  have hquiet : ∀ t : ConfirmationWait, t.begun = true → t.settled = false →
      t.timers.isSome = true → (t.listening = true → t.wsSubscriptionId = true) →
      WaitInv t (h ++ []) := by
    intro t htb hts htt hsub
    rw [List.append_nil]
    refine ⟨fun hf => ?_, fun _ => htt, hsub, fun _ => ⟨hno, hno'⟩, fun hs => ?_⟩
    · rw [htb] at hf
      cases hf
    · rw [hts] at hs
      cases hs
  unfold begin
  cases hws : config.wsConfirmation with
  | false => exact hquiet _ rfl rfl rfl fun hl => (by cases hl)
  | true =>
    cases subscribing with
    | subscribed => exact hquiet _ rfl rfl rfl fun _ => rfl
    | failed => exact hquiet _ rfl rfl rfl fun hl => (by cases hl)
    | delivered err => exact absurd rfl (hlater hws err)

/-- A notification delivered while subscribing leaves the promise unsettled for good. -/
theorem begin_delivered (hI : WaitInv s h) (hbegun : s.begun = false)
    (hws : config.wsConfirmation = true) (err : Option String) :
    ¬ SettledOnce (s.begin config (.delivered err)).1
      (h ++ (s.begin config (.delivered err)).2) := by
  obtain rfl := hI.fresh hbegun
  obtain ⟨hno, hno'⟩ := hI.pending rfl
  have hes : (begin config {} (.delivered err)).2 = [.observed err.isNone] := by
    unfold begin
    rw [hws]
    cases err with
    | none => rfl
    | some err => rfl
  intro hsettled
  have hfirst := hsettled.first
  rw [hes, settlements_append, conclusions_append, hno, hno'] at hfirst
  cases hfirst

/-- An answer to a poll. -/
theorem WaitInv.polled (hI : WaitInv s h) (hbegun : s.begun = true) (answer : StatusAnswer) :
    WaitInv (s.pollAnswered answer).1 (h ++ (s.pollAnswered answer).2) := by
  have hsame : WaitInv s (h ++ []) := by
    rw [List.append_nil]
    exact hI
  unfold pollAnswered
  split
  · next status =>
    split
    · exact hI.concludedHttp hbegun rfl rfl
    · split
      · exact hI.concludedHttp hbegun rfl rfl
      · exact hsame
  · exact hsame

/-- The answer after the timeout concludes in any case. -/
theorem WaitInv.timedOut (hI : WaitInv s h) (hbegun : s.begun = true) (answer : StatusAnswer) :
    WaitInv (s.lateAnswered config answer).1 (h ++ (s.lateAnswered config answer).2) := by
  unfold lateAnswered
  split
  · exact hI.concludedHttp hbegun rfl rfl
  · exact hI.concludedHttp hbegun rfl rfl

/-- A notification after subscribing. -/
theorem WaitInv.notified (hI : WaitInv s h) (hbegun : s.begun = true) (err : Option String) :
    WaitInv { (s.onSignature err).1 with listening := false }
      (h ++ .observed err.isNone :: (s.onSignature err).2.1) := by
  cases err with
  | none => exact hI.concluded hbegun true rfl rfl
  | some err => exact hI.concluded hbegun false rfl rfl

/-- A timer runs only once the wait has begun. -/
theorem WaitInv.begun_of_runs (hI : WaitInv s h) {timer : WaitTimers → Bool}
    (hruns : s.runs timer = true) : s.begun = true := by
  refine hI.begun fun heq => ?_
  rw [heq] at hruns
  cases hruns

/-- A tick counts, unless the promise is settled. -/
theorem WaitInv.ticked (hI : WaitInv s h) {timer : WaitTimers → Bool}
    (hruns : s.runs timer = true) {t : ConfirmationWait} (hbegun : t.begun = s.begun)
    (hset : t.settled = s.settled) (htimers : t.timers = s.timers)
    (hsub : t.wsSubscriptionId = s.wsSubscriptionId) (hlisten : t.listening = s.listening) :
    WaitInv (if s.settled then s else t) (h ++ []) := by
  have hb := hI.begun_of_runs hruns
  split
  · rw [List.append_nil]
    exact hI
  · refine hI.same (hbegun.trans hb) hset ?_ hsub hlisten fun hr => ⟨?_, ?_⟩
    · rw [htimers]
      exact hI.initialized hb
    · exact htimers.trans hr.timers
    · exact hlisten.trans hr.subscription

/-- The timeout has fired, and is over. -/
theorem WaitInv.fired (hI : WaitInv s h) (hbegun : s.begun = true) :
    WaitInv { s with timers := s.timers.map fun t => { t with timeout := false } } (h ++ []) := by
  refine hI.same hbegun rfl ?_ rfl rfl fun hr => ⟨?_, hr.subscription⟩
  · rw [Option.isSome_map]
    exact hI.initialized hbegun
  · show s.timers.map _ = _
    rw [hr.timers]
    rfl

/-- Fewer answers are awaited. -/
theorem WaitInv.awaits (hI : WaitInv s h) (hbegun : s.begun = true) (polls : ℕ)
    (lateCheck : Bool) : WaitInv { s with polls, lateCheck } h := by
  have hsame : WaitInv { s with polls, lateCheck } (h ++ []) :=
    hI.same hbegun rfl (hI.initialized hbegun) rfl rfl fun hr => ⟨hr.timers, hr.subscription⟩
  rw [List.append_nil] at hsame
  exact hsame

theorem WaitInv.step_later {a : WaitAction} (hI : WaitInv s h)
    (hs : s.step config a = some (s', es)) (hlater : DeliversLater config s h a) :
    WaitInv s' (h ++ es) := by
  cases a with
  | begin subscribing =>
    obtain ⟨hbegun, hs⟩ := Option.ite_none_left_eq_some.mp hs
    obtain ⟨rfl, rfl⟩ := Machine.some_pair hs
    refine hI.begins (Bool.eq_false_iff.mpr hbegun) fun hws err heq => ?_
    rw [heq] at hlater
    change config.wsConfirmation = false at hlater
    rw [hws] at hlater
    cases hlater
  | notified err =>
    obtain ⟨hlisten, hs⟩ := Option.ite_none_right_eq_some.mp hs
    obtain ⟨rfl, rfl⟩ := Machine.some_pair hs
    refine hI.notified (hI.begun fun heq => ?_) err
    rw [heq] at hlisten
    cases hlisten
  | pollTick =>
    obtain ⟨hruns, hs⟩ := Option.ite_none_right_eq_some.mp hs
    obtain ⟨rfl, rfl⟩ := Machine.some_pair hs
    exact hI.ticked hruns rfl rfl rfl rfl rfl
  | pollAnswered answer =>
    obtain ⟨hpolls, hs⟩ := Option.ite_none_right_eq_some.mp hs
    obtain ⟨rfl, rfl⟩ := Machine.some_pair hs
    have hbegun : s.begun = true := by
      refine hI.begun fun heq => ?_
      rw [heq] at hpolls
      exact absurd hpolls (lt_irrefl 0)
    exact (hI.awaits hbegun (s.polls - 1) s.lateCheck).polled hbegun answer
  | rebroadcastTick =>
    obtain ⟨hruns, hs⟩ := Option.ite_none_right_eq_some.mp hs
    obtain ⟨rfl, rfl⟩ := Machine.some_pair hs
    exact hI.ticked hruns rfl rfl rfl rfl rfl
  | timeoutFired =>
    obtain ⟨hruns, hs⟩ := Option.ite_none_right_eq_some.mp hs
    obtain ⟨rfl, rfl⟩ := Machine.some_pair hs
    have hbegun := hI.begun_of_runs hruns
    have hfired := hI.fired hbegun
    split
    · exact hfired
    · rw [List.append_nil] at hfired ⊢
      exact hfired.awaits hbegun s.polls true
  | lateAnswered answer =>
    obtain ⟨hlate, hs⟩ := Option.ite_none_right_eq_some.mp hs
    obtain ⟨rfl, rfl⟩ := Machine.some_pair hs
    have hbegun : s.begun = true := by
      refine hI.begun fun heq => ?_
      rw [heq] at hlate
      cases hlate
    exact (hI.awaits hbegun s.polls false).timedOut hbegun answer

theorem WaitInv.step {a : WaitAction} (hI : WaitInv s h)
    (hs : s.step config a = some (s', es)) :
    (DeliversLater config s h a ∧ WaitInv s' (h ++ es)) ∨
      (¬ DeliversLater config s h a ∧ ¬ SettledOnce s' (h ++ es)) := by
  by_cases hlater : DeliversLater config s h a
  · exact .inl ⟨hlater, hI.step_later hs hlater⟩
  · obtain ⟨err, rfl, hws⟩ : ∃ err, a = .begin (.delivered err) ∧ config.wsConfirmation = true := by
      unfold DeliversLater at hlater
      split at hlater
      · next err => exact ⟨err, rfl, Bool.eq_true_of_not_eq_false hlater⟩
      · exact absurd trivial hlater
    refine .inr ⟨hlater, ?_⟩
    unfold ConfirmationWait.step at hs
    dsimp only at hs
    split at hs
    · cases hs
    · next hbegun =>
      obtain ⟨rfl, rfl⟩ := Machine.some_pair hs
      exact begin_delivered hI (Bool.eq_false_iff.mpr hbegun) hws err

theorem waitInv_init : WaitInv {} [] where
  fresh _ := rfl
  initialized hb := by cases hb
  subscribed hl := by cases hl
  pending _ := ⟨rfl, rfl⟩
  closed hs := by cases hs

/-- **How a wait ends.** In every order of notifications, ticks, answers and the timeout, the
promise is settled by the first conclusion and by no other, with an error exactly when that is
an error or the timeout passed unconfirmed, and then every timer and the subscription are
released, exactly when no notification is delivered while subscribing. -/
theorem settledOnce_iff (config : WaitConfig) (as : List WaitAction) :
    (confirmationWait config).Always (fun s h => SettledOnce s h)
        (confirmationWait config).init [] as ↔
      (confirmationWait config).Along (DeliversLater config) (confirmationWait config).init [] as :=
  Machine.always_iff_along_of_step (I := WaitInv) (fun hI => hI.settledOnce)
    (fun hI hs => hI.step hs) waitInv_init as

/-- A confirmation that is delivered while subscribing, then a poll, the timeout and a
rebroadcast. -/
def deliveredAtOnce : List WaitAction :=
  [.begin (.delivered none), .pollTick, .timeoutFired, .rebroadcastTick]

/-- Neither the timeout nor a poll asks for the status any more: the promise is never settled,
and two timers go on running. -/
theorem never_settled :
    ∃ s h, (confirmationWait {}).run deliveredAtOnce = some (s, h) ∧ h = [.observed true] ∧
      s.polls = 0 ∧ s.lateCheck = false ∧ s.timers = some ⟨true, true, false⟩ ∧
      ¬ SettledOnce s h := by
  refine ⟨{ begun := true, settled := true, timers := some ⟨true, true, false⟩ },
    [.observed true], by decide +kernel, rfl, rfl, rfl, rfl, fun h => ?_⟩
  have hfirst := h.first
  revert hfirst
  decide

end ConfirmationWait

end FlashEdge
