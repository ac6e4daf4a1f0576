import FlashEdge.Security.CircuitBreaker
import FlashEdge.Theory.Journal
import FlashEdge.Theory.Machine

/-!
# The loss counters of the session circuit breaker

"Cumulative realized loss this session", "cumulative realized loss today": the
counters are meant to be totals of the journal of losses (`losses`), and a check
that allows trading is meant to find them below the limits. The session total is
right on every run. The daily one is not: `recordTrade` adds the loss before its
check looks at the day, so the check throws the first loss of a day away, and a
tripped breaker does not look at the day at all.

- `lossesCounted_iff`: the runs on which both counters are right, exactly.
- `sessionLoss_eq`: the session counter, on every run.
-/

namespace FlashEdge

open CircuitBreaker

/-! ## The journal of losses -/

/-- One event more: a reset starts the journal again. -/
def nextLosses (j : List (ℤ × ℚ)) : SessionEvent → List (ℤ × ℚ)
  | .recorded day loss => j ++ [(day, loss)]
  | .checked _ _ => j
  | .wasReset => []

/-- The losses recorded since the last reset, with their days. -/
def losses (h : List SessionEvent) : List (ℤ × ℚ) := h.foldl nextLosses []

theorem losses_snoc (h : List SessionEvent) (e : SessionEvent) :
    losses (h ++ [e]) = nextLosses (losses h) e :=
  List.foldl_append

/-- A check that allows trading comes while the recorded losses, of the session
and of the day, are below the limits. -/
def BelowLimits (config : CircuitBreakerConfig) (h : List SessionEvent) : SessionEvent → Prop
  | .checked day true =>
    (0 < config.maxSessionLossUsd → Journal.total (losses h) < config.maxSessionLossUsd) ∧
      (0 < config.maxDailyLossUsd → Journal.totalOn day (losses h) < config.maxDailyLossUsd)
  | _ => True

/-- The counters are the totals of the journal, and they have kept the limits. -/
structure LossesCounted (config : CircuitBreakerConfig) (s : SessionState)
    (h : List SessionEvent) : Prop where
  daily : s.breaker.dailyLossUsd = Journal.totalOn s.today (losses h)
  session : s.breaker.sessionLossUsd = Journal.total (losses h)
  below : Each (BelowLimits config) h

/-- The condition on a step. A loss that is recorded while trading goes on is not
the first of a day the breaker has not seen (`currentDay`); and when the breaker
is tripped, no trade and no check comes on a new day unless the daily counter is
zero. -/
def NoLossAtDayChange (s : SessionState) (_ : List SessionEvent) : SessionCall → Prop
  | .recordTrade pnl now =>
    (s.breaker.tripped = none → todayStr now ≠ s.breaker.currentDay → lossOf pnl = 0) ∧
      (s.breaker.tripped ≠ none → todayStr now ≠ s.today → s.breaker.dailyLossUsd = 0)
  | .check now =>
    s.breaker.tripped ≠ none → todayStr now ≠ s.today → s.breaker.dailyLossUsd = 0
  | _ => True

/-- What holds along such a run besides: no entry is dated later than today, no
loss is negative, and a breaker that is not tripped has seen today, unless its
daily counter is zero. -/
structure LossInv (config : CircuitBreakerConfig) (s : SessionState)
    (h : List SessionEvent) : Prop extends LossesCounted config s h where
  config_eq : s.breaker.config = config
  dated : ∀ e ∈ losses h, e.1 ≤ s.today
  nonneg : ∀ e ∈ losses h, 0 ≤ e.2
  seen : s.breaker.tripped = none → s.breaker.currentDay = s.today ∨ s.breaker.dailyLossUsd = 0
  seenAtMost : s.breaker.currentDay ≤ s.today

theorem lossOf_nonneg (pnl : JsNumber) : 0 ≤ lossOf pnl := by
  unfold lossOf
  split
  · split
    · next hneg => exact neg_nonneg.mpr hneg.le
    · exact le_refl 0
  · exact le_refl 0

theorem lossInv_init (config : CircuitBreakerConfig) (today : ℤ) :
    LossInv config (sessionBreaker config today).init [] where
  daily := rfl
  session := rfl
  below := Each.nil
  config_eq := rfl
  dated e he := by cases he
  nonneg e he := by cases he
  seen _ := .inl rfl
  seenAtMost := le_refl today

/-- On a day after today nothing has been booked. -/
theorem LossInv.totalOn_later {config : CircuitBreakerConfig} {s : SessionState}
    {h : List SessionEvent} (hI : LossInv config s h) {day : ℤ} (hlt : s.today < day) :
    Journal.totalOn day (losses h) = 0 :=
  Journal.totalOn_of_forall_ne fun e he heq =>
    absurd (hI.dated e he) (not_le.mpr (heq ▸ hlt))

/-! ## A call that looks at the day

`b` is the breaker the check of a call is made on: the loss `x` of the call is
booked in its counters, and nothing else has changed. -/

/-- A breaker that is not tripped is rolled over by a check, and may trip. -/
theorem check_rollover {b : CircuitBreaker} (htrip : b.tripped = none) (now : ℚ) :
    ∃ tripped, (b.check now).1 = { b.rollover (todayStr now) with tripped } := by
  rcases b.check_cases now with ⟨reason, ht, -⟩ | ⟨reason, -, hr⟩ | ⟨-, -, hr⟩
  · rw [htrip] at ht
    cases ht
  · exact ⟨some reason, by rw [hr]; rfl⟩
  · exact ⟨(b.rollover (todayStr now)).tripped, by rw [hr]⟩

/-- A tripped breaker is left as it is. -/
theorem check_tripped {b : CircuitBreaker} (htrip : b.tripped ≠ none) (now : ℚ) :
    (b.check now).1 = b := by
  rcases b.check_cases now with ⟨reason, -, hr⟩ | ⟨reason, ht, -⟩ | ⟨ht, -, -⟩
  · rw [hr]
  · exact absurd ht htrip
  · exact absurd ht htrip

section Call

variable {config : CircuitBreakerConfig} {s : SessionState} {h : List SessionEvent}
  {b : CircuitBreaker} {x now : ℚ}

/-- What the daily counter has after a call that meets the condition. -/
theorem LossInv.check_daily (hI : LossInv config s h) (hday : s.today ≤ todayStr now)
    (hdaily : b.dailyLossUsd = s.breaker.dailyLossUsd + x)
    (htrip : b.tripped = s.breaker.tripped) (hcurrent : b.currentDay = s.breaker.currentDay)
    (hnew : s.breaker.tripped = none → todayStr now ≠ s.breaker.currentDay → x = 0)
    (hstale : s.breaker.tripped ≠ none → todayStr now ≠ s.today → s.breaker.dailyLossUsd = 0) :
    (b.check now).1.dailyLossUsd = Journal.totalOn (todayStr now) (losses h) + x := by
  by_cases hopen : s.breaker.tripped = none
  · obtain ⟨tripped, hr⟩ := check_rollover (htrip.trans hopen) now
    rw [hr]
    rcases b.rollover_cases (todayStr now) with ⟨hsame, hroll⟩ | ⟨hdiff, hroll⟩
    · -- the breaker has seen the day of the call, so it is today
      have htoday : s.today = todayStr now :=
        le_antisymm hday (hsame ▸ hcurrent ▸ hI.seenAtMost)
      rw [hroll, ← htoday, ← hI.daily]
      exact hdaily
    · -- the counter starts again, without the loss of the call, which is none
      rw [hcurrent] at hdiff
      rw [hroll, hnew hopen hdiff, add_zero]
      show (0 : ℚ) = _
      rcases hday.eq_or_lt with htoday | hlater
      · rcases hI.seen hopen with hseen | hzero
        · exact absurd (htoday.symm.trans hseen.symm) hdiff
        · rw [← htoday, ← hI.daily, hzero]
      · exact (hI.totalOn_later hlater).symm
  · rw [check_tripped (htrip ▸ hopen) now, hdaily]
    rcases hday.eq_or_lt with htoday | hlater
    · rw [← htoday, hI.daily]
    · rw [hstale hopen hlater.ne', hI.totalOn_later hlater]

/-- What else holds of the breaker after such a call. -/
theorem LossInv.check_rest (hI : LossInv config s h) (hday : s.today ≤ todayStr now)
    (hcurrent : b.currentDay = s.breaker.currentDay) (hconfig : b.config = s.breaker.config) :
    (b.check now).1.sessionLossUsd = b.sessionLossUsd ∧ (b.check now).1.config = config ∧
      (b.check now).1.currentDay ≤ todayStr now ∧
      ((b.check now).1.tripped = none → (b.check now).1.currentDay = todayStr now) := by
  have hconfig' : b.config = config := hconfig.trans hI.config_eq
  have hseen : b.currentDay ≤ todayStr now := hcurrent ▸ hI.seenAtMost.trans hday
  by_cases hopen : b.tripped = none
  · obtain ⟨tripped, hr⟩ := check_rollover hopen now
    rw [hr]
    rcases b.rollover_cases (todayStr now) with ⟨hsame, hroll⟩ | ⟨-, hroll⟩
    · rw [hroll]
      exact ⟨rfl, hconfig', hseen, fun _ => hsame.symm⟩
    · rw [hroll]
      exact ⟨rfl, hconfig', le_refl _, fun _ => rfl⟩
  · rw [check_tripped hopen now]
    exact ⟨rfl, hconfig', hseen, fun ht => absurd ht hopen⟩

end Call

/-! ## The steps -/

/-- Trading is allowed only below the limits of the rolled-over breaker. -/
theorem below_of_allowed {b : CircuitBreaker} {now : ℚ} (h : (b.check now).2 = .allowed) :
    (0 < b.config.maxSessionLossUsd → b.sessionLossUsd < b.config.maxSessionLossUsd) ∧
      (0 < b.config.maxDailyLossUsd →
        (b.check now).1.dailyLossUsd < b.config.maxDailyLossUsd) := by
  rcases b.check_cases now with ⟨reason, -, hr⟩ | ⟨reason, -, hr⟩ | ⟨-, hlimit, hr⟩
  · rw [hr] at h
    cases h
  · rw [hr] at h
    cases h
  · rw [hr]
    have hbelow := below_of_limitReached hlimit
    rcases b.rollover_cases (todayStr now) with ⟨-, hroll⟩ | ⟨-, hroll⟩
    · rw [hroll] at hbelow ⊢
      exact hbelow
    · rw [hroll] at hbelow ⊢
      exact hbelow

theorem lossInv_recordTrade {config : CircuitBreakerConfig} {s : SessionState}
    {h : List SessionEvent} {pnl : JsNumber} {now : ℚ} (hI : LossInv config s h)
    (hday : s.today ≤ todayStr now) (hC : NoLossAtDayChange s h (.recordTrade pnl now)) :
    LossInv config ⟨s.breaker.recordTrade pnl now, todayStr now⟩
      (h ++ [SessionEvent.recorded (todayStr now) (lossOf pnl)]) := by
  have hdaily := hI.check_daily (b := s.breaker.addLoss (lossOf pnl)) hday rfl rfl rfl hC.1 hC.2
  obtain ⟨hsession, hconfig, hcurrent, hseen⟩ :=
    hI.check_rest (b := s.breaker.addLoss (lossOf pnl)) hday rfl rfl
  have hj : losses (h ++ [SessionEvent.recorded (todayStr now) (lossOf pnl)]) =
      losses h ++ [(todayStr now, lossOf pnl)] := losses_snoc h _
  refine ⟨⟨?_, ?_, hI.below.snoc trivial⟩, hconfig, ?_, ?_, fun ht => .inl (hseen ht), hcurrent⟩
  · rw [hj, Journal.totalOn_snoc, if_pos rfl]
    exact hdaily
  · rw [hj, Journal.total_snoc, ← hI.session]
    exact hsession
  · rw [hj]
    intro e he
    rcases List.mem_append.mp he with he | he
    · exact (hI.dated e he).trans hday
    · rw [List.mem_singleton.mp he]
  · rw [hj]
    intro e he
    rcases List.mem_append.mp he with he | he
    · exact hI.nonneg e he
    · rw [List.mem_singleton.mp he]
      exact lossOf_nonneg pnl

theorem lossInv_check {config : CircuitBreakerConfig} {s : SessionState}
    {h : List SessionEvent} {now : ℚ} (hI : LossInv config s h)
    (hday : s.today ≤ todayStr now) (hC : NoLossAtDayChange s h (.check now)) :
    LossInv config ⟨(s.breaker.check now).1, todayStr now⟩
      (h ++ [SessionEvent.checked (todayStr now) ((s.breaker.check now).2 = .allowed)]) := by
  have hdaily := hI.check_daily (b := s.breaker) (x := 0) hday (add_zero _).symm rfl rfl
    (fun _ _ => rfl) hC
  rw [add_zero] at hdaily
  obtain ⟨hsession, hconfig, hcurrent, hseen⟩ :=
    hI.check_rest (b := s.breaker) hday rfl rfl
  have hj : losses
      (h ++ [SessionEvent.checked (todayStr now) ((s.breaker.check now).2 = .allowed)]) =
      losses h := losses_snoc h _
  have hbelow : BelowLimits config h
      (.checked (todayStr now) ((s.breaker.check now).2 = .allowed)) := by
    by_cases hallowed : (s.breaker.check now).2 = .allowed
    · obtain ⟨hs, hd⟩ := below_of_allowed hallowed
      rw [hI.config_eq] at hs hd
      rw [decide_eq_true hallowed]
      exact ⟨hI.session ▸ hs, hdaily ▸ hd⟩
    · rw [decide_eq_false hallowed]
      exact trivial
  refine ⟨⟨?_, ?_, hI.below.snoc hbelow⟩, hconfig, ?_, ?_, fun ht => .inl (hseen ht), hcurrent⟩
  · rw [hj]
    exact hdaily
  · rw [hj, ← hI.session]
    exact hsession
  · rw [hj]
    exact fun e he => (hI.dated e he).trans hday
  · rw [hj]
    exact hI.nonneg

/-- Recording an open changes neither a counter nor the day. -/
theorem lossInv_recordOpen {config : CircuitBreakerConfig} {s : SessionState}
    {h : List SessionEvent} (hI : LossInv config s h) :
    LossInv config { s with breaker := s.breaker.recordOpen } h := by
  unfold recordOpen
  dsimp only
  split
  · exact ⟨⟨hI.daily, hI.session, hI.below⟩, hI.config_eq, hI.dated, hI.nonneg,
      fun ht => (by cases ht), hI.seenAtMost⟩
  · exact ⟨⟨hI.daily, hI.session, hI.below⟩, hI.config_eq, hI.dated, hI.nonneg,
      hI.seen, hI.seenAtMost⟩

/-- A reset starts the journal and both counters again. -/
theorem lossInv_reset {config : CircuitBreakerConfig} {s : SessionState}
    {h : List SessionEvent} (hI : LossInv config s h) :
    LossInv config { s with breaker := s.breaker.reset } (h ++ [SessionEvent.wasReset]) := by
  have hj : losses (h ++ [SessionEvent.wasReset]) = [] := losses_snoc h _
  refine ⟨⟨?_, ?_, hI.below.snoc trivial⟩, hI.config_eq, ?_, ?_, fun _ => .inr rfl,
    hI.seenAtMost⟩
  · rw [hj]
    rfl
  · rw [hj]
    rfl
  · rw [hj]
    exact fun e he => by cases he
  · rw [hj]
    exact fun e he => by cases he

theorem lossInv_step {config : CircuitBreakerConfig} {s s' : SessionState}
    {h es : List SessionEvent} {a : SessionCall} (hI : LossInv config s h)
    (hC : NoLossAtDayChange s h a) (hs : s.step a = some (s', es)) :
    LossInv config s' (h ++ es) := by
  cases a with
  | recordTrade pnl now =>
    simp only [SessionState.step] at hs
    split at hs
    · cases hs
    · next hday =>
      obtain ⟨rfl, rfl⟩ := Machine.some_pair hs
      exact lossInv_recordTrade hI (not_lt.mp hday) hC
  | recordOpen =>
    obtain ⟨rfl, rfl⟩ := Machine.some_pair hs
    rw [List.append_nil]
    exact lossInv_recordOpen hI
  | check now =>
    simp only [SessionState.step] at hs
    split at hs
    · cases hs
    · next hday =>
      obtain ⟨rfl, rfl⟩ := Machine.some_pair hs
      exact lossInv_check hI (not_lt.mp hday) hC
  | reset =>
    obtain ⟨rfl, rfl⟩ := Machine.some_pair hs
    exact lossInv_reset hI

/-- A tripped breaker that is called on a new day keeps yesterday's counter. -/
theorem LossInv.stale_daily {config : CircuitBreakerConfig} {s : SessionState}
    {h : List SessionEvent} (hI : LossInv config s h) {b : CircuitBreaker} {x now : ℚ}
    (hday : s.today ≤ todayStr now) (hnew : todayStr now ≠ s.today) (htrip : b.tripped ≠ none)
    (hdaily : b.dailyLossUsd = s.breaker.dailyLossUsd + x) (hne : s.breaker.dailyLossUsd ≠ 0) :
    (b.check now).1.dailyLossUsd ≠ Journal.totalOn (todayStr now) (losses h) + x := by
  rw [check_tripped htrip now, hdaily, hI.totalOn_later (lt_of_le_of_ne hday hnew.symm)]
  intro heq
  exact hne (add_right_cancel heq)

/-- A step that does not meet the condition leaves the daily counter wrong. -/
theorem not_lossesCounted_step {config : CircuitBreakerConfig} {s s' : SessionState}
    {h es : List SessionEvent} {a : SessionCall} (hI : LossInv config s h)
    (hC : ¬ NoLossAtDayChange s h a) (hs : s.step a = some (s', es)) :
    ¬ LossesCounted config s' (h ++ es) := by
  intro hcounted
  have hdaily := hcounted.daily
  cases a with
  | recordOpen => exact hC trivial
  | reset => exact hC trivial
  | check now =>
    simp only [SessionState.step] at hs
    split at hs
    · cases hs
    · next hday =>
      obtain ⟨rfl, rfl⟩ := Machine.some_pair hs
      unfold NoLossAtDayChange at hC
      push Not at hC
      obtain ⟨htrip, hnew, hne⟩ := hC
      rw [losses_snoc] at hdaily
      refine hI.stale_daily (not_lt.mp hday) hnew htrip (add_zero _).symm hne ?_
      rw [add_zero]
      exact hdaily
  | recordTrade pnl now =>
    simp only [SessionState.step] at hs
    split at hs
    · cases hs
    · next hday =>
      obtain ⟨rfl, rfl⟩ := Machine.some_pair hs
      rw [losses_snoc] at hdaily
      simp only [nextLosses, Journal.totalOn_snoc, if_true] at hdaily
      rw [NoLossAtDayChange, not_and_or] at hC
      push Not at hC
      rcases hC with ⟨hopen, hnew, hloss⟩ | ⟨htrip, hnew, hne⟩
      · -- the check starts the counter again, and the loss is gone
        obtain ⟨tripped, hr⟩ :=
          check_rollover (b := s.breaker.addLoss (lossOf pnl)) hopen now
        rcases (s.breaker.addLoss (lossOf pnl)).rollover_cases (todayStr now) with
          ⟨hsame, -⟩ | ⟨-, hroll⟩
        · exact hnew hsame
        · unfold recordTrade at hdaily
          rw [hr, hroll] at hdaily
          have hpos : 0 < lossOf pnl := lt_of_le_of_ne (lossOf_nonneg pnl) hloss.symm
          have hold := Journal.totalOn_nonneg hI.nonneg (todayStr now)
          exact absurd hdaily (add_pos_of_nonneg_of_pos hold hpos).ne
      · exact hI.stale_daily (b := s.breaker.addLoss (lossOf pnl)) (not_lt.mp hday) hnew htrip rfl
          hne hdaily

/-! ## The runs -/

/-- **When the loss counters are right.** Along any run of calls, over any clock
that crosses midnights, the counters are the totals of the recorded losses and
no check allows trading at or above a limit in every state, if and only if every
step meets `NoLossAtDayChange`. -/
theorem lossesCounted_iff (config : CircuitBreakerConfig) (today : ℤ) (calls : List SessionCall) :
    (sessionBreaker config today).Always (LossesCounted config)
        (sessionBreaker config today).init [] calls ↔
      (sessionBreaker config today).Along NoLossAtDayChange
        (sessionBreaker config today).init [] calls :=
  Machine.always_iff_along (M := sessionBreaker config today) (I := LossInv config)
    (fun hI => hI.toLossesCounted) (fun hI hC hs => lossInv_step hI hC hs)
    (fun hI hC hs => not_lossesCounted_step hI hC hs) (lossInv_init config today) calls

/-! ## The session counter -/

@[simp] theorem check_sessionLossUsd (b : CircuitBreaker) (now : ℚ) :
    (b.check now).1.sessionLossUsd = b.sessionLossUsd := by
  by_cases hopen : b.tripped = none
  · obtain ⟨tripped, hr⟩ := check_rollover hopen now
    rw [hr]
    rcases b.rollover_cases (todayStr now) with ⟨-, hroll⟩ | ⟨-, hroll⟩
    · rw [hroll]
    · rw [hroll]
  · rw [check_tripped hopen now]

/-- **The session counter is right on every run**: midnights do not touch it. -/
theorem sessionLoss_eq {config : CircuitBreakerConfig} {today : ℤ} {s : SessionState}
    {h : List SessionEvent} (hr : (sessionBreaker config today).Reachable s h) :
    s.breaker.sessionLossUsd = Journal.total (losses h) := by
  refine Machine.Reachable.invariant
    (I := fun s h => s.breaker.sessionLossUsd = Journal.total (losses h)) rfl ?_ hr
  intro s s' h es a hI hs
  cases a with
  | recordTrade pnl now =>
    simp only [sessionBreaker, SessionState.step] at hs
    split at hs
    · cases hs
    · obtain ⟨rfl, rfl⟩ := Machine.some_pair hs
      rw [losses_snoc, nextLosses, Journal.total_snoc, ← hI]
      exact check_sessionLossUsd (s.breaker.addLoss (lossOf pnl)) now
  | recordOpen =>
    obtain ⟨rfl, rfl⟩ := Machine.some_pair hs
    rw [List.append_nil, ← hI]
    show s.breaker.recordOpen.sessionLossUsd = _
    unfold recordOpen
    dsimp only
    split <;> rfl
  | check now =>
    simp only [sessionBreaker, SessionState.step] at hs
    split at hs
    · cases hs
    · obtain ⟨rfl, rfl⟩ := Machine.some_pair hs
      rw [losses_snoc, nextLosses, ← hI]
      exact check_sessionLossUsd s.breaker now
  | reset =>
    obtain ⟨rfl, rfl⟩ := Machine.some_pair hs
    rw [losses_snoc]
    rfl

/-! ## A run with a wrong counter -/

/-- A daily limit of 100, and a loss of 150 as the first call of the next day. -/
def firstLossOfDay : List SessionCall :=
  [.check 0, .recordTrade (.finite (-150)) 86400000, .check 86400001]

/-- The session has lost the 150. -/
theorem sessionLoss_eq_firstLossOfDay : ∃ s h,
    (sessionBreaker { maxDailyLossUsd := 100 } 0).run firstLossOfDay = some (s, h) ∧
      s.breaker.sessionLossUsd = Journal.total (losses h) := by
  have hrun : ((sessionBreaker { maxDailyLossUsd := 100 } 0).run firstLossOfDay).isSome := by
    decide +kernel
  obtain ⟨⟨s, h⟩, hs⟩ := Option.isSome_iff_exists.mp hrun
  exact ⟨s, h, hs, sessionLoss_eq (Machine.reachable_of_run hs)⟩

/-- The loss is thrown away, and trading goes on. -/
theorem not_lossesCounted :
    ¬ ∀ (config : CircuitBreakerConfig) (today : ℤ) (s : SessionState) (h : List SessionEvent),
      (sessionBreaker config today).Reachable s h → LossesCounted config s h := by
  intro hall
  have hrun : ((sessionBreaker { maxDailyLossUsd := 100 } 0).run firstLossOfDay).map
      (fun r => (r.2, r.1.breaker.dailyLossUsd)) =
        some ([.checked 0 true, .recorded 1 150, .checked 1 true], 0) := by
    decide +kernel
  obtain ⟨⟨s, h⟩, hs, hh⟩ := Option.map_eq_some_iff.mp hrun
  obtain ⟨rfl, -⟩ := Prod.mk.inj hh
  have hbelow := (hall _ 0 s _ (Machine.reachable_of_run hs)).below
  -- the check of the second day comes after a loss above the limit on that day
  have hlast := hbelow [.checked 0 true, .recorded 1 150] (.checked 1 true) [] rfl
  exact absurd (hlast.2 (by decide +kernel)) (by decide +kernel)

end FlashEdge
