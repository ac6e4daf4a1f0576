import FlashEdge.Core.UltraTxEngine
import FlashEdge.Theory.Machine

/-!
# One submission at a time

`submitInProgressPromise` is there so that one submission is in flight at a time,
and its `finally` is there so that the submission that set it clears it
(`OneAtATime`). The `submit` of a prebuilt transaction only does half of this: it
respects the guard, and clears it, and never sets it. While it is in flight the
guard is free, so any call starts a second submission, and the first of the two to
end takes the guard from the other (`not_oneAtATime`).

`oneAtATime_iff` is the exact condition: nobody calls `submitTransaction` or the
`submit` of a prebuilt transaction while a prebuilt transaction is in flight.
-/

namespace FlashEdge

/-- The work of a prebuilt transaction sent as it is. -/
def Job.isPrebuilt : Job → Bool
  | .submission _ => false
  | .prebuilt _ _ => true

/-- An answer goes to work of the same kind. -/
theorem Job.isPrebuilt_step {config : TxEngineConfig} {wallet : String} {job job' : Job}
    {r : Reply} {es : List SubmissionEvent} (hs : job.step config wallet r = some (job', es)) :
    job'.isPrebuilt = job.isPrebuilt := by
  cases job with
  | submission s =>
    obtain ⟨⟨t, out⟩, -, heq⟩ := Option.map_eq_some_iff.mp hs
    cases heq
    rfl
  | prebuilt p phase =>
    unfold Job.step at hs
    dsimp only at hs
    split at hs
    all_goals cases hs
    all_goals rfl

namespace InFlightGuard

/-- The guard is taken from its holder, by the promise whose `finally` runs. -/
structure Cleared where
  holder : ℕ
  clearedBy : ℕ
deriving DecidableEq, Repr

/-- What a step does to the guard of others. -/
def clearing (s : UltraTxEngine) : UltraTxEngine.Action → List Cleared
  | .settle promise =>
    match s.submitInProgressPromise with
    | some holder => [⟨holder, promise⟩]
    | none => []
  | _ => []

/-- The engine, of which only the clearing of its guard is seen. -/
def engine (config : TxEngineConfig) (wallet : String) :
    Machine UltraTxEngine UltraTxEngine.Action Cleared where
  init := { wallet, config }
  step s a := (s.step a).map fun p => (p.1, clearing s a)

/-- The promise has not settled. -/
def InFlight (s : UltraTxEngine) (i : ℕ) : Prop :=
  ∃ p, s.promises[i]? = some p ∧ p.settled = false

/-- At most one submission is in flight, and the guard was only ever cleared by the
submission that set it. -/
structure OneAtATime (s : UltraTxEngine) (h : List Cleared) : Prop where
  one : ∀ i j, InFlight s i → InFlight s j → i = j
  cleared : ∀ c ∈ h, c.clearedBy = c.holder

/-- A prebuilt transaction that was sent as it is, and has not settled. -/
def PrebuiltInFlight (s : UltraTxEngine) : Prop :=
  ∃ p ∈ s.promises, p.settled = false ∧ p.job.isPrebuilt = true

/-- Nobody submits anything while a prebuilt transaction is in flight. -/
def WaitsForPrebuilt (s : UltraTxEngine) (_ : List Cleared) : UltraTxEngine.Action → Prop
  | .submitTransaction _ _ => ¬ PrebuiltInFlight s
  | .submitPrebuilt _ _ => ¬ PrebuiltInFlight s
  | _ => True

/-! ## Two submissions in flight -/

/-- A prebuilt transaction is sent, a submission is started meanwhile, and the
first one ends. -/
def sentMeanwhile : List UltraTxEngine.Action :=
  [.prebuildTransaction [] none { blockhash := "A", lastValidBlockHeight := 150 } 100000 0,
    .submitPrebuilt 0 1000, .submitTransaction [] none, .reply 0 (.throws "fetch failed"),
    .settle 0]

/-- The guard of the submission in flight is cleared by another. -/
theorem not_oneAtATime :
    ¬ ∀ s h, (engine {} "wallet").Reachable s h → OneAtATime s h := by
  intro hall
  have hrun : ((engine {} "wallet").run sentMeanwhile).map (fun r => r.2) = some [⟨1, 0⟩] := by
    decide +kernel
  obtain ⟨⟨s, h⟩, hs, rfl⟩ := Option.map_eq_some_iff.mp hrun
  have hcleared := (hall s _ (Machine.reachable_of_run hs)).cleared _ (List.mem_singleton_self _)
  exact absurd hcleared (by decide)

/-! ## The exact condition -/

section Steps

variable {s s' : UltraTxEngine} {h es : List Cleared}

/-- What a run keeps under the condition: what is in flight holds the guard, unless
it is a prebuilt transaction. -/
structure Guarded (s : UltraTxEngine) (h : List Cleared) : Prop where
  oneAtATime : OneAtATime s h
  holder : ∀ i, s.submitInProgressPromise = some i → InFlight s i
  held : ∀ i p, s.promises[i]? = some p → p.settled = false →
    (s.submitInProgressPromise = some i ∧ p.job.isPrebuilt = false) ∨
      (s.submitInProgressPromise = none ∧ p.job.isPrebuilt = true)

theorem guarded_init (config : TxEngineConfig) (wallet : String) :
    Guarded (engine config wallet).init [] where
  oneAtATime := ⟨fun _ _ ⟨_, hp, _⟩ => (by cases hp), fun _ hc => (by cases hc)⟩
  holder _ hi := by cases hi
  held _ _ hp := by cases hp

/-- With a free guard and no prebuilt transaction in flight, nothing is in flight. -/
theorem Guarded.idle (hg : Guarded s h) (hfree : s.submitInProgressPromise = none)
    (hpre : ¬ PrebuiltInFlight s) (i : ℕ) : ¬ InFlight s i := by
  rintro ⟨p, hp, hsettled⟩
  rcases hg.held i p hp hsettled with ⟨hheld, -⟩ | ⟨-, hprebuilt⟩
  · rw [hfree] at hheld
    cases hheld
  · exact hpre ⟨p, List.mem_of_getElem? hp, hsettled, hprebuilt⟩

/-- A call joins: nothing changes but the calls. -/
theorem Guarded.handOut (hg : Guarded s h) (instructions : List TransactionInstruction)
    (promise : ℕ) : Guarded (s.handOut instructions promise) h :=
  ⟨⟨hg.oneAtATime.one, hg.oneAtATime.cleared⟩, hg.holder, hg.held⟩

/-- The first promise in flight: it takes the guard, or is a prebuilt transaction. -/
theorem Guarded.start (hg : Guarded s h) (hidle : ∀ i, ¬ InFlight s i) (job : Job)
    {guard : Option ℕ}
    (hguard : (guard = some s.promises.length ∧ job.isPrebuilt = false) ∨
      (guard = none ∧ job.isPrebuilt = true))
    (calls : List SubmitCall) :
    Guarded
      { s with
        promises := s.promises ++ [{ job := job }]
        submitInProgressPromise := guard
        calls } h := by
  have hnew : (s.promises ++ [({ job := job } : EnginePromise)])[s.promises.length]? =
      some { job := job } := by simp
  -- only the new promise is in flight
  have honly : ∀ i p, (s.promises ++ [({ job := job } : EnginePromise)])[i]? = some p →
      p.settled = false → i = s.promises.length ∧ p = { job := job } := by
    intro i p hp hsettled
    rcases Nat.lt_trichotomy i s.promises.length with hlt | heq | hgt
    · rw [List.getElem?_append_left hlt] at hp
      exact absurd ⟨p, hp, hsettled⟩ (hidle i)
    · subst heq
      exact ⟨rfl, (Option.some.inj (hnew.symm.trans hp)).symm⟩
    · rw [List.getElem?_eq_none (by simp; omega)] at hp
      cases hp
  refine ⟨⟨fun i j hi hj => ?_, hg.oneAtATime.cleared⟩, fun i hi => ?_,
    fun i p hp hsettled => ?_⟩
  · obtain ⟨p, hp, hps⟩ := hi
    obtain ⟨q, hq, hqs⟩ := hj
    exact (honly i p hp hps).1.trans (honly j q hq hqs).1.symm
  · rcases hguard with ⟨rfl, -⟩ | ⟨rfl, -⟩
    · cases hi
      exact ⟨_, hnew, rfl⟩
    · cases hi
  · obtain ⟨rfl, rfl⟩ := honly i p hp hsettled
    exact hguard

theorem Guarded.submitTransaction (hg : Guarded s h) (hpre : ¬ PrebuiltInFlight s)
    (instructions : List TransactionInstruction) (computeUnitLimitOverride : Option ℕ) :
    Guarded (s.submitTransaction instructions computeUnitLimitOverride) h := by
  unfold UltraTxEngine.submitTransaction
  split
  · exact hg.handOut instructions _
  · next hfree => exact hg.start (hg.idle hfree hpre) _ (.inl ⟨rfl, rfl⟩) _

theorem Guarded.submitPrebuilt (hg : Guarded s h) (hpre : ¬ PrebuiltInFlight s)
    (p : PrebuiltTransaction) (now : ℚ) : Guarded (s.submitPrebuilt p now).1 h := by
  unfold UltraTxEngine.submitPrebuilt
  split
  · exact hg.submitTransaction hpre p.instructions none
  · split
    · exact hg.handOut p.instructions _
    · next hfree =>
      exact hg.start (hg.idle hfree hpre) (.prebuilt p .broadcast) (.inr ⟨hfree, rfl⟩) _

/-- The work of a promise goes on. -/
theorem Guarded.reply (hg : Guarded s h) {promise : ℕ} {r : Reply}
    {out : List UltraTxEngine.Event} (hs : s.reply promise r = some (s', out)) :
    Guarded s' h := by
  unfold UltraTxEngine.reply at hs
  split at hs
  · cases hs
  next p hp =>
  obtain ⟨⟨job, es⟩, hstep, heq⟩ := Option.map_eq_some_iff.mp hs
  cases heq
  have hlt : promise < s.promises.length := (List.getElem?_eq_some_iff.mp hp).1
  have hkind := Job.isPrebuilt_step hstep
  -- what is at an index has settled if it had before, and is of the same kind
  have hsame : ∀ (i : ℕ) (q : EnginePromise),
      (s.promises.set promise { p with job })[i]? = some q →
      ∃ q' : EnginePromise, s.promises[i]? = some q' ∧ q'.settled = q.settled ∧
        q'.job.isPrebuilt = q.job.isPrebuilt := by
    intro i q hq
    rw [List.getElem?_set] at hq
    split at hq
    · next hi =>
      subst hi
      cases hq
      exact ⟨p, hp, rfl, hkind.symm⟩
    · exact ⟨q, hq, rfl, rfl⟩
  have hflight : ∀ i, InFlight { s with promises := s.promises.set promise { p with job } } i →
      InFlight s i := by
    rintro i ⟨q, hq, hsettled⟩
    obtain ⟨q', hq', hsettled', -⟩ := hsame i q hq
    exact ⟨q', hq', hsettled'.trans hsettled⟩
  refine ⟨⟨fun i j hi hj => hg.oneAtATime.one i j (hflight i hi) (hflight j hj),
    hg.oneAtATime.cleared⟩, fun i hi => ?_, fun i q hq hsettled => ?_⟩
  · obtain ⟨q, hq, hsettled⟩ := hg.holder i hi
    by_cases heq : promise = i
    · subst heq
      obtain rfl : p = q := Option.some.inj (hp.symm.trans hq)
      exact ⟨_, List.getElem?_set_self hlt, hsettled⟩
    · exact ⟨q, (List.getElem?_set_ne heq).trans hq, hsettled⟩
  · obtain ⟨q', hq', hsettled', hkind'⟩ := hsame i q hq
    rw [← hkind']
    exact hg.held i q' hq' (hsettled'.trans hsettled)

/-- What is in flight ends, and clears the guard: its own. -/
theorem Guarded.settle (hg : Guarded s h) {promise : ℕ} {out : List UltraTxEngine.Event}
    (hs : s.settle promise = some (s', out)) : Guarded s' (h ++ clearing s (.settle promise)) := by
  unfold UltraTxEngine.settle at hs
  split at hs
  · cases hs
  next p hp =>
  split at hs
  · cases hs
  next hopen =>
  cases hs
  rw [not_or, Bool.not_eq_true] at hopen
  have hlt : promise < s.promises.length := (List.getElem?_eq_some_iff.mp hp).1
  have hnone : ∀ (i : ℕ) (q : EnginePromise),
      (s.promises.set promise { p with settled := true })[i]? = some q →
      q.settled = true := by
    intro i q hq
    rw [List.getElem?_set] at hq
    split at hq
    · cases hq
      rfl
    · next hne =>
      by_contra hsettled
      rw [Bool.not_eq_true] at hsettled
      exact hne (hg.oneAtATime.one promise i ⟨p, hp, hopen.1⟩ ⟨q, hq, hsettled⟩)
  refine ⟨⟨fun i j ⟨q, hq, hqs⟩ _ => ?_, fun c hc => ?_⟩, fun i hi => (by cases hi),
    fun i q hq hqs => ?_⟩
  · rw [hnone i q hq] at hqs
    cases hqs
  · rcases List.mem_append.mp hc with hc | hc
    · exact hg.oneAtATime.cleared c hc
    · unfold clearing at hc
      rcases hg.held promise p hp hopen.1 with ⟨hheld, -⟩ | ⟨hfree, -⟩
      · rw [hheld] at hc
        obtain rfl := List.mem_singleton.mp hc
        rfl
      · rw [hfree] at hc
        cases hc
  · rw [hnone i q hq] at hqs
    cases hqs

/-- A step that meets the condition keeps the invariant. -/
theorem guarded_step {config : TxEngineConfig} {wallet : String} {a : UltraTxEngine.Action}
    (hg : Guarded s h) (hC : WaitsForPrebuilt s h a)
    (hs : (engine config wallet).step s a = some (s', es)) : Guarded s' (h ++ es) := by
  obtain ⟨⟨t, out⟩, hstep, heq⟩ := Option.map_eq_some_iff.mp hs
  cases heq
  cases a with
  | submitTransaction instructions computeUnitLimitOverride =>
    cases hstep
    simpa [clearing] using hg.submitTransaction hC instructions computeUnitLimitOverride
  | prebuildTransaction instructions computeUnitLimitOverride bh priorityFee now =>
    cases hstep
    simpa [clearing] using
      (⟨⟨hg.oneAtATime.one, hg.oneAtATime.cleared⟩, hg.holder, hg.held⟩ : Guarded
        (s.prebuildTransaction instructions computeUnitLimitOverride bh priorityFee now) h)
  | submitPrebuilt index now =>
    obtain ⟨p, -, heq⟩ := Option.map_eq_some_iff.mp hstep
    have hsubmitted := hg.submitPrebuilt hC p now
    rw [heq] at hsubmitted
    simpa [clearing] using hsubmitted
  | reply promise r => simpa [clearing] using hg.reply hstep
  | settle promise => exact hg.settle hstep
  | answer call =>
    obtain ⟨c, p, outcome, -, -, -, rfl, -⟩ := UltraTxEngine.answer_cases hstep
    simpa [clearing] using
      (⟨⟨hg.oneAtATime.one, hg.oneAtATime.cleared⟩, hg.holder, hg.held⟩ : Guarded
        { s with calls := s.calls.set call { c with answered := true } } h)
  | updateWallet wallet =>
    cases hstep
    simpa [clearing] using
      (⟨⟨hg.oneAtATime.one, hg.oneAtATime.cleared⟩, hg.holder, hg.held⟩ : Guarded
        { s with wallet } h)

/-- A promise started while another is in flight is a second one. -/
theorem not_oneAtATime_start {i : ℕ} (hi : InFlight s i) (job : Job) (guard : Option ℕ)
    (calls : List SubmitCall) :
    ¬ OneAtATime
      { s with
        promises := s.promises ++ [{ job := job }]
        submitInProgressPromise := guard
        calls } h := by
  intro hone
  obtain ⟨p, hp, hsettled⟩ := hi
  have hlt : i < s.promises.length := (List.getElem?_eq_some_iff.mp hp).1
  have hsame := hone.one i s.promises.length
    ⟨p, (List.getElem?_append_left hlt).trans hp, hsettled⟩ ⟨{ job := job }, by simp, rfl⟩
  omega

/-- A call made while a prebuilt transaction is in flight starts another. -/
theorem not_oneAtATime_step {config : TxEngineConfig} {wallet : String}
    {a : UltraTxEngine.Action} (hg : Guarded s h) (hC : ¬ WaitsForPrebuilt s h a)
    (hs : (engine config wallet).step s a = some (s', es)) : ¬ OneAtATime s' (h ++ es) := by
  have hpre : PrebuiltInFlight s := by
    cases a with
    | submitTransaction instructions computeUnitLimitOverride => exact not_not.mp hC
    | submitPrebuilt index now => exact not_not.mp hC
    | _ => exact absurd trivial hC
  obtain ⟨p, hp, hsettled, hprebuilt⟩ := hpre
  obtain ⟨i, hi⟩ := List.mem_iff_getElem?.mp hp
  have hflight : InFlight s i := ⟨p, hi, hsettled⟩
  -- the prebuilt transaction has left the guard free
  have hfree : s.submitInProgressPromise = none := by
    rcases hg.held i p hi hsettled with ⟨-, hsubmission⟩ | ⟨hfree, -⟩
    · rw [hprebuilt] at hsubmission
      cases hsubmission
    · exact hfree
  have hsubmit : ∀ instructions computeUnitLimitOverride,
      ¬ OneAtATime (s.submitTransaction instructions computeUnitLimitOverride) (h ++ es) := by
    intro instructions computeUnitLimitOverride
    unfold UltraTxEngine.submitTransaction
    rw [hfree]
    exact not_oneAtATime_start hflight _ _ _
  obtain ⟨⟨t, out⟩, hstep, heq⟩ := Option.map_eq_some_iff.mp hs
  obtain ⟨rfl, -⟩ : t = s' ∧ _ := Prod.mk.inj heq
  cases a with
  | submitTransaction instructions computeUnitLimitOverride =>
    cases hstep
    exact hsubmit instructions computeUnitLimitOverride
  | submitPrebuilt index now =>
    obtain ⟨pre, -, heq⟩ := Option.map_eq_some_iff.mp hstep
    obtain rfl : (s.submitPrebuilt pre now).1 = t := congrArg Prod.fst heq
    unfold UltraTxEngine.submitPrebuilt
    split
    · exact hsubmit pre.instructions none
    · rw [hfree]
      exact not_oneAtATime_start hflight _ _ _
  | _ => exact absurd trivial hC

/-- **One submission at a time, exactly.** In an interleaving of calls and answers,
at most one submission is ever in flight and the guard is only cleared by the
submission that set it, if and only if nothing is submitted while a prebuilt
transaction is in flight. -/
theorem oneAtATime_iff (config : TxEngineConfig) (wallet : String)
    (as : List UltraTxEngine.Action) :
    (engine config wallet).Always OneAtATime (engine config wallet).init [] as ↔
      (engine config wallet).Along WaitsForPrebuilt (engine config wallet).init [] as :=
  Machine.always_iff_along (fun hg => hg.oneAtATime) guarded_step not_oneAtATime_step
    (guarded_init config wallet) as

end Steps

end InFlightGuard

end FlashEdge
