import FlashEdge.Client.TradeExecution

/-!
# The two ways to open a position

`openPosition` validates the leverage and the collateral before it takes the
trade lock; `openPositionAtomic` with a take-profit or a stop-loss goes to
`executeOpenPosition` at once. Both then pass the same gates: the lock, the
health check and the breaker. `atomic_rejects_iff` says for which requests the
atomic path rejects what the plain path rejects.

A request is compared with itself in one state and with the same answers, so a
call is performed here without interruption (`uninterrupted`).
-/

namespace FlashEdge

namespace FlashTrades

/-- Resume a call, if it waits for this. -/
def resume (r : FlashTrades × List TradeEvent) (call : ℕ)
    (answer : FlashTrades → PendingCall → Option (FlashTrades × List TradeEvent)) :
    FlashTrades × List TradeEvent :=
  match (r.1.calls.get? call).bind (answer r.1) with
  | some r' => (r'.1, r.2 ++ r'.2)
  | none => r

/-- A call that opens a position, up to its request to the builder or its error,
with nothing else happening in between. -/
def uninterrupted (leverageFn : Option (String → ℚ)) (s : FlashTrades)
    (health : Except TradeError Unit) (now : ℚ) (c : Call) : FlashTrades × List TradeEvent :=
  let call := s.nextCall
  let r := { s with nextCall := s.nextCall + 1 }.start call now c
  let r := resume r call fun s => s.referralValidated leverageFn call now
  resume r call fun s => s.healthChecked call health now

/-- The call throws before it asks for a transaction. -/
def Rejects (leverageFn : Option (String → ℚ)) (s : FlashTrades) (health : Except TradeError Unit)
    (now : ℚ) (c : Call) : Prop :=
  ∃ error, .thrown s.nextCall error ∈ (uninterrupted leverageFn s health now c).2

/-! ## It is a run of the machine -/

variable {leverageFn : Option (String → ℚ)} {h : List TradeEvent}

/-- What resuming a call reaches is reached by a run. -/
theorem reachable_resume {r : FlashTrades × List TradeEvent} {call : ℕ}
    {answer : FlashTrades → PendingCall → Option (FlashTrades × List TradeEvent)}
    (hr : (flashTrades leverageFn).Reachable r.1 (h ++ r.2)) (a : Action)
    (ha : ∀ s : FlashTrades, s.step leverageFn a = (s.calls.get? call).bind (answer s)) :
    (flashTrades leverageFn).Reachable (resume r call answer).1
      (h ++ (resume r call answer).2) := by
  unfold resume
  split
  · next r' hr' =>
    rw [← List.append_assoc]
    exact hr.step ((ha r.1).trans hr')
  · exact hr

/-- An uninterrupted call is a run. -/
theorem reachable_uninterrupted {s : FlashTrades} (hr : (flashTrades leverageFn).Reachable s h)
    (health : Except TradeError Unit) (now : ℚ) (c : Call) :
    (flashTrades leverageFn).Reachable (uninterrupted leverageFn s health now c).1
      (h ++ (uninterrupted leverageFn s health now c).2) := by
  have hstart := hr.step (a := .call c now) rfl
  have hreferral := reachable_resume hstart
    (.referralValidated s.nextCall now) fun _ => rfl
  exact reachable_resume hreferral (.healthChecked s.nextCall health now) fun _ => rfl

/-! ## The gates -/

/-- A gate that both paths pass through is closed: the lock of the market and the
side is held, the health check throws, or the breaker refuses. -/
def GateClosed (s : FlashTrades) (health : Except TradeError Unit) (now : ℚ) (args : OpenArgs) :
    Prop :=
  lockKey args.market args.side ∈ s.activeTrades ∨ (∃ error, health = .error error) ∨
    ∃ error, s.breaker.cb.checkExecution now = .error error

/-- The leverage is within the limits of the market, and the collateral is not
below the minimum. -/
def WithinLimits (leverageFn : Option (String → ℚ)) (args : OpenArgs) : Prop :=
  args.leverage.ltRat (getLeverageLimits leverageFn args.market).1 = false ∧
    args.leverage.gtRat (getLeverageLimits leverageFn args.market).2 = false ∧
    args.collateralAmount.ltRat 10 = false

theorem validateOpen_eq_ok_iff {args : OpenArgs} :
    validateOpen leverageFn args = .ok () ↔ WithinLimits leverageFn args := by
  unfold validateOpen WithinLimits
  dsimp only
  split
  · next hmin => simp [hmin]
  · next hmin =>
    split
    · next hmax => simp [hmax]
    · next hmax =>
      split
      · next hcollateral => simp [hcollateral]
      · next hcollateral => simp [hmin, hmax, hcollateral]

variable {s : FlashTrades} {call : ℕ} {health : Except TradeError Unit} {now : ℚ}

/-- A call that does not wait for the answer stays as it is. -/
theorem resume_of_none {r : FlashTrades × List TradeEvent}
    {answer : FlashTrades → PendingCall → Option (FlashTrades × List TradeEvent)}
    (hnone : (r.1.calls.get? call).bind (answer r.1) = none) : resume r call answer = r := by
  rw [resume, hnone]

theorem resume_of_some {r r' : FlashTrades × List TradeEvent}
    {answer : FlashTrades → PendingCall → Option (FlashTrades × List TradeEvent)}
    (hsome : (r.1.calls.get? call).bind (answer r.1) = some r') :
    resume r call answer = (r'.1, r.2 ++ r'.2) := by
  rw [resume, hsome]

/-- After `executeOpenPosition` and the health check, the call has thrown exactly
if a gate is closed. -/
theorem executeOpenPosition_thrown_iff (args : OpenArgs) (takeProfit stopLoss : Option JsNumber) :
    (∃ error, .thrown call error ∈
      (resume (s.executeOpenPosition call args takeProfit stopLoss now) call
        fun s => s.healthChecked call health now).2) ↔ s.GateClosed health now args := by
  unfold executeOpenPosition lockAndWait acquireTradeLock GateClosed
  by_cases hlock : lockKey args.market args.side ∈ s.activeTrades
  · -- the lock is held: the call is over, and the health check finds nothing
    rw [if_pos hlock, resume_of_none (by simp [throws, settle, releaseTradeLock])]
    exact iff_of_true ⟨_, List.mem_singleton_self _⟩ (.inl hlock)
  · rw [if_neg hlock]
    cases health with
    | error error =>
      rw [resume_of_some (by rw [wait_get?]; rfl)]
      exact iff_of_true ⟨error, List.mem_singleton_self _⟩ (.inr (.inl ⟨error, rfl⟩))
    | ok =>
      cases hcheck : s.breaker.cb.checkExecution now with
      | error error =>
        rw [resume_of_some (by
          rw [wait_get?, Option.bind_some]
          simp only [healthChecked, wait, hcheck]
          rfl)]
        exact iff_of_true ⟨.circuit error, by simp [throws]⟩ (.inr (.inr ⟨error, rfl⟩))
      | ok cb =>
        rw [resume_of_some (by
          rw [wait_get?, Option.bind_some]
          simp only [healthChecked, wait, hcheck]
          rfl)]
        refine iff_of_false ?_ ?_
        · rintro ⟨error, hmem⟩
          simp at hmem
        · rintro (hheld | ⟨error, herror⟩ | ⟨error, herror⟩)
          · exact hlock hheld
          · cases herror
          · cases herror

/-! ## The two paths -/

theorem resume_referral_error {args : OpenArgs} {error : TradeError}
    (hvalid : validateOpen leverageFn args = .error error) :
    resume (s.wait call none (.referral args), []) call
        (fun s => s.referralValidated leverageFn call now) =
      (s.wait call none (.referral args)).throws call none error := by
  rw [resume, wait_get?, Option.bind_some]
  simp only [referralValidated, hvalid]
  rfl

theorem resume_referral_ok {args : OpenArgs} (hvalid : validateOpen leverageFn args = .ok ()) :
    resume (s.wait call none (.referral args), []) call
        (fun s => s.referralValidated leverageFn call now) =
      (s.wait call none (.referral args)).executeOpenPosition call args none none now := by
  rw [resume, wait_get?, Option.bind_some]
  simp only [referralValidated, hvalid, List.nil_append]

/-- `executeOpenPosition` does not wait for the referral check. -/
theorem resume_referral_execute (args : OpenArgs) (takeProfit stopLoss : Option JsNumber) :
    resume (s.executeOpenPosition call args takeProfit stopLoss now) call
        (fun s => s.referralValidated leverageFn call now) =
      s.executeOpenPosition call args takeProfit stopLoss now := by
  refine resume_of_none ?_
  unfold executeOpenPosition lockAndWait
  split
  · simp [throws, settle, releaseTradeLock]
  · rw [wait_get?]
    rfl

/-- The plain path rejects what is not within the limits, and at a closed gate. -/
theorem openPosition_rejects_iff (args : OpenArgs) :
    Rejects leverageFn s health now (.openPosition args) ↔
      ¬ WithinLimits leverageFn args ∨ s.GateClosed health now args := by
  rw [← validateOpen_eq_ok_iff]
  unfold Rejects uninterrupted
  dsimp only [start]
  cases hvalid : validateOpen leverageFn args with
  | error error =>
    rw [resume_referral_error hvalid, resume_of_none (by simp [throws, settle, releaseTradeLock])]
    exact iff_of_true ⟨error, List.mem_singleton_self _⟩ (.inl (by simp))
  | ok =>
    rw [resume_referral_ok hvalid]
    refine (executeOpenPosition_thrown_iff args none none).trans ?_
    simp [GateClosed, wait]

/-- With a take-profit or a stop-loss only a closed gate rejects. -/
theorem openPositionAtomic_rejects_iff (args : OpenArgs) {takeProfit stopLoss : Option JsNumber}
    (htriggers : takeProfit.isSome ∨ stopLoss.isSome) :
    Rejects leverageFn s health now (.openPositionAtomic args takeProfit stopLoss) ↔
      s.GateClosed health now args := by
  unfold Rejects uninterrupted
  dsimp only [start]
  rw [if_pos htriggers, resume_referral_execute]
  exact executeOpenPosition_thrown_iff args takeProfit stopLoss

/-- Without them the two paths are one. -/
theorem openPositionAtomic_without_triggers (args : OpenArgs) :
    Rejects leverageFn s health now (.openPositionAtomic args none none) ↔
      Rejects leverageFn s health now (.openPosition args) := by
  unfold Rejects uninterrupted
  simp [start]

/-- **When attaching triggers admits no more.** The atomic path rejects a request
that the plain path rejects if and only if the request has neither a take-profit
nor a stop-loss, or is within the limits, or meets a closed gate. -/
theorem atomic_rejects_iff (leverageFn : Option (String → ℚ)) (s : FlashTrades)
    (health : Except TradeError Unit) (now : ℚ) (args : OpenArgs)
    (takeProfit stopLoss : Option JsNumber) :
    (Rejects leverageFn s health now (.openPosition args) →
        Rejects leverageFn s health now (.openPositionAtomic args takeProfit stopLoss)) ↔
      (takeProfit = none ∧ stopLoss = none) ∨ WithinLimits leverageFn args ∨
        s.GateClosed health now args := by
  by_cases htriggers : takeProfit.isSome ∨ stopLoss.isSome
  · rw [openPosition_rejects_iff, openPositionAtomic_rejects_iff args htriggers]
    have hsome : ¬ (takeProfit = none ∧ stopLoss = none) := by
      rintro ⟨rfl, rfl⟩
      simp at htriggers
    by_cases hlimits : WithinLimits leverageFn args
    · simp [hlimits]
    · simp [hlimits, hsome]
  · obtain ⟨rfl, rfl⟩ : takeProfit = none ∧ stopLoss = none := by simpa using htriggers
    exact iff_of_true (openPositionAtomic_without_triggers args).mpr (.inl ⟨rfl, rfl⟩)

/-- One dollar at five hundred times leverage: the plain path rejects it, and with
a take-profit the builder is asked for it. -/
theorem not_atomic_rejects :
    ¬ ∀ (leverageFn : Option (String → ℚ)) (s : FlashTrades) (health : Except TradeError Unit)
      (now : ℚ) (args : OpenArgs) (takeProfit stopLoss : Option JsNumber),
      Rejects leverageFn s health now (.openPosition args) →
        Rejects leverageFn s health now (.openPositionAtomic args takeProfit stopLoss) := by
  intro hall
  let args : OpenArgs :=
    { market := "SOL", side := .Long, collateralAmount := .finite 1, leverage := .finite 500 }
  have hplain : Rejects none {} (.ok ()) 0 (.openPosition args) :=
    ⟨.maximumLeverage "SOL" 100, by decide +kernel⟩
  obtain ⟨error, hmem⟩ := hall none {} (.ok ()) 0 args (some (.finite 200)) none hplain
  have hevents : (uninterrupted none {} (.ok ()) 0
      (.openPositionAtomic args (some (.finite 200)) none)).2 =
      [.breaker (.admitted 0), .requested 0 (openRequest args (some (.finite 200)) none)] := by
    decide +kernel
  rw [hevents] at hmem
  simp at hmem

end FlashTrades

end FlashEdge
