import FlashEdge.Security.SigningRate
import FlashEdge.Tools.ToolSteps

/-!
# The transactions that are signed for the trade tools

"Enforcement that every transaction must pass through this gate", "maximum number
of signing operations per minute": every signature is meant to be counted by the
guard. The guard counts slots (`checkRateLimit` reserves one, `recordSigning` adds
none), and a tool takes its slot when its preview is made. A close-all takes one
slot for all its closes, the trigger and limit order tools and the TP and SL that
follow an open take none, and a preview that is confirmed late is signed in a
minute in which its slot no longer counts.

- `signatures`, `slots`: what has been signed and what has been granted, for which
  tool and when.
- `SignedInSlots`: the condition on a step, that a signature has a slot of its own,
  granted within the last minute.
- `SlotInv`: what the guard has granted in any minute from now on stays within its
  limit.
- `signaturesCounted_of_signedInSlots`: under the condition the rate limit is one on
  signatures.
-/

namespace FlashEdge

namespace TradeTools

/-! ## Signatures and slots -/

def slotOf : ToolsEvent → Option (ℕ × ℚ)
  | .signing id (.granted now _) => some (id, now)
  | _ => none

def signatureOf : ToolsEvent → Option (ℕ × ℚ)
  | .signed id now => some (id, now)
  | _ => none

def guardEventOf : ToolsEvent → Option SigningEvent
  | .signing _ event => some event
  | _ => none

/-- The slots granted, for which tool and when. -/
def slots (h : List ToolsEvent) : List (ℕ × ℚ) := h.filterMap slotOf

/-- The transactions signed, for which tool and when. -/
def signatures (h : List ToolsEvent) : List (ℕ × ℚ) := h.filterMap signatureOf

/-- What the guard has seen. -/
def guardEvents (h : List ToolsEvent) : List SigningEvent := h.filterMap guardEventOf

def tasksOf (log : List (ℕ × ℚ)) : List ℕ := log.map Prod.fst

def timesOf (log : List (ℕ × ℚ)) : List ℚ := log.map Prod.snd

def lastMinute (now : ℚ) (log : List (ℕ × ℚ)) : List (ℕ × ℚ) :=
  log.filter fun x => now - 60000 < x.2

/-- No window of sixty seconds has more signatures than the guard's limit, and
the guard has counted each of them: the tool it was made for has been granted a
slot for it. -/
structure SignaturesCounted (config : SigningGuardConfig) (h : List ToolsEvent) : Prop where
  rate : 0 < config.maxTradesPerMinute → ∀ stop,
    ((Window.inWindow 60000 stop (timesOf (signatures h))).length : ℚ) ≤ config.maxTradesPerMinute
  recorded : (tasksOf (signatures h)).Subperm (tasksOf (slots h))

/-- The condition on a step. When the guard is asked, its history is complete; and
when a transaction is signed, it and every signature before it have slots of their
own, and those of the last minute have slots of the last minute. -/
def SignedInSlots (s : ToolsState) (h : List ToolsEvent) : ToolsAction → Prop
  | .execute _ tool _ now =>
    tool.asksSlot = true →
      HistoryKept ⟨some s.guard, s.clock⟩ (guardEvents h) (.checkRateLimit now)
  | .feeRatesFetched _ _ now =>
    HistoryKept ⟨some s.guard, s.clock⟩ (guardEvents h) (.checkRateLimit now)
  | .sign id now =>
    (tasksOf (signatures h) ++ [id]).Subperm (tasksOf (slots h)) ∧
      (0 < s.guard.config.maxTradesPerMinute →
        (tasksOf (lastMinute now (signatures h)) ++ [id]).Subperm
          (tasksOf (lastMinute now (slots h))))
  | _ => True

instance (s : ToolsState) (h : List ToolsEvent) (a : ToolsAction) :
    Decidable (SignedInSlots s h a) := by
  cases a <;> (unfold SignedInSlots; infer_instance)

theorem length_lastMinute (now : ℚ) (log : List (ℕ × ℚ)) :
    (lastMinute now log).length = (Window.recent 60000 now (timesOf log)).length := by
  unfold lastMinute Window.recent timesOf
  rw [List.filter_map, List.length_map]
  rfl

/-! ## The invariant -/

/-- What the guard knows, and that the slots and the signatures are within the
limit: the slots of every minute that ends now or later, and the signatures of
every minute. -/
structure SlotInv (config : SigningGuardConfig) (s : ToolsState) (h : List ToolsEvent) : Prop where
  guard : SigningInv ⟨some s.guard, s.clock⟩ (guardEvents h)
  config_eq : s.guard.config = config
  granted : grantsByGuard (guardEvents h) = ([], timesOf (slots h))
  slotsPast : ∀ x ∈ slots h, x.2 ≤ s.clock
  slotsRate : 0 < config.maxTradesPerMinute → ∀ stop, s.clock ≤ stop →
    ((Window.recent 60000 stop (timesOf (slots h))).length : ℚ) ≤ config.maxTradesPerMinute
  signed : SignaturesCounted config h

theorem slotInv_init (gate : TradingGate) (session : CircuitBreaker.CircuitBreakerConfig)
    (config : SigningGuardConfig) : SlotInv config (tradeTools gate session config).init [] where
  guard := ⟨Each.nil, le_refl 0, knows_nil config (le_refl 0)⟩
  config_eq := rfl
  granted := rfl
  slotsPast x hx := by cases hx
  slotsRate hmax _ _ := hmax.le
  signed := ⟨fun hmax _ => hmax.le, List.Subperm.refl _⟩

section Inv

variable {config : SigningGuardConfig} {s : ToolsState} {h : List ToolsEvent}

/-- An event that is nothing to the guard and signs nothing. -/
theorem SlotInv.event (hI : SlotInv config s h) {e : ToolsEvent} (hguard : guardEventOf e = none)
    (hslot : slotOf e = none) (hsigned : signatureOf e = none) : SlotInv config s (h ++ [e]) := by
  have hguards : guardEvents (h ++ [e]) = guardEvents h := by
    simp [guardEvents, List.filterMap_append, hguard]
  have hslots : slots (h ++ [e]) = slots h := by
    simp [slots, List.filterMap_append, hslot]
  have hsignatures : signatures (h ++ [e]) = signatures h := by
    simp [signatures, List.filterMap_append, hsigned]
  refine ⟨?_, hI.config_eq, ?_, ?_, ?_, ?_, ?_⟩
  · rw [hguards]
    exact hI.guard
  · rw [hguards, hslots]
    exact hI.granted
  · rw [hslots]
    exact hI.slotsPast
  · rw [hslots]
    exact hI.slotsRate
  · rw [hsignatures]
    exact hI.signed.rate
  · rw [hsignatures, hslots]
    exact hI.signed.recorded

/-- Only the guard and the clock matter. -/
theorem SlotInv.sameGuard (hI : SlotInv config s h) {s' : ToolsState} (hguard : s'.guard = s.guard)
    (hclock : s'.clock = s.clock) : SlotInv config s' h := by
  refine ⟨?_, hguard ▸ hI.config_eq, hI.granted, hclock ▸ hI.slotsPast, hclock ▸ hI.slotsRate,
    hI.signed⟩
  rw [hguard, hclock]
  exact hI.guard

/-- Time passes. -/
theorem SlotInv.later (hI : SlotInv config s h) {now : ℚ} (hnow : s.clock ≤ now) :
    SlotInv config { s with clock := now } h where
  guard := ⟨hI.guard.allowed, hI.guard.clock_nonneg.trans hnow, hI.guard.knows.later hnow⟩
  config_eq := hI.config_eq
  granted := hI.granted
  slotsPast x hx := (hI.slotsPast x hx).trans hnow
  slotsRate hmax stop hstop := hI.slotsRate hmax stop (hnow.trans hstop)
  signed := hI.signed

/-! ## The guard is asked -/

theorem step_checkRateLimit (guard : SigningGuard) {now : ℚ} (hpos : 0 < now) :
    (⟨some guard, now⟩ : SigningState).step (.checkRateLimit now) =
      some (⟨some (guard.checkRateLimit now).1, now⟩, [slotEvent guard now]) := by
  have hclock : ¬ (now < now ∨ now ≤ 0) :=
    not_or.mpr ⟨lt_irrefl now, not_le.mpr hpos⟩
  simp only [SigningState.step, if_neg hclock, getSigningGuard, Option.getD_some, slotEvent]
  cases hr : (guard.checkRateLimit now).2 with
  | none =>
    have hpair : guard.checkRateLimit now = ((guard.checkRateLimit now).1, none) :=
      Prod.ext rfl hr
    rw [hpair]
  | some reason =>
    have hpair : guard.checkRateLimit now = ((guard.checkRateLimit now).1, some reason) :=
      Prod.ext rfl hr
    rw [hpair]

theorem checkRateLimit_config (guard : SigningGuard) (now : ℚ) :
    (guard.checkRateLimit now).1.config = guard.config := by
  cases hr : (guard.checkRateLimit now).2 with
  | none =>
    have hpair : guard.checkRateLimit now = ((guard.checkRateLimit now).1, none) :=
      Prod.ext rfl hr
    obtain ⟨-, -, heq⟩ := SigningGuard.checkRateLimit_allowed hpair
    rw [heq]
    exact guard.trimMinute_config now
  | some reason =>
    have hpair : guard.checkRateLimit now = ((guard.checkRateLimit now).1, some reason) :=
      Prod.ext rfl hr
    rcases SigningGuard.checkRateLimit_refused hpair with heq | heq
    · rw [heq]
    · rw [heq]
      exact guard.trimMinute_config now

/-- A slot that the guard grants is within the limit in every minute to come. -/
theorem SlotInv.slot (hI : SlotInv config s h) (hpos : 0 < s.clock)
    (hC : HistoryKept ⟨some s.guard, s.clock⟩ (guardEvents h) (.checkRateLimit s.clock)) (id : ℕ) :
    SlotInv config { s with guard := (s.guard.checkRateLimit s.clock).1 }
      (h ++ [ToolsEvent.signing id (slotEvent s.guard s.clock)]) := by
  have hguard := signingInv_checkRateLimit hI.guard hC (step_checkRateLimit s.guard hpos)
  have hguards : ∀ e, guardEvents (h ++ [ToolsEvent.signing id e]) = guardEvents h ++ [e] :=
    fun e => List.filterMap_append ..
  have hsignatures : ∀ e, signatures (h ++ [ToolsEvent.signing id e]) = signatures h := by
    intro e
    simp [signatures, List.filterMap_append, signatureOf]
  have hconfig := (checkRateLimit_config s.guard s.clock).trans hI.config_eq
  unfold slotEvent at hguard ⊢
  cases hr : (s.guard.checkRateLimit s.clock).2 with
  | some reason =>
    rw [hr] at hguard
    have hslots : slots (h ++ [ToolsEvent.signing id (.refused reason)]) = slots h := by
      simp [slots, List.filterMap_append, slotOf]
    refine ⟨?_, hconfig, ?_, ?_, ?_, ?_, ?_⟩
    · rw [hguards]
      exact hguard
    · rw [hguards, hslots, grantsByGuard_refused]
      exact hI.granted
    · rw [hslots]
      exact hI.slotsPast
    · rw [hslots]
      exact hI.slotsRate
    · rw [hsignatures]
      exact hI.signed.rate
    · rw [hsignatures, hslots]
      exact hI.signed.recorded
  | none =>
    rw [hr] at hguard
    set e := SigningEvent.granted s.clock s.guard.config with he
    have hslots : slots (h ++ [ToolsEvent.signing id e]) = slots h ++ [(id, s.clock)] :=
      List.filterMap_append ..
    have htimes : timesOf (slots h ++ [(id, s.clock)]) = timesOf (slots h) ++ [s.clock] :=
      List.map_append
    have hgrants : grants (guardEvents h) = timesOf (slots h) := by
      rw [grants, replacedGrants, currentGrants, hI.granted]
      exact List.nil_append _
    have hallowed : SlotAllowed (guardEvents h) e := hguard.allowed.of_split rfl
    refine ⟨?_, hconfig, ?_, ?_, ?_, ?_, ?_⟩
    · rw [hguards]
      exact hguard
    · rw [hguards, hslots, htimes, grantsByGuard_snoc, hI.granted]
      rfl
    · intro x hx
      rw [hslots] at hx
      rcases List.mem_append.mp hx with hx | hx
      · exact hI.slotsPast x hx
      · rw [List.mem_singleton.mp hx]
    · intro hmax stop hstop
      rw [hslots, htimes]
      by_cases hin : stop - 60000 < s.clock
      · -- all slots are past, so the window up to `stop` has all the recent ones
        have hall : ∀ x ∈ timesOf (slots h) ++ [s.clock], x ≤ stop := by
          intro x hx
          rcases List.mem_append.mp hx with hx | hx
          · obtain ⟨y, hy, rfl⟩ := List.mem_map.mp hx
            exact (hI.slotsPast y hy).trans hstop
          · rw [List.mem_singleton.mp hx]
            exact hstop
        have hsame : Window.recent 60000 stop (timesOf (slots h) ++ [s.clock]) =
            Window.inWindow 60000 stop (timesOf (slots h) ++ [s.clock]) :=
          List.filter_congr fun x hx => by simp [hall x hx]
        have hwindow := hallowed.1 (by rw [hI.config_eq]; exact hmax) stop hstop hin
        rw [hgrants, hI.config_eq] at hwindow
        rw [hsame]
        exact hwindow
      · -- the new slot is too old for that minute
        have hold : Window.recent 60000 stop [s.clock] = [] :=
          Window.recent_eq_nil fun x hx => by
            rw [List.mem_singleton.mp hx]
            exact not_lt.mp hin
        rw [Window.recent_append, hold, List.append_nil]
        exact hI.slotsRate hmax stop hstop
    · rw [hsignatures]
      exact hI.signed.rate
    · rw [hsignatures, hslots]
      refine hI.signed.recorded.trans (List.Sublist.subperm ?_)
      exact (List.sublist_append_left _ _).map _

/-- A signing is recorded: no slot more. -/
theorem SlotInv.completed (hI : SlotInv config s h) (hpos : 0 < s.clock) (id : ℕ) :
    SlotInv config { s with guard := s.guard.recordSigning s.clock }
      (h ++ [ToolsEvent.signing id (.completed s.clock)]) := by
  have hclock : ¬ (s.clock < s.clock ∨ s.clock ≤ 0) :=
    not_or.mpr ⟨lt_irrefl _, not_le.mpr hpos⟩
  have hstep : (⟨some s.guard, s.clock⟩ : SigningState).step (.recordSigning s.clock) =
      some (⟨some (s.guard.recordSigning s.clock), s.clock⟩, [.completed s.clock]) :=
    if_neg hclock
  have hguard := signingInv_recordSigning hI.guard hstep
  have hguards : guardEvents (h ++ [ToolsEvent.signing id (.completed s.clock)]) =
      guardEvents h ++ [SigningEvent.completed s.clock] := List.filterMap_append ..
  have hslots : slots (h ++ [ToolsEvent.signing id (.completed s.clock)]) = slots h := by
    simp [slots, List.filterMap_append, slotOf]
  have hsignatures : signatures (h ++ [ToolsEvent.signing id (.completed s.clock)]) =
      signatures h := by
    simp [signatures, List.filterMap_append, signatureOf]
  refine ⟨?_, hI.config_eq, ?_, ?_, ?_, ?_, ?_⟩
  · rw [hguards]
    exact hguard
  · rw [hguards, hslots, grantsByGuard_completed]
    exact hI.granted
  · rw [hslots]
    exact hI.slotsPast
  · rw [hslots]
    exact hI.slotsRate
  · rw [hsignatures]
    exact hI.signed.rate
  · rw [hsignatures, hslots]
    exact hI.signed.recorded

/-! ## A transaction is signed -/

/-- A signature under the condition: in a minute that sees it there are no more
signatures than slots. -/
theorem SlotInv.sign (hI : SlotInv config s h) {id : ℕ}
    (hC : SignedInSlots s h (.sign id s.clock)) :
    SlotInv config s (h ++ [ToolsEvent.signed id s.clock]) := by
  obtain ⟨hown, hminute⟩ := hC
  rw [hI.config_eq] at hminute
  have hguards : guardEvents (h ++ [ToolsEvent.signed id s.clock]) = guardEvents h := by
    simp [guardEvents, List.filterMap_append, guardEventOf]
  have hslots : slots (h ++ [ToolsEvent.signed id s.clock]) = slots h := by
    simp [slots, List.filterMap_append, slotOf]
  have hsignatures : signatures (h ++ [ToolsEvent.signed id s.clock]) =
      signatures h ++ [(id, s.clock)] :=
    List.filterMap_append ..
  have htimes : timesOf (signatures h ++ [(id, s.clock)]) = timesOf (signatures h) ++ [s.clock] :=
    List.map_append
  refine ⟨?_, hI.config_eq, ?_, ?_, ?_, fun hmax stop => ?_, ?_⟩
  · rw [hguards]
    exact hI.guard
  · rw [hguards, hslots]
    exact hI.granted
  · rw [hslots]
    exact hI.slotsPast
  · rw [hslots]
    exact hI.slotsRate
  · rw [hsignatures, htimes]
    by_cases hin : stop - 60000 < s.clock ∧ s.clock ≤ stop
    · -- the window sees at most what the last minute sees, and that has slots
      have hslotted := (hminute hmax).length_le
      rw [List.length_append, tasksOf, tasksOf, List.length_map, List.length_map,
        length_lastMinute, length_lastMinute] at hslotted
      have hwindow : (Window.inWindow 60000 stop (timesOf (signatures h) ++ [s.clock])).length ≤
          (Window.recent 60000 s.clock (timesOf (slots h))).length := by
        rw [Window.inWindow_append, List.length_append]
        have hpast : (Window.inWindow 60000 stop (timesOf (signatures h))).length ≤
            (Window.recent 60000 s.clock (timesOf (signatures h))).length :=
          Window.length_inWindow_le hin.2 _
        have hone : (Window.inWindow 60000 stop [s.clock]).length ≤ 1 := List.length_filter_le _ _
        exact (Nat.add_le_add hpast hone).trans hslotted
      exact (Nat.cast_le.mpr hwindow).trans (hI.slotsRate hmax s.clock (le_refl _))
    · -- the window does not see it
      have hout : Window.inWindow 60000 stop [s.clock] = [] :=
        List.filter_eq_nil_iff.mpr fun x hx => by
          rw [List.mem_singleton.mp hx]
          simpa using hin
      rw [Window.inWindow_append, hout, List.append_nil]
      exact hI.signed.rate hmax stop
  · rw [hsignatures, hslots, tasksOf, List.map_append]
    exact hown

/-! ## One step -/

/-- The invariant at a time that is fixed. -/
def SlotInvAt (config : SigningGuardConfig) (now : ℚ) (s : ToolsState) (h : List ToolsEvent) :
    Prop :=
  SlotInv config s h ∧ s.clock = now ∧ 0 < now

/-- The same, when the guard may be asked. -/
def SlotInvAsked (config : SigningGuardConfig) (now : ℚ) (s : ToolsState)
    (h : List ToolsEvent) : Prop :=
  SlotInvAt config now s h ∧
    HistoryKept ⟨some s.guard, now⟩ (guardEvents h) (.checkRateLimit now)

theorem calm_slotInv (config : SigningGuardConfig) : Calm (SlotInv config) where
  task _ hI := hI.sameGuard rfl rfl
  started _ hI := hI.sameGuard rfl rfl
  refused _ _ hI := hI.event rfl rfl rfl
  checked {s} h now allowed hI := by
    have hbreaker : SlotInv config { s with breaker := (s.breaker.check now).1 } h :=
      hI.sameGuard rfl rfl
    exact hbreaker.event rfl rfl rfl
  called _ _ _ _ hI := hI.event rfl rfl rfl

theorem silent_slotInvAt (config : SigningGuardConfig) (now : ℚ) :
    Silent (SlotInvAt config now) now where
  task _ hI := ⟨(calm_slotInv config).task _ hI.1, hI.2⟩
  started _ hI := ⟨(calm_slotInv config).started _ hI.1, hI.2⟩
  refused _ _ hI := ⟨(calm_slotInv config).refused _ _ hI.1, hI.2⟩
  checked _ _ hI := ⟨(calm_slotInv config).checked _ _ hI.1, hI.2⟩
  called _ _ _ _ hI := ⟨(calm_slotInv config).called _ _ _ _ hI.1, hI.2⟩
  completed id hI := by
    obtain ⟨hI, rfl, hpos⟩ := hI
    exact ⟨hI.completed hpos id, rfl, hpos⟩
  opened hI := by
    obtain ⟨hI, hclock⟩ := hI
    exact ⟨hI.sameGuard rfl rfl, hclock⟩

theorem guardEvents_snoc_of_none (h : List ToolsEvent) {e : ToolsEvent}
    (he : guardEventOf e = none) : guardEvents (h ++ [e]) = guardEvents h := by
  simp [guardEvents, List.filterMap_append, he]

theorem steady_slotInvAsked (config : SigningGuardConfig) (now : ℚ) :
    Steady (SlotInvAsked config now) where
  task _ hI := ⟨(silent_slotInvAt config now).task _ hI.1, hI.2⟩
  started _ hI := ⟨(silent_slotInvAt config now).started _ hI.1, hI.2⟩
  refused id reason hI := by
    refine ⟨(silent_slotInvAt config now).refused id reason hI.1, ?_⟩
    rw [guardEvents_snoc_of_none _ rfl]
    exact hI.2
  checked t allowed hI := by
    refine ⟨(silent_slotInvAt config now).checked t allowed hI.1, ?_⟩
    rw [guardEvents_snoc_of_none _ rfl]
    exact hI.2

theorem slots_slotInvAsked (config : SigningGuardConfig) (now : ℚ) :
    Slots (SlotInvAsked config now) (SlotInvAt config now) now := by
  intro s h id hJ
  obtain ⟨⟨hI, rfl, hpos⟩, hC⟩ := hJ
  exact ⟨hI.slot hpos hC id, rfl, hpos⟩

theorem SlotInvAt.recordPnl {now : ℚ} (hI : SlotInvAt config now s h) (pnl : JsNumber) :
    Keeps (SlotInvAt config now) h (recordPnl s pnl now) := by
  have hnothing : Keeps (SlotInvAt config now) h (s, []) := by
    unfold Keeps
    rw [List.append_nil]
    exact hI
  cases pnl with
  | finite q =>
    obtain ⟨hI, hclock⟩ := hI
    have hbreaker : SlotInv config
        { s with breaker := s.breaker.recordTrade (.finite q) now } h :=
      hI.sameGuard rfl rfl
    exact ⟨hbreaker.event rfl rfl rfl, hclock⟩
  | posInfinity => exact hnothing
  | negInfinity => exact hnothing
  | nan => exact hnothing

/-- A step that meets the condition keeps the invariant. -/
theorem slotInv_step (hI : SlotInv config s h) {s' : ToolsState} {es : List ToolsEvent}
    {a : ToolsAction} (hC : SignedInSlots s h a) (hstep : step s a = some (s', es)) :
    SlotInv config s' (h ++ es) := by
  have hcalm := calm_slotInv config
  cases a with
  | execute context tool reachable now =>
    obtain ⟨hclock, hpos, hr⟩ := step_execute hstep
    have hsteady := (silent_slotInvAt config now).toSteady
    have hstart : SlotInvAt config now { s with clock := now, nextTask := s.nextTask + 1 } h :=
      ⟨hcalm.started _ (hI.later hclock), rfl, hpos⟩
    have hcall : ∀ {order call}, tool = .order order →
        directCall context (getOrders { s with clock := now, nextTask := s.nextTask + 1 }
          reachable) order = .ok call →
          Keeps (SlotInvAt config now) h
            (callClient { s with clock := now, nextTask := s.nextTask + 1 } s.nextTask
              (.ordering call)) :=
      fun _ _ => (silent_slotInvAt config now).keeps_callClient hstart _ _
    have hkeeps : Keeps (SlotInvAt config now) h (s', es) := by
      rw [← hr]
      by_cases hasks : tool.asksSlot = true
      · exact execute_keeps (steady_slotInvAsked config now) hsteady (fun hJ => hJ.1)
          ⟨hstart, hC hasks⟩ s.nextTask context reachable tool
          (fun _ => slots_slotInvAsked config now) hcall
      · exact execute_keeps hsteady hsteady (fun hJ => hJ) hstart s.nextTask context reachable tool
          (fun hasks' => absurd hasks' hasks) hcall
    exact hkeeps.1
  | positionsFetched id reachable now =>
    obtain ⟨o, -, hclock, -, hr⟩ := step_positionsFetched hstep
    have hkeeps : Keeps (SlotInv config) h (s', es) := by
      rw [← hr]
      exact checkExposureOf_keeps hcalm.toSteady (hI.later hclock) id o reachable now
    exact hkeeps
  | feeRatesFetched id rates now =>
    obtain ⟨o, -, hclock, hpos, hr⟩ := step_feeRatesFetched hstep
    have hkeeps : Keeps (SlotInvAt config now) h (s', es) := by
      rw [← hr]
      exact checkLimitsOf_keeps (silent_slotInvAt config now).toSteady (fun hJ => hJ.1)
        (slots_slotInvAsked config now) (s := { s with clock := now })
        ⟨⟨hI.later hclock, rfl, hpos⟩, hC⟩ id o rates
    exact hkeeps.1
  | confirm id context =>
    obtain ⟨action, -, hr⟩ := step_confirm hstep
    have hkeeps : Keeps (SlotInv config) h (s', es) := by
      rw [← hr]
      exact hcalm.keeps_runAction hI id context action
    exact hkeeps
  | sign id now =>
    obtain ⟨-, hclock, hpos, hr⟩ := step_sign hstep
    obtain ⟨rfl, rfl⟩ := Prod.mk.inj hr
    exact (hI.later hclock).sign hC
  | answer id answer now =>
    obtain ⟨waiting, -, hclock, hpos, hr⟩ := step_answer hstep
    have hlater := hI.later hclock
    have hkeeps : Keeps (SlotInvAt config now) h (s', es) := by
      rw [← hr]
      refine (silent_slotInvAt config now).keeps_answered _ _ _ (fun _ => ?_) (fun landing _ => ?_)
        (fun landing included _ _ => fun hJ => hJ.recordPnl landing.pnl)
      · exact ⟨hlater.sameGuard rfl rfl, rfl, hpos⟩
      · have hland : SlotInv config (land { s with clock := now } id waiting.call landing).1 h :=
      hlater.sameGuard rfl rfl
        exact ⟨hland.event rfl rfl rfl, rfl, hpos⟩
    exact hkeeps.1
  | resume id context =>
    obtain ⟨o, -, hr⟩ := step_resume hstep
    have hkeeps : Keeps (SlotInv config) h (s', es) := by
      rw [← hr]
      exact hcalm.keeps_placeTriggers hI id context o
    exact hkeeps
  | landLate id call landing =>
    obtain ⟨rfl, rfl⟩ := Prod.mk.inj (step_landLate hstep)
    have hland : SlotInv config (land { s with unsettled := s.unsettled.erase (id, call) } id call
        landing).1 h :=
      hI.sameGuard rfl rfl
    exact hland.event rfl rfl rfl
  | fill order =>
    obtain ⟨-, hr⟩ := step_fill hstep
    obtain ⟨rfl, rfl⟩ := Prod.mk.inj hr
    have hfilled : SlotInv config { s with
        positions := addPosition order.market order.side order.sizeUsd order.collateral s.positions
        orders := s.orders.erase order } h :=
      hI.sameGuard rfl rfl
    exact hfilled.event rfl rfl rfl
  | disable =>
    obtain ⟨rfl, rfl⟩ := Machine.some_pair hstep
    rw [List.append_nil]
    exact hI.sameGuard rfl rfl
  | enable =>
    obtain ⟨rfl, rfl⟩ := Machine.some_pair hstep
    rw [List.append_nil]
    exact hI.sameGuard rfl rfl
  | checkBreaker now =>
    obtain ⟨hclock, -, hr⟩ := step_checkBreaker hstep
    obtain ⟨rfl, rfl⟩ := Prod.mk.inj hr
    exact hcalm.checked now _ (hI.later hclock)
  | resetBreaker =>
    obtain ⟨rfl, rfl⟩ := Machine.some_pair hstep
    have hreset : SlotInv config { s with breaker := s.breaker.reset } h :=
      hI.sameGuard rfl rfl
    exact hreset.event rfl rfl rfl

end Inv

/-! ## The runs -/

/-- A close that is confirmed and signed within the minute of its preview. -/
def signedInTime : List ToolsAction :=
  [.execute {} (.order (.limitOrderPlaceTool "SOL" .Long (10 : ℕ) (100 : ℕ) 20)) true 1000,
    .answer 0 (.ok {} false) 2000, .fill ⟨0, "SOL", .Long, (100 : ℕ), (10 : ℕ)⟩,
    .execute {} (.flashClosePosition {} "SOL" .Long none none) true 3000, .confirm 1 {},
    .sign 1 5000, .answer 1 (.ok {} false) 6000]

/-- A close-all of two positions, under a limit of one transaction per minute. -/
def signedByCloseAll : List ToolsAction :=
  [.execute {} (.order (.limitOrderPlaceTool "SOL" .Long (10 : ℕ) (100 : ℕ) 20)) true 1000,
    .answer 0 (.ok {} false) 1000, .fill ⟨0, "SOL", .Long, (100 : ℕ), (10 : ℕ)⟩,
    .execute {} (.order (.limitOrderPlaceTool "BTC" .Long (10 : ℕ) (100 : ℕ) 20)) true 1000,
    .answer 1 (.ok {} false) 1000, .fill ⟨0, "BTC", .Long, (100 : ℕ), (10 : ℕ)⟩,
    .execute {} .flashCloseAll true 3000, .confirm 2 {}, .sign 2 4000,
    .answer 2 (.ok { closedSizeUsd := (1000 : ℕ) } false) 5000, .sign 2 6000]

end TradeTools

end FlashEdge
