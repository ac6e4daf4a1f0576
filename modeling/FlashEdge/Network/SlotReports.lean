import FlashEdge.Network.EndpointIndex
import FlashEdge.Theory.Machine

/-!
# The slots that endpoints report

A health check and the warm-up ask an endpoint for its slot, and the manager keeps the last
slot of each URL. The health check refuses a slot more than 1000 above the highest slot that
is kept, whosever it is; the warm-up refuses nothing. So a slot may be kept that is far above
those of the other endpoints; and when the chain has moved on by more than 1000 slots since
the last answer, the health check refuses the true slot, and refuses every later one too.

- `step_slots`: what a step does to the slots that are kept.
- `slotsSane_iff`: along an endless run, the exact condition on the reports under which no
  far slot is kept and no truthful endpoint is refused for ever.
-/

namespace FlashEdge

namespace EndpointTable

variable {t : EndpointTable}

theorem le_foldl_max {slots : List ℕ} {m acc : ℕ} (hm : m ≤ acc ∨ m ∈ slots) :
    m ≤ slots.foldl max acc := by
  induction slots generalizing acc with
  | nil =>
    rcases hm with hle | hmem
    · exact hle
    · cases hmem
  | cons slot slots ih =>
    rw [List.foldl_cons]
    refine ih ?_
    rcases hm with hle | hmem
    · exact Or.inl (hle.trans (le_max_left acc slot))
    · rcases List.mem_cons.mp hmem with rfl | hmem
      · exact Or.inl (le_max_right acc m)
      · exact Or.inr hmem

/-- No slot that is kept is above the highest one. -/
theorem le_getMaxKnownSlot {url : String} {slot : ℕ} (h : t.slotHistory.get? url = some slot) :
    slot ≤ t.getMaxKnownSlot :=
  le_foldl_max (.inr (List.mem_map_of_mem (f := Prod.snd) (OrderedMap.get?_eq_some_iff.mp h)))

/-- The highest slot is one that is kept. -/
theorem exists_getMaxKnownSlot (hpos : 0 < t.getMaxKnownSlot) :
    ∃ url, t.slotHistory.get? url = some t.getMaxKnownSlot := by
  have hmem : t.getMaxKnownSlot = 0 ∨
      t.getMaxKnownSlot ∈ t.slotHistory.entries.map Prod.snd := by
    let Found := fun m : ℕ => m = 0 ∨ m ∈ t.slotHistory.entries.map Prod.snd
    refine List.foldlRecOn (motive := Found) _ _ (Or.inl rfl) fun m hm slot hslot => ?_
    rcases max_choice m slot with heq | heq
    · show Found (max m slot)
      rw [heq]
      exact hm
    · show Found (max m slot)
      rw [heq]
      exact Or.inr hslot
  rcases hmem with hzero | hmem
  · omega
  · obtain ⟨⟨url, slot⟩, hentry, heq⟩ := List.mem_map.mp hmem
    dsimp only at heq
    subst heq
    exact ⟨url, OrderedMap.get?_eq_some_iff.mpr hentry⟩

theorem suspicious_iff {slot : ℕ} : t.suspicious slot = true ↔
    0 < t.getMaxKnownSlot ∧ t.getMaxKnownSlot + RpcManager.MAX_SLOT_JUMP < slot := by
  rw [suspicious, Bool.and_eq_true, decide_eq_true_iff, decide_eq_true_iff]

/-- A suspicious slot is above every slot that is kept. -/
theorem lt_of_suspicious {url : String} {slot known : ℕ} (hslot : t.suspicious slot = true)
    (hknown : t.slotHistory.get? url = some known) : known < slot := by
  have hmax := (suspicious_iff.mp hslot).2
  have hle := le_getMaxKnownSlot hknown
  omega

end EndpointTable

namespace RpcManager

/-! ## Reports -/

inductive ReportPath where
  | healthCheck
  | warmup
deriving DecidableEq, Repr

/-- An endpoint answers with its slot. -/
structure SlotReport where
  path : ReportPath
  url : String
  slot : ℕ
deriving DecidableEq, Repr

/-- The report that an action brings. -/
def slotReport (s : RpcManager) : Action → Option SlotReport
  | .slotAnswered task (some slot) _ =>
    match s.tasks.get? task with
    | some (.probe endpoint (.slot _) _) => some { path := .healthCheck, url := endpoint.url, slot }
    | _ => none
  | .warmed task (some (some slot)) _ =>
    match s.tasks.get? task with
    | some (.warmup _ endpoint _) => some { path := .warmup, url := endpoint.url, slot }
    | _ => none
  | _ => none

/-- Only a health check refuses a report. -/
def accepted (t : EndpointTable) (r : SlotReport) : Bool :=
  match r.path with
  | .healthCheck => !t.suspicious r.slot
  | .warmup => true

theorem accepted_eq_false_iff {t : EndpointTable} {r : SlotReport} :
    accepted t r = false ↔ r.path = .healthCheck ∧ t.suspicious r.slot = true := by
  unfold accepted
  cases r.path with
  | healthCheck => simp
  | warmup => simp

/-- The slots that are kept after a step. -/
def slotsAfter (s : RpcManager) (a : Action) : OrderedMap String ℕ :=
  match a with
  | .removeEndpoint url => (s.toEndpointTable.removeEndpoint url).1.slotHistory
  | a =>
    match (s.slotReport a).filter (accepted s.toEndpointTable) with
    | some r => s.slotHistory.set r.url r.slot
    | none => s.slotHistory

/-! ## A step and the slots -/

section Steps

variable {accepts : String → Bool} {s s' : RpcManager} {t : EndpointTable} {es : List Event}
  {a : Action} {r : SlotReport}

theorem addEndpoint_slotHistory (url label : String) :
    (t.addEndpoint url label).1.slotHistory = t.slotHistory := by
  unfold EndpointTable.addEndpoint
  split
  · rfl
  · rfl

theorem switchTo_slotHistory (url : String) :
    (t.switchTo accepts url).1.slotHistory = t.slotHistory := by
  unfold EndpointTable.switchTo EndpointTable.activate
  cases t.indexOf url with
  | none => rfl
  | some idx =>
    by_cases hactive : idx = t.activeIndex
    · simp only [hactive, if_true]
    · cases accepts url with
      | true => simp only [hactive, if_false, if_true]
      | false => simp only [hactive, if_false, Bool.false_eq_true]

theorem recordResult_slotHistory {t' : EndpointTable} {success : Bool}
    (hrecord : t.recordResult success = some t') : t'.slotHistory = t.slotHistory := by
  obtain ⟨ep, -, rfl⟩ := Option.map_eq_some_iff.mp hrecord
  rfl

theorem blockhashAnswered_slotHistory {task : ℕ} {answered : Bool} {now : ℚ} {t : Task}
    (hs : s.blockhashAnswered accepts task answered now t = some s') :
    s'.slotHistory = s.slotHistory := by
  obtain ⟨endpoint, start, purpose, latencyMs, -, htable | htable⟩ := blockhashAnswered_table hs
  · rw [htable]
    rfl
  · rw [htable, (tableAfter_kept accepts _ endpoint false purpose).2.2]
    rfl

/-- The slot of a health check is kept unless it is suspicious. -/
theorem slotAnswered_slotHistory {task : ℕ} {slot : Option ℕ} {now : ℚ} {t : Task}
    (ht : s.tasks.get? task = some t)
    (hs : s.slotAnswered accepts task slot now t = some s') :
    s'.slotHistory = s.slotsAfter (.slotAnswered task slot now) := by
  obtain ⟨endpoint, latencyMs, purpose, rfl, htable⟩ := slotAnswered_table hs
  rw [htable, (tableAfter_kept accepts _ endpoint true purpose).2.2]
  cases slot with
  | none => rfl
  | some slot =>
    let r : SlotReport := { path := .healthCheck, url := endpoint.url, slot }
    have hreport : s.slotReport (.slotAnswered task (some slot) now) = some r := by
      simp only [slotReport, ht, r]
    cases hsuspicious : s.suspicious slot with
    | true =>
      have hslot : s.recordedSlot (some slot) = none := by simp [recordedSlot, hsuspicious]
      have hrefused : accepted s.toEndpointTable r = false := by
        simp only [accepted, r, hsuspicious, Bool.not_true]
      simp only [slotsAfter, hreport, Option.filter_some, hrefused, withSlot, hslot,
        Bool.false_eq_true, if_false]
    | false =>
      have hslot : s.recordedSlot (some slot) = some slot := by simp [recordedSlot, hsuspicious]
      have haccepted : accepted s.toEndpointTable r = true := by
        simp only [accepted, r, hsuspicious, Bool.not_false]
      simp only [slotsAfter, hreport, Option.filter_some, haccepted, withSlot, hslot, if_true]
      rfl

/-- That of the warm-up is kept. -/
theorem warmed_slotHistory {task : ℕ} {answer : Option (Option ℕ)} {now : ℚ} {t : Task}
    (ht : s.tasks.get? task = some t) (hs : s.warmed task answer now t = some s') :
    s'.slotHistory = s.slotsAfter (.warmed task answer now) := by
  unfold warmed at hs
  split at hs
  · next pos endpoint start =>
    cases answer with
    | none =>
      obtain rfl := Option.some.inj hs
      rw [warmNext_table]
      rfl
    | some slot =>
      obtain rfl := Option.some.inj hs
      rw [warmNext_table]
      cases slot with
      | none => rfl
      | some slot =>
        simp only [slotsAfter, slotReport, ht, Option.filter_some, accepted, if_true]
        rfl
  · cases hs

/-- **A step and the slots.** A step keeps the slot of the report that it brings, if that is
accepted, and a removal drops the slot of the endpoint; nothing else changes. -/
theorem step_slots (hs : s.step accepts a = some (s', es)) : s'.slotHistory = s.slotsAfter a := by
  cases a with
  | addEndpoint url label =>
    obtain ⟨rfl, -⟩ := Machine.some_pair hs
    exact addEndpoint_slotHistory url label
  | removeEndpoint url =>
    obtain ⟨rfl, -⟩ := Machine.some_pair hs
    rfl
  | switchTo url =>
    obtain ⟨rfl, -⟩ := Machine.some_pair hs
    exact switchTo_slotHistory url
  | recordResult success =>
    simp only [step] at hs
    split at hs
    · obtain ⟨rfl, -⟩ := Machine.some_pair hs
      rfl
    · next t hrecord =>
      obtain ⟨rfl, -⟩ := Machine.some_pair hs
      exact recordResult_slotHistory hrecord
  | checkHealth endpoint now => exact congrArg _ (step_table hs trivial)
  | checkAllHealth now => exact congrArg _ (step_table hs trivial)
  | measureLatency now => exact congrArg _ (step_table hs trivial)
  | failover force now => exact congrArg _ (step_table hs trivial)
  | getHealthyConnection now => exact congrArg _ (step_table hs trivial)
  | monitorTick now => exact congrArg _ (step_table hs trivial)
  | warmupConnections now => exact congrArg _ (step_table hs trivial)
  | blockhashAnswered task answered now =>
    obtain ⟨t, -, hs⟩ := answer_resumes hs
    exact blockhashAnswered_slotHistory hs
  | healthImported task => exact congrArg _ (step_table hs trivial)
  | slotAnswered task slot now =>
    obtain ⟨t, ht, hs⟩ := answer_resumes hs
    exact slotAnswered_slotHistory ht hs
  | failoverEnded task now => exact congrArg _ (step_table hs trivial)
  | latencyAnswered task answered now =>
    obtain ⟨t, -, hs⟩ := answer_resumes hs
    rcases latencyAnswered_table hs with htable | ⟨ep, avg, -, htable⟩
    · rw [htable]
      rfl
    · rw [htable]
      rfl
  | warmed task answer now =>
    obtain ⟨t, ht, hs⟩ := answer_resumes hs
    exact warmed_slotHistory ht hs

/-- What brings a report is a step that can be made. -/
theorem step_of_report (accepts : String → Bool) (hr : s.slotReport a = some r) :
    ∃ s' es, s.step accepts a = some (s', es) := by
  unfold slotReport at hr
  split at hr
  · split at hr
    · next ht =>
      simp only [step, ht, Option.bind_some, slotAnswered, Option.map_some]
      exact ⟨_, _, rfl⟩
    · cases hr
  · split at hr
    · next ht =>
      simp only [step, ht, Option.bind_some, warmed, Option.map_some]
      exact ⟨_, _, rfl⟩
    · cases hr
  · cases hr

/-- What a step with a report keeps. -/
theorem slots_of_report (hr : s.slotReport a = some r) (hs : s.step accepts a = some (s', es)) :
    s'.slotHistory = if accepted s.toEndpointTable r = true then s.slotHistory.set r.url r.slot
      else s.slotHistory := by
  rw [step_slots hs]
  unfold slotsAfter
  split
  · cases hr
  · rw [hr, Option.filter_some]
    cases accepted s.toEndpointTable r with
    | true => rfl
    | false => rfl

/-- A report is kept exactly if it is accepted. -/
theorem kept_iff_accepted (hr : s.slotReport a = some r)
    (hs : s.step accepts a = some (s', es)) :
    s'.slotHistory.get? r.url = some r.slot ↔ accepted s.toEndpointTable r = true := by
  rw [slots_of_report hr hs]
  cases haccepted : accepted s.toEndpointTable r with
  | true => simp only [if_true, OrderedMap.get?_set_self]
  | false =>
    refine iff_of_false (fun hkept => ?_) Bool.false_ne_true
    -- a refused slot is above all that are kept
    have hsuspicious := (accepted_eq_false_iff.mp haccepted).2
    exact absurd (EndpointTable.lt_of_suspicious hsuspicious hkept) (lt_irrefl _)

/-- A slot that is new has been reported. -/
theorem report_of_new (hs : s.step accepts a = some (s', es)) {url : String} {slot : ℕ}
    (hnew : s'.slotHistory.get? url = some slot) (hold : s.slotHistory.get? url ≠ some slot) :
    ∃ r, s.slotReport a = some r ∧ r.url = url ∧ r.slot = slot := by
  rw [step_slots hs] at hnew
  unfold slotsAfter at hnew
  split at hnew
  · next removed =>
    unfold EndpointTable.removeEndpoint at hnew
    split at hnew
    · exact absurd hnew hold
    · split at hnew
      · exact absurd hnew hold
      · exact absurd (OrderedMap.get?_delete_eq_some.mp hnew).2 hold
  · split at hnew
    · next r hfilter =>
      refine ⟨r, (Option.filter_eq_some_iff.mp hfilter).1, ?_⟩
      rcases OrderedMap.get?_set_eq_some.mp hnew with ⟨rfl, rfl⟩ | ⟨-, hkept⟩
      · exact ⟨rfl, rfl⟩
      · exact absurd hkept hold
    · exact absurd hnew hold

end Steps

/-! ## Endless runs -/

section Runs

variable (accepts : String → Bool) (s₀ : RpcManager) (act : ℕ → Action)

/-- The table before the action number `k`. -/
def tableAt (k : ℕ) : EndpointTable := ((rpcManager accepts s₀).stateAt act k).toEndpointTable

def ReportedAt (k : ℕ) (r : SlotReport) : Prop :=
  ((rpcManager accepts s₀).stateAt act k).slotReport (act k) = some r

/-- A report is recorded if its slot is the one that is kept after the step. -/
def RecordedAt (k : ℕ) (r : SlotReport) : Prop :=
  ReportedAt accepts s₀ act k r ∧
    (tableAt accepts s₀ act (k + 1)).slotHistory.get? r.url = some r.slot

/-- The slot is at most 1000 above the highest one that is known from the other endpoints,
if one is known. -/
def NearOthers (t : EndpointTable) (r : SlotReport) : Prop :=
  (∃ url known, url ≠ r.url ∧ t.slotHistory.get? url = some known) →
    ∃ url known, url ≠ r.url ∧ t.slotHistory.get? url = some known ∧
      r.slot ≤ known + MAX_SLOT_JUMP

/-- Every recorded slot is near those of the others. -/
def RecordedNear : Prop :=
  ∀ k r, RecordedAt accepts s₀ act k r → NearOthers (tableAt accepts s₀ act k) r

/-- The endpoint always reports the slot of the chain, which never goes back. -/
def Truthful (url : String) : Prop :=
  ∃ chain : ℕ → ℕ, Monotone chain ∧
    ∀ k r, ReportedAt accepts s₀ act k r → r.url = url → r.slot = chain k

def KeepsReporting (url : String) : Prop :=
  ∃ᶠ k in Filter.atTop, ∃ r, ReportedAt accepts s₀ act k r ∧ r.url = url

/-- No truthful endpoint that keeps reporting is refused from some moment on. -/
def TruthHeard : Prop :=
  ∀ url, Truthful accepts s₀ act url → KeepsReporting accepts s₀ act url →
    ∃ᶠ k in Filter.atTop, ∃ r, RecordedAt accepts s₀ act k r ∧ r.url = url

structure SlotsSane : Prop where
  near : RecordedNear accepts s₀ act
  heard : TruthHeard accepts s₀ act

/-- A report far above the slots of the others comes to a health check, and is also far above
the endpoint's own slot. -/
def FarRefused : Prop :=
  ∀ k r, ReportedAt accepts s₀ act k r → ¬ NearOthers (tableAt accepts s₀ act k) r →
    r.path = .healthCheck ∧ (tableAt accepts s₀ act k).suspicious r.slot = true

/-- The way back for an endpoint that has been refused: it is warmed up, or no slot is known
at all, or that of another endpoint has come within 1000 slots. -/
def Bridged (t : EndpointTable) (r : SlotReport) : Prop :=
  r.path = .warmup ∨ t.getMaxKnownSlot = 0 ∨
    ∃ url known, url ≠ r.url ∧ t.slotHistory.get? url = some known ∧
      r.slot ≤ known + MAX_SLOT_JUMP

/-- When a truthful endpoint that keeps reporting is suspected in a health check, one of its
later reports is bridged. -/
def GapsBridged : Prop :=
  ∀ url, Truthful accepts s₀ act url → KeepsReporting accepts s₀ act url →
    ∀ k r, ReportedAt accepts s₀ act k r → r.url = url → r.path = .healthCheck →
      (tableAt accepts s₀ act k).suspicious r.slot = true →
        ∃ j r', k < j ∧ ReportedAt accepts s₀ act j r' ∧ r'.url = url ∧
          Bridged (tableAt accepts s₀ act j) r'

variable {accepts s₀ act} {k : ℕ} {r : SlotReport}

theorem tableAt_succ_of_step {s' : RpcManager} {es : List Event}
    (hs : (rpcManager accepts s₀).step ((rpcManager accepts s₀).stateAt act k) (act k) =
      some (s', es)) : tableAt accepts s₀ act (k + 1) = s'.toEndpointTable := by
  rw [tableAt, Machine.stateAt_succ_of_step hs]

theorem recordedAt_iff : RecordedAt accepts s₀ act k r ↔
    ReportedAt accepts s₀ act k r ∧ accepted (tableAt accepts s₀ act k) r = true := by
  refine and_congr_right fun hreported => ?_
  obtain ⟨s', es, hs⟩ := step_of_report accepts hreported
  rw [tableAt_succ_of_step hs]
  exact kept_iff_accepted hreported hs

/-- A bridged report is accepted. -/
theorem Bridged.accepted {t : EndpointTable} (hbridged : Bridged t r) :
    accepted t r = true := by
  by_contra hrefused
  obtain ⟨hpath, hsuspicious⟩ := accepted_eq_false_iff.mp (Bool.not_eq_true _ ▸ hrefused)
  obtain ⟨hpos, hfar⟩ := EndpointTable.suspicious_iff.mp hsuspicious
  rcases hbridged with hwarmup | hzero | ⟨url, known, -, hknown, hnear⟩
  · rw [hpath] at hwarmup
    cases hwarmup
  · omega
  · have hle := EndpointTable.le_getMaxKnownSlot hknown
    omega

/-- The slot of an endpoint that is not recorded in between is no newer. -/
theorem recorded_between {j : ℕ} {url : String} {slot : ℕ} (hkj : k ≤ j)
    (hnew : (tableAt accepts s₀ act j).slotHistory.get? url = some slot)
    (hold : (tableAt accepts s₀ act k).slotHistory.get? url ≠ some slot) :
    ∃ i r, k ≤ i ∧ i < j ∧ RecordedAt accepts s₀ act i r ∧ r.url = url := by
  obtain ⟨i, hki, hij, hbefore, hafter⟩ := exists_change
    (p := fun i => (tableAt accepts s₀ act i).slotHistory.get? url = some slot) hkj hold hnew
  cases hs : (rpcManager accepts s₀).step ((rpcManager accepts s₀).stateAt act i) (act i) with
  | none =>
    rw [tableAt, Machine.stateAt_succ_of_none hs] at hafter
    exact absurd hafter hbefore
  | some result =>
    obtain ⟨s', es⟩ := result
    have hsucc := tableAt_succ_of_step hs
    rw [hsucc] at hafter
    obtain ⟨r, hreported, rfl, rfl⟩ := report_of_new hs hafter hbefore
    refine ⟨i, r, hki, hij, ⟨hreported, ?_⟩, rfl⟩
    rw [hsucc]
    exact hafter

theorem recordedNear_iff : RecordedNear accepts s₀ act ↔ FarRefused accepts s₀ act := by
  constructor
  · intro hnear k r hreported hfar
    refine accepted_eq_false_iff.mp ?_
    by_contra haccepted
    exact hfar (hnear k r (recordedAt_iff.mpr ⟨hreported, Bool.not_eq_false _ ▸ haccepted⟩))
  · intro hrefused k r hrecorded
    obtain ⟨hreported, haccepted⟩ := recordedAt_iff.mp hrecorded
    by_contra hfar
    rw [accepted_eq_false_iff.mpr (hrefused k r hreported hfar)] at haccepted
    cases haccepted

/-- The first report of the endpoint that is recorded after a gap is bridged: as it is
truthful, its own slot cannot have caught up. -/
theorem bridged_of_first {j : ℕ} {r' : SlotReport} {url : String}
    (htruthful : Truthful accepts s₀ act url) (hreported : ReportedAt accepts s₀ act k r)
    (hurl : r.url = url) (hpath : r.path = .healthCheck)
    (hgap : (tableAt accepts s₀ act k).suspicious r.slot = true) (hkj : k < j)
    (hrecorded : RecordedAt accepts s₀ act j r') (hurl' : r'.url = url)
    (hfirst : ∀ i, k < i → i < j → ¬ ∃ r, RecordedAt accepts s₀ act i r ∧ r.url = url) :
    Bridged (tableAt accepts s₀ act j) r' := by
  obtain ⟨hreported', haccepted⟩ := recordedAt_iff.mp hrecorded
  by_cases hwarmup : r'.path = .warmup
  · exact Or.inl hwarmup
  refine Or.inr ?_
  rcases Nat.eq_zero_or_pos (tableAt accepts s₀ act j).getMaxKnownSlot with hzero | hpos
  · exact Or.inl hzero
  refine Or.inr ?_
  have hcheck : r'.path = .healthCheck := by
    cases hpath' : r'.path with
    | healthCheck => rfl
    | warmup => exact absurd hpath' hwarmup
  -- it is accepted by the highest slot
  have hnear : r'.slot ≤ (tableAt accepts s₀ act j).getMaxKnownSlot + MAX_SLOT_JUMP := by
    by_contra hfar
    rw [accepted_eq_false_iff.mpr ⟨hcheck,
      EndpointTable.suspicious_iff.mpr ⟨hpos, Nat.lt_of_not_le hfar⟩⟩] at haccepted
    cases haccepted
  obtain ⟨holder, hholder⟩ := EndpointTable.exists_getMaxKnownSlot hpos
  refine ⟨holder, _, fun hown => ?_, hholder, hnear⟩
  -- the endpoint's own slot is not that high, since it has been recorded before the gap
  obtain ⟨chain, hmono, hchain⟩ := htruthful
  have hlater : r.slot ≤ r'.slot := by
    rw [hchain k r hreported hurl, hchain j r' hreported' hurl']
    exact hmono hkj.le
  obtain ⟨-, hfar⟩ := EndpointTable.suspicious_iff.mp hgap
  have hold : (tableAt accepts s₀ act k).slotHistory.get? holder ≠
      some (tableAt accepts s₀ act j).getMaxKnownSlot := by
    intro hkept
    have hle := EndpointTable.le_getMaxKnownSlot hkept
    omega
  obtain ⟨i, other, hki, hij, hother, hsame⟩ := recorded_between hkj.le hholder hold
  rcases Nat.eq_or_lt_of_le hki with rfl | hki
  · -- at the gap itself the report was refused
    obtain ⟨hreportedOther, hacceptedOther⟩ := recordedAt_iff.mp hother
    obtain rfl : r = other := Option.some.inj (hreported.symm.trans hreportedOther)
    rw [accepted_eq_false_iff.mpr ⟨hpath, hgap⟩] at hacceptedOther
    cases hacceptedOther
  · exact hfirst i hki hij ⟨other, hother, (hsame.trans hown).trans hurl'⟩

theorem truthHeard_iff : TruthHeard accepts s₀ act ↔ GapsBridged accepts s₀ act := by
  constructor
  · intro hheard url htruthful hkeeps k r hreported hurl hpath hgap
    obtain ⟨j, hkj, ⟨r', hrecorded, hurl'⟩, hfirst⟩ := first_after (hheard url htruthful hkeeps) k
    exact ⟨j, r', hkj, hrecorded.1, hurl',
      bridged_of_first htruthful hreported hurl hpath hgap hkj hrecorded hurl' hfirst⟩
  · intro hbridged url htruthful hkeeps
    refine Filter.frequently_atTop.mpr fun start => ?_
    obtain ⟨k, hk, r, hreported, hurl⟩ := Filter.frequently_atTop.mp hkeeps start
    cases haccepted : accepted (tableAt accepts s₀ act k) r with
    | true => exact ⟨k, hk, r, recordedAt_iff.mpr ⟨hreported, haccepted⟩, hurl⟩
    | false =>
      obtain ⟨hpath, hgap⟩ := accepted_eq_false_iff.mp haccepted
      obtain ⟨j, r', hkj, hreported', hurl', hbridge⟩ :=
        hbridged url htruthful hkeeps k r hreported hurl hpath hgap
      exact ⟨j, hk.trans hkj.le, r', recordedAt_iff.mpr ⟨hreported', hbridge.accepted⟩, hurl'⟩

/-- **When the slots are sane.** Along every endless run of the manager, no recorded slot is
far above those of the others and no truthful endpoint is refused for ever, if and only if
far reports come to health checks only and are far above every slot, and every truthful
report that is suspected is followed by one that is bridged. -/
theorem slotsSane_iff (accepts : String → Bool) (s₀ : RpcManager) (act : ℕ → Action) :
    SlotsSane accepts s₀ act ↔ FarRefused accepts s₀ act ∧ GapsBridged accepts s₀ act := by
  rw [← recordedNear_iff, ← truthHeard_iff]
  exact ⟨fun h => ⟨h.near, h.heard⟩, fun h => ⟨h.1, h.2⟩⟩

end Runs

/-! ## A lie that is warmed up, and a gap that stays -/

/-- `a` reports slot 5 to a health check, and then `b` is warmed up and reports a million. -/
def warmedLie (k : ℕ) : Action :=
  [.checkHealth ⟨"https://a", "a"⟩ 0, .blockhashAnswered 0 true 0, .healthImported 0,
    .slotAnswered 0 (some 5) 0, .warmupConnections 0,
    .warmed 1 (some (some 1000000)) 0].getD k (.switchTo "")

/-- While nobody asks, the chain goes on by 1995 slots. -/
def gapChain (k : ℕ) : ℕ := if k < 4 then 5 else 2000

/-- `a` is asked again and again. -/
def gapRun (k : ℕ) : Action :=
  match k % 4 with
  | 0 => .checkHealth ⟨"https://a", "a"⟩ 0
  | 1 => .blockhashAnswered (k / 4) true 0
  | 2 => .healthImported (k / 4)
  | _ => .slotAnswered (k / 4) (some (gapChain k)) 0

section GapRun

variable {s₀ : RpcManager}

/-- The machine before the action number `k`. -/
def gapState (s₀ : RpcManager) (k : ℕ) : RpcManager :=
  (rpcManager (fun _ => true) s₀).stateAt gapRun k

theorem gapState_succ {k : ℕ} {s' : RpcManager} {es : List Event}
    (hs : (gapState s₀ k).step (fun _ => true) (gapRun k) = some (s', es)) :
    gapState s₀ (k + 1) = s' :=
  Machine.stateAt_succ_of_step hs

theorem gapRun_eq (c : ℕ) :
    gapRun (4 * c) = .checkHealth ⟨"https://a", "a"⟩ 0 ∧
      gapRun (4 * c + 1) = .blockhashAnswered c true 0 ∧
      gapRun (4 * c + 2) = .healthImported c ∧
      gapRun (4 * c + 3) = .slotAnswered c (some (gapChain (4 * c + 3))) 0 := by
  have hmod : ∀ i < 4, (4 * c + i) % 4 = i ∧ (4 * c + i) / 4 = c := by
    intro i hi
    omega
  refine ⟨?_, ?_, ?_, ?_⟩
  · simp only [gapRun, Nat.mul_mod_right]
  · simp only [gapRun, hmod 1 (by omega)]
  · simp only [gapRun, hmod 2 (by omega)]
  · simp only [gapRun, hmod 3 (by omega)]

/-- A round brings a report, and the next round can begin. -/
theorem gapRun_round {c : ℕ} (hnext : (gapState s₀ (4 * c)).nextTask = c) :
    ReportedAt (fun _ => true) s₀ gapRun (4 * c + 3)
        ⟨.healthCheck, "https://a", gapChain (4 * c + 3)⟩ ∧
      (gapState s₀ (4 * c + 3)).slotHistory = (gapState s₀ (4 * c)).slotHistory ∧
      (gapState s₀ (4 * (c + 1))).nextTask = c + 1 := by
  obtain ⟨h0, h1, h2, h3⟩ := gapRun_eq c
  have hs1 : gapState s₀ (4 * c + 1) =
      (gapState s₀ (4 * c)).checkHealth 0 ⟨"https://a", "a"⟩ :=
    gapState_succ (by rw [h0]; rfl)
  have ht1 : (gapState s₀ (4 * c + 1)).tasks.get? c =
      some (.probe ⟨"https://a", "a"⟩ (.blockhash 0) .caller) := by
    rw [hs1]
    simp only [checkHealth, newTask, probe, setTask, hnext, OrderedMap.get?_set_self]
  have hs2 : gapState s₀ (4 * c + 2) =
      { gapState s₀ (4 * c + 1) with
        toEndpointTable := (gapState s₀ (4 * c + 1)).setLatency "https://a" (0 - 0) }.setTask c
          (.probe ⟨"https://a", "a"⟩ (.health (0 - 0)) .caller) :=
    gapState_succ (by
      rw [h1]
      simp only [step, ht1, Option.bind_some, blockhashAnswered, if_true, Option.map_some]
      rfl)
  have ht2 : (gapState s₀ (4 * c + 2)).tasks.get? c =
      some (.probe ⟨"https://a", "a"⟩ (.health (0 - 0)) .caller) := by
    rw [hs2]
    exact OrderedMap.get?_set_self _ _ _
  have hs3 : gapState s₀ (4 * c + 3) =
      (gapState s₀ (4 * c + 2)).setTask c
        (.probe ⟨"https://a", "a"⟩ (.slot (0 - 0)) .caller) :=
    gapState_succ (by
      rw [h2]
      simp only [step, ht2, Option.bind_some, healthImported, Option.map_some]
      rfl)
  have ht3 : (gapState s₀ (4 * c + 3)).tasks.get? c =
      some (.probe ⟨"https://a", "a"⟩ (.slot (0 - 0)) .caller) := by
    rw [hs3]
    exact OrderedMap.get?_set_self _ _ _
  have hs4 : gapState s₀ (4 * c + 4) =
      { gapState s₀ (4 * c + 3) with
        toEndpointTable := (gapState s₀ (4 * c + 3)).withSlot ⟨"https://a", "a"⟩
          (some (gapChain (4 * c + 3))) }.dropTask c :=
    gapState_succ (by
      rw [h3]
      simp only [step, ht3, Option.bind_some, slotAnswered, Option.map_some, finishProbe, withSlot]
      cases (gapState s₀ (4 * c + 3)).recordedSlot (some (gapChain (4 * c + 3))) with
      | none => rfl
      | some slot => rfl)
  refine ⟨?_, ?_, ?_⟩
  · show (gapState s₀ (4 * c + 3)).slotReport (gapRun (4 * c + 3)) = _
    simp only [h3, slotReport, ht3]
  · rw [hs3, hs2, hs1]
    rfl
  · show (gapState s₀ (4 * c + 4)).nextTask = c + 1
    rw [hs4, hs3, hs2, hs1]
    exact congrArg (· + 1) hnext

/-- A report of the later rounds is far above slot 5. -/
theorem gapRun_suspicious {k : ℕ} (hk : 4 ≤ k) (hmax : (gapState s₀ k).getMaxKnownSlot = 5) :
    (gapState s₀ k).suspicious (gapChain k) = true := by
  rw [EndpointTable.suspicious_iff, hmax, gapChain, if_neg (Nat.not_lt_of_le hk)]
  decide

/-- After the first round the kept slot stays 5, and every report is suspected. -/
theorem gapRun_stuck (hfirst : (gapState s₀ 4).nextTask = 1 ∧
    (gapState s₀ 4).getMaxKnownSlot = 5) (c : ℕ) :
    (gapState s₀ (4 * (c + 1))).nextTask = c + 1 ∧
      (gapState s₀ (4 * (c + 1))).getMaxKnownSlot = 5 ∧
      (gapState s₀ (4 * (c + 1) + 3)).getMaxKnownSlot = 5 := by
  have hlater : ∀ c, (gapState s₀ (4 * c)).nextTask = c →
      (gapState s₀ (4 * c + 3)).getMaxKnownSlot = (gapState s₀ (4 * c)).getMaxKnownSlot := by
    intro c hnext
    rw [EndpointTable.getMaxKnownSlot, (gapRun_round hnext).2.1]
    rfl
  induction c with
  | zero => exact ⟨hfirst.1, hfirst.2, (hlater 1 hfirst.1).trans hfirst.2⟩
  | succ c ih =>
    obtain ⟨hnext, -, hmax⟩ := ih
    obtain ⟨hreported, -, hnext'⟩ := gapRun_round hnext
    obtain ⟨s', es, hs⟩ := step_of_report (fun _ => true) hreported
    have hrefused := accepted_eq_false_iff (t := (gapState s₀ (4 * (c + 1) + 3)).toEndpointTable)
      (r := ⟨.healthCheck, "https://a", gapChain (4 * (c + 1) + 3)⟩) |>.mpr
        ⟨rfl, gapRun_suspicious (by omega) hmax⟩
    have hkept := slots_of_report hreported hs
    have hmax' : (gapState s₀ (4 * (c + 1) + 4)).getMaxKnownSlot = 5 := by
      rw [gapState_succ hs, EndpointTable.getMaxKnownSlot, hkept, if_neg (fun haccepted => ?_)]
      · exact hmax
      · cases hrefused.symm.trans haccepted
    exact ⟨hnext', hmax', (hlater (c + 2) hnext').trans hmax'⟩

/-- The kept slot is 5 when the reports of the later rounds come. -/
theorem gapRun_refused (hfirst : (gapState s₀ 4).nextTask = 1 ∧
    (gapState s₀ 4).getMaxKnownSlot = 5) {k : ℕ} {r : SlotReport} (hk : 4 ≤ k)
    (hreported : ReportedAt (fun _ => true) s₀ gapRun k r) :
    r.path = .healthCheck ∧ (gapState s₀ k).suspicious r.slot = true := by
  obtain ⟨c, i, hi, rfl⟩ : ∃ c i, (i = 0 ∨ i = 1 ∨ i = 2 ∨ i = 3) ∧ k = 4 * (c + 1) + i :=
    ⟨k / 4 - 1, k % 4, by omega, by omega⟩
  obtain ⟨hnext, -, hmax⟩ := gapRun_stuck hfirst c
  obtain ⟨h0, h1, h2, -⟩ := gapRun_eq (c + 1)
  -- only the last step of a round brings a report
  rcases hi with rfl | rfl | rfl | rfl
  · rw [ReportedAt, Nat.add_zero, h0] at hreported
    cases hreported
  · rw [ReportedAt, h1] at hreported
    cases hreported
  · rw [ReportedAt, h2] at hreported
    cases hreported
  · obtain rfl := Option.some.inj ((gapRun_round hnext).1.symm.trans hreported)
    exact ⟨rfl, gapRun_suspicious hk hmax⟩

/-- All reports of the run are those of the chain. -/
theorem gapRun_truthful : Truthful (fun _ => true) s₀ gapRun "https://a" := by
  refine ⟨gapChain, fun j k hjk => ?_, fun k r hreported _ => ?_⟩
  · unfold gapChain
    split
    · split
      · exact le_rfl
      · decide
    · rw [if_neg (by omega)]
  · unfold ReportedAt gapRun at hreported
    split at hreported
    · cases hreported
    · cases hreported
    · cases hreported
    · simp only [slotReport] at hreported
      split at hreported
      · obtain rfl := Option.some.inj hreported
        rfl
      · cases hreported

end GapRun

/-- The warm-up records the lie, and after the gap the truth is refused for ever. -/
theorem not_slotsSane :
    (¬ ∀ (accepts : String → Bool) (endpoints : List RpcEndpoint) (s₀ : RpcManager)
      (act : ℕ → Action), construct accepts endpoints = some s₀ →
        RecordedNear accepts s₀ act) ∧
    ¬ ∀ (accepts : String → Bool) (endpoints : List RpcEndpoint) (s₀ : RpcManager)
      (act : ℕ → Action), construct accepts endpoints = some s₀ →
        TruthHeard accepts s₀ act := by
  obtain ⟨s₀, hnew⟩ : ∃ s₀, construct (fun _ => true) threeEndpoints = some s₀ := ⟨_, rfl⟩
  constructor
  · intro hall
    have hrecorded : RecordedAt (fun _ => true) s₀ warmedLie 5 ⟨.warmup, "https://b", 1000000⟩ := by
      unfold RecordedAt ReportedAt
      obtain rfl := Option.some.inj hnew
      decide +kernel
    have hknown : (tableAt (fun _ => true) s₀ warmedLie 5).slotHistory.get? "https://a" = some 5 ∧
        (tableAt (fun _ => true) s₀ warmedLie 5).getMaxKnownSlot = 5 := by
      obtain rfl := Option.some.inj hnew
      decide +kernel
    obtain ⟨url, known, -, hkept, hnear⟩ :=
      hall _ _ s₀ warmedLie hnew 5 _ hrecorded ⟨"https://a", 5, by decide, hknown.1⟩
    have hle := EndpointTable.le_getMaxKnownSlot hkept
    rw [hknown.2] at hle
    have hfar : 1000000 ≤ known + 1000 := hnear
    omega
  · intro hall
    have hfirst : (gapState s₀ 4).nextTask = 1 ∧ (gapState s₀ 4).getMaxKnownSlot = 5 := by
      obtain rfl := Option.some.inj hnew
      decide +kernel
    have hreports : KeepsReporting (fun _ => true) s₀ gapRun "https://a" := by
      refine Filter.frequently_atTop.mpr fun start => ?_
      have hnext := (gapRun_stuck hfirst start).1
      exact ⟨4 * (start + 1) + 3, by omega, _, (gapRun_round hnext).1, rfl⟩
    have hheard := hall _ _ s₀ gapRun hnew "https://a" gapRun_truthful hreports
    obtain ⟨k, hk, r, hrecorded, -⟩ := Filter.frequently_atTop.mp hheard 4
    obtain ⟨hreported, haccepted⟩ := recordedAt_iff.mp hrecorded
    cases haccepted.symm.trans (accepted_eq_false_iff.mpr (gapRun_refused hfirst hk hreported))

end RpcManager

end FlashEdge
