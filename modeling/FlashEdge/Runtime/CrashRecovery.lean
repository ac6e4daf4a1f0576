import FlashEdge.Runtime.RecoveryEngine

/-!
# Trades that are interrupted

"If the process crashes mid-transaction, the recovery engine reads this journal on
next startup to verify whether the trade landed": a trade that was broadcast and
did not get to its end is meant to have an entry with its signature, and recovery
is not to count as failed what has landed. The signature is recorded only when the
client's call has returned, which is after the confirmation. A crash before that
leaves an entry without a signature, which recovery removes as never broadcast,
and a call that throws after its broadcast, a confirmation timeout for one, removes
the entry itself.

- `FatesKnown`: what is meant to hold.
- `SignatureKept`: the condition on a step: no crash and no error between a
  broadcast and the return of the call, writes that succeed, and a recovery that
  comes in time.
- `TradeInv`: the life of one trade, in a `View` of what the process, the journal
  and the past say about it.
- `fatesKnown_of_signatureKept`: under the condition every fate is known.
-/

namespace FlashEdge

namespace Recovery

/-! ## What is meant to hold -/

def broadcastOf (id : ℕ) : RecoveryEvent → Option String
  | .broadcast id' signature => if id' = id then some signature else none
  | _ => none

def verdictOf (id : ℕ) : RecoveryEvent → Option Verdict
  | .verified id' verdict => if id' = id then some verdict else none
  | _ => none

/-- The signatures that were broadcast for a trade. -/
def broadcastsOf (h : List RecoveryEvent) (id : ℕ) : List String := h.filterMap (broadcastOf id)

/-- What recovery has found about a trade. -/
def verdictsOf (h : List RecoveryEvent) (id : ℕ) : List Verdict := h.filterMap (verdictOf id)

/-- An interrupted trade has an entry with its signature in the file, one that
recovery looks at; and what recovery has counted as failed has not landed. -/
structure FatesKnown (s : RecoveryState) (h : List RecoveryEvent) : Prop where
  held : ∀ id sig, s.interrupted id = some sig →
    ∃ e, s.journal.file.get? id = some e ∧ e.signature = some sig ∧ e.status = .sent
  decided : ∀ id, ∀ verdict ∈ verdictsOf h id, verdict.failed = true →
    ∀ sig ∈ broadcastsOf h id, sig ∉ s.landed

/-- The condition on a step. The file can be written and read, and the journal is
not full; a call that throws or is cut off by a crash has broadcast nothing; an
interrupted trade is looked at within a day; and a transaction that has landed is
found when it is older than five minutes, and does not land after it was given
up. -/
def SignatureKept (s : RecoveryState) (h : List RecoveryEvent) : RecoveryStep → Prop
  | .execute _ _ _ flushed _ =>
    flushed = .written ∧ s.journal.entries.size < TradeJournal.MAX_ENTRIES
  | .returned _ _ flushed _ => flushed = .written
  | .threw id flushed => flushed = .written ∧ s.tasks id = some (.calling [])
  | .recordConfirmed _ flushed _ => flushed = .written
  | .remove _ flushed => flushed = .written
  | .crash => ∀ id broadcasts, s.tasks id = some (.calling broadcasts) → broadcasts = []
  | .start readable _ flushed now =>
    readable = true ∧ flushed = .written ∧
      ∀ id sig e, s.interrupted id = some sig → s.journal.file.get? id = some e →
        now - STALE_ENTRY_AGE_MS < e.updatedAt
  | .verify status flushed now =>
    flushed = .written ∧
      ∀ id pending entry sig, s.phase = .recovering (id :: pending) →
        s.journal.entries.get? id = some entry → entry.signature = some sig →
          verifyEntry entry status now = .notFoundOnChain → sig ∉ s.landed
  | .land sig =>
    ∀ id, sig ∈ broadcastsOf h id → ∀ verdict ∈ verdictsOf h id, verdict.failed = false
  | _ => True

/-! ## One trade -/

/-- What the process, the journal and the past say about one trade. -/
@[ext] structure View where
  task : Option TradeTask := none
  entry : Option JournalEntry := none
  interrupted : Option String := none
  broadcasts : List String := []
  verdicts : List Verdict := []

def view (s : RecoveryState) (h : List RecoveryEvent) (id : ℕ) : View where
  task := s.tasks id
  entry := s.journal.file.get? id
  interrupted := s.interrupted id
  broadcasts := broadcastsOf h id
  verdicts := verdictsOf h id

/-- The life of a trade: an entry without a signature as long as the client is
called, one with a signature that has landed from then on. -/
structure TradeInv (landed : List String) (v : View) : Prop where
  held : ∀ sig, v.interrupted = some sig →
    ∃ e, v.entry = some e ∧ e.signature = some sig ∧ e.status = .sent
  decided : ∀ verdict ∈ v.verdicts, verdict.failed = true → ∀ sig ∈ v.broadcasts, sig ∉ landed
  calling : ∀ broadcasts, v.task = some (.calling broadcasts) →
    (∃ e, v.entry = some e ∧ e.signature = none) ∧ v.broadcasts = broadcasts
  sent : ∀ sig, v.task = some (.sent sig) →
    ∃ e, v.entry = some e ∧ e.signature = some sig ∧ e.status = .sent
  unsent : ∀ e, v.entry = some e → e.signature = none →
    (∃ broadcasts, v.task = some (.calling broadcasts)) ∨ v.broadcasts = []
  landed : ∀ e sig, v.entry = some e → e.signature = some sig → sig ∈ landed
  active : v.task ≠ none → v.interrupted = none ∧ v.verdicts = []
  valid : ∀ e, v.entry = some e → TradeJournal.isValid e = true

/-- The invariant: every trade is in order, those to come are new, and the file
has what the memory has. -/
structure RecoveryInv (s : RecoveryState) (h : List RecoveryEvent) : Prop where
  trades : ∀ id, TradeInv s.landed (view s h id)
  fresh : ∀ id, s.nextId ≤ id → view s h id = {}
  synced : s.phase ≠ .down → s.journal.Synced
  idle : s.phase ≠ .running → ∀ id, s.tasks id = none
  small : s.journal.file.size ≤ TradeJournal.MAX_ENTRIES

theorem RecoveryInv.fatesKnown {s : RecoveryState} {h : List RecoveryEvent}
    (hI : RecoveryInv s h) : FatesKnown s h where
  held id := (hI.trades id).held
  decided id := (hI.trades id).decided

/-- A trade that has not begun. -/
theorem tradeInv_new (landed : List String) : TradeInv landed {} where
  held sig hsig := by cases hsig
  decided verdict hv := by cases hv
  calling broadcasts ht := by cases ht
  sent sig ht := by cases ht
  unsent e he := by cases he
  landed e sig he := by cases he
  active ht := absurd rfl ht
  valid e he := by cases he

theorem recoveryInv_init : RecoveryInv journaledTrades.init [] where
  trades _ := tradeInv_new []
  fresh _ _ := rfl
  synced _ := rfl
  idle hphase := absurd rfl hphase
  small := Nat.zero_le _

section Views

variable {landed : List String} {v : View}

/-- The call of the client begins. -/
theorem tradeInv_execute {e : JournalEntry} (hsig : e.signature = none)
    (hvalid : TradeJournal.isValid e = true) :
    TradeInv landed { task := some (.calling []), entry := some e } where
  held sig hsig := by cases hsig
  decided verdict hv := by cases hv
  calling broadcasts ht := by
    cases ht
    exact ⟨⟨e, rfl, hsig⟩, rfl⟩
  sent sig ht := by cases ht
  unsent e' he hnone := .inl ⟨[], rfl⟩
  landed e' sig he hsome := by
    cases he
    rw [hsig] at hsome
    cases hsome
  active _ := ⟨rfl, rfl⟩
  valid e' he := by
    cases he
    exact hvalid

/-- The client broadcasts. -/
theorem TradeInv.broadcast (hv : TradeInv landed v) {broadcasts : List String} (sig : String)
    (ht : v.task = some (.calling broadcasts)) :
    TradeInv landed { v with
      task := some (.calling (broadcasts ++ [sig])), broadcasts := v.broadcasts ++ [sig] } where
  held := hv.held
  decided verdict hverdict := by
    rw [show View.verdicts _ = v.verdicts from rfl,
      (hv.active (by rw [ht]; exact Option.some_ne_none _)).2] at hverdict
    cases hverdict
  calling broadcasts' ht' := by
    cases ht'
    obtain ⟨hentry, hsame⟩ := hv.calling broadcasts ht
    exact ⟨hentry, congrArg (· ++ [sig]) hsame⟩
  sent sig' ht' := by cases ht'
  unsent e he hnone := .inl ⟨_, rfl⟩
  landed := hv.landed
  active _ := hv.active (by rw [ht]; exact Option.some_ne_none _)
  valid := hv.valid

/-- The client returns a signature that has landed, and it is recorded. -/
theorem TradeInv.returned (hv : TradeInv landed v) {broadcasts : List String} {sig : String}
    {now : ℚ} (ht : v.task = some (.calling broadcasts)) (hlanded : sig ∈ landed)
    (hnow : 0 < now) :
    TradeInv landed { v with
      task := some (.sent sig)
      entry := v.entry.map fun e =>
        { e with signature := some sig, status := .sent, updatedAt := now } } where
  held sig' hsig := by
    rw [show View.interrupted _ = v.interrupted from rfl,
      (hv.active (by rw [ht]; exact Option.some_ne_none _)).1] at hsig
    cases hsig
  decided := hv.decided
  calling broadcasts' ht' := by cases ht'
  sent sig' ht' := by
    cases ht'
    obtain ⟨⟨e, he, -⟩, -⟩ := hv.calling broadcasts ht
    refine ⟨{ e with signature := some sig, status := .sent, updatedAt := now }, ?_, rfl, rfl⟩
    show v.entry.map _ = _
    rw [he]
    rfl
  unsent e' he' hnone := by
    obtain ⟨e, -, rfl⟩ := Option.map_eq_some_iff.mp he'
    cases hnone
  landed e' sig' he' hsome := by
    obtain ⟨e, -, rfl⟩ := Option.map_eq_some_iff.mp he'
    cases hsome
    exact hlanded
  active _ := hv.active (by rw [ht]; exact Option.some_ne_none _)
  valid e' he' := by
    obtain ⟨e, he, rfl⟩ := Option.map_eq_some_iff.mp he'
    have hvalid := hv.valid e he
    unfold TradeJournal.isValid at hvalid ⊢
    rw [decide_eq_true_eq] at hvalid ⊢
    exact ⟨hvalid.1, hvalid.2.1, hnow⟩

/-- The confirmation is recorded. -/
theorem TradeInv.recordConfirmed (hv : TradeInv landed v) {sig : String} {now : ℚ}
    (ht : v.task = some (.sent sig)) (hnow : 0 < now) :
    TradeInv landed { v with
      task := some (.confirmed sig)
      entry := v.entry.map fun e => { e with status := .confirmed, updatedAt := now } } where
  held sig' hsig := by
    rw [show View.interrupted _ = v.interrupted from rfl,
      (hv.active (by rw [ht]; exact Option.some_ne_none _)).1] at hsig
    cases hsig
  decided := hv.decided
  calling broadcasts' ht' := by cases ht'
  sent sig' ht' := by cases ht'
  unsent e' he' hnone := by
    obtain ⟨e, he, rfl⟩ := Option.map_eq_some_iff.mp he'
    obtain ⟨e₀, he₀, hsome, -⟩ := hv.sent sig ht
    rw [he] at he₀
    cases he₀
    exact absurd (hsome.symm.trans hnone) (Option.some_ne_none sig)
  landed e' sig' he' hsome := by
    obtain ⟨e, he, rfl⟩ := Option.map_eq_some_iff.mp he'
    exact hv.landed e sig' he hsome
  active _ := hv.active (by rw [ht]; exact Option.some_ne_none _)
  valid e' he' := by
    obtain ⟨e, he, rfl⟩ := Option.map_eq_some_iff.mp he'
    have hvalid := hv.valid e he
    unfold TradeJournal.isValid at hvalid ⊢
    rw [decide_eq_true_eq] at hvalid ⊢
    exact ⟨hvalid.1, hvalid.2.1, hnow⟩

/-- The entry is removed, and the trade is over, with the verdicts `verdicts`. -/
theorem TradeInv.removed (hv : TradeInv landed v) (verdicts : List Verdict)
    (hverdicts : ∀ verdict ∈ verdicts, verdict.failed = true → ∀ sig ∈ v.broadcasts,
      sig ∉ landed) :
    TradeInv landed { broadcasts := v.broadcasts, verdicts := v.verdicts ++ verdicts } where
  held sig hsig := by cases hsig
  decided verdict hmem := by
    rcases List.mem_append.mp hmem with hmem | hmem
    · exact hv.decided verdict hmem
    · exact hverdicts verdict hmem
  calling broadcasts ht := by cases ht
  sent sig ht := by cases ht
  unsent e he := by cases he
  landed e sig he := by cases he
  active ht := absurd rfl ht
  valid e he := by cases he

/-- The process crashes while the client has broadcast nothing. -/
theorem TradeInv.crashed (hv : TradeInv landed v)
    (hnone : ∀ broadcasts, v.task = some (.calling broadcasts) → broadcasts = []) :
    TradeInv landed { v with
      task := none
      interrupted := v.task.elim v.interrupted TradeTask.lastBroadcast } where
  held sig hsig := by
    cases htask : v.task with
    | none =>
      rw [show View.interrupted _ = _ from rfl, htask] at hsig
      exact hv.held sig hsig
    | some task =>
      rw [show View.interrupted _ = _ from rfl, htask] at hsig
      cases task with
      | calling broadcasts =>
        rw [hnone broadcasts htask] at hsig
        cases hsig
      | sent sig' =>
        cases hsig
        exact hv.sent sig htask
      | confirmed sig' => cases hsig
  decided := hv.decided
  calling broadcasts ht := by cases ht
  sent sig ht := by cases ht
  unsent e he hsig := by
    rcases hv.unsent e he hsig with ⟨broadcasts, ht⟩ | hempty
    · refine .inr ?_
      rw [← hnone broadcasts ht]
      exact (hv.calling broadcasts ht).2
    · exact .inr hempty
  landed := hv.landed
  active ht := absurd rfl ht
  valid := hv.valid

/-- Entries that are too old are pruned when the process starts, but none of an
interrupted trade. -/
theorem TradeInv.pruned (hv : TradeInv landed v) (hidle : v.task = none)
    {keep : JournalEntry → Prop} [DecidablePred keep]
    (hkeep : ∀ sig e, v.interrupted = some sig → v.entry = some e → keep e) :
    TradeInv landed { v with entry := v.entry.filter fun e => keep e } where
  held sig hsig := by
    obtain ⟨e, he, hrest⟩ := hv.held sig hsig
    refine ⟨e, ?_, hrest⟩
    show v.entry.filter _ = _
    rw [he, Option.filter_some, if_pos (decide_eq_true (hkeep sig e hsig he))]
  decided := hv.decided
  calling broadcasts ht := by
    rw [show View.task _ = v.task from rfl, hidle] at ht
    cases ht
  sent sig ht := by
    rw [show View.task _ = v.task from rfl, hidle] at ht
    cases ht
  unsent e he hsig := hv.unsent e (Option.filter_eq_some_iff.mp he).1 hsig
  landed e sig he hsig := hv.landed e sig (Option.filter_eq_some_iff.mp he).1 hsig
  active ht := absurd hidle ht
  valid e he := hv.valid e (Option.filter_eq_some_iff.mp he).1

/-- A verdict that is no failure changes nothing. -/
theorem TradeInv.verdict (hv : TradeInv landed v) (hidle : v.task = none) {verdict : Verdict}
    (hverdict : verdict.failed = false) :
    TradeInv landed { v with verdicts := v.verdicts ++ [verdict] } where
  held := hv.held
  decided verdict' hmem hfailed := by
    rcases List.mem_append.mp hmem with hmem | hmem
    · exact hv.decided verdict' hmem hfailed
    · rw [List.mem_singleton.mp hmem, hverdict] at hfailed
      cases hfailed
  calling := hv.calling
  sent := hv.sent
  unsent := hv.unsent
  landed := hv.landed
  active ht := absurd hidle ht
  valid := hv.valid

/-- One more transaction lands, of a trade that was not counted as failed. -/
theorem TradeInv.land (hv : TradeInv landed v) {sig : String}
    (hopen : sig ∈ v.broadcasts → ∀ verdict ∈ v.verdicts, verdict.failed = false) :
    TradeInv (landed ++ [sig]) v where
  held := hv.held
  decided verdict hmem hfailed sig' hsig' hlanded := by
    rcases List.mem_append.mp hlanded with hlanded | hlanded
    · exact hv.decided verdict hmem hfailed sig' hsig' hlanded
    · rw [List.mem_singleton.mp hlanded] at hsig'
      rw [hopen hsig' verdict hmem] at hfailed
      cases hfailed
  calling := hv.calling
  sent := hv.sent
  unsent := hv.unsent
  landed e sig' he hsome := List.mem_append_left _ (hv.landed e sig' he hsome)
  active := hv.active
  valid := hv.valid

end Views

/-! ## One step -/

section Steps

variable {s s' : RecoveryState} {h h' : List RecoveryEvent} {id₀ : ℕ}

theorem view_append_of_not {s s' : RecoveryState} {h es : List RecoveryEvent} {id : ℕ}
    (htask : s'.tasks id = s.tasks id) (hentry : s'.journal.file.get? id = s.journal.file.get? id)
    (hinterrupted : s'.interrupted id = s.interrupted id) (hbroadcasts : broadcastsOf es id = [])
    (hverdicts : verdictsOf es id = []) : view s' (h ++ es) id = view s h id := by
  have hb : broadcastsOf (h ++ es) id = broadcastsOf h id ++ broadcastsOf es id :=
    List.filterMap_append
  have hv : verdictsOf (h ++ es) id = verdictsOf h id ++ verdictsOf es id :=
    List.filterMap_append
  unfold view
  rw [htask, hentry, hinterrupted, hb, hv, hbroadcasts, hverdicts, List.append_nil, List.append_nil]

/-- A trade with a task, or with an entry, has begun. -/
theorem RecoveryInv.begun (hI : RecoveryInv s h) (hview : view s h id₀ ≠ {}) : id₀ < s.nextId :=
  not_le.mp fun hle => hview (hI.fresh id₀ hle)

/-- A step that concerns one trade keeps the invariant, when it keeps that trade in
order. -/
theorem RecoveryInv.updated (hI : RecoveryInv s h) (id₀ : ℕ) (hlanded : s'.landed = s.landed)
    (hnext : s.nextId ≤ s'.nextId) (hbegun : id₀ < s'.nextId)
    (hself : TradeInv s.landed (view s' h' id₀))
    (hothers : ∀ id, id ≠ id₀ → view s' h' id = view s h id)
    (hsynced : s'.phase ≠ .down → s'.journal.Synced)
    (hidle : s'.phase ≠ .running → ∀ id, s'.tasks id = none)
    (hsmall : s'.journal.file.size ≤ TradeJournal.MAX_ENTRIES) : RecoveryInv s' h' where
  trades id := by
    rw [hlanded]
    by_cases hid : id = id₀
    · rw [hid]
      exact hself
    · rw [hothers id hid]
      exact hI.trades id
  fresh id hle := by
    have hid : id ≠ id₀ := fun heq => absurd hbegun (not_lt.mpr (heq ▸ hle))
    rw [hothers id hid]
    exact hI.fresh id (hnext.trans hle)
  synced := hsynced
  idle := hidle
  small := hsmall

/-- As long as a client is called the process runs. -/
theorem RecoveryInv.running (hI : RecoveryInv s h) {task : TradeTask}
    (ht : s.tasks id₀ = some task) : s.phase = .running := by
  by_contra hphase
  rw [hI.idle hphase id₀] at ht
  cases ht

theorem RecoveryInv.begun_of_task (hI : RecoveryInv s h) {task : TradeTask}
    (ht : s.tasks id₀ = some task) : id₀ < s.nextId := by
  refine hI.begun fun hview => ?_
  have hnone : s.tasks id₀ = none := congrArg View.task hview
  rw [ht] at hnone
  cases hnone

/-- What a task writes to the journal under its id. -/
theorem RecoveryInv.wrote (hI : RecoveryInv s h) {task : TradeTask} {journal : TradeJournal}
    {entry : Option JournalEntry} {t : Option TradeTask} {interrupted : ℕ → Option String} {now : ℚ}
    (ht : s.tasks id₀ = some task) (hj : TradeJournal.Wrote s.journal journal id₀ entry)
    (hthere : s.journal.file.get? id₀ ≠ none ∨ entry = none)
    (hinterrupted : ∀ id, id ≠ id₀ → interrupted id = s.interrupted id)
    (hself : TradeInv s.landed {
      task := t
      entry
      interrupted := interrupted id₀
      broadcasts := broadcastsOf h id₀
      verdicts := verdictsOf h id₀ }) :
    RecoveryInv { s with
      clock := now, journal, tasks := Function.update s.tasks id₀ t, interrupted } h := by
  refine hI.updated id₀ rfl le_rfl (hI.begun_of_task ht) ?_ (fun id hid => ?_)
    (fun _ => hj.synced) (fun hphase => absurd (hI.running ht) hphase)
    ((hj.size_le hthere).trans hI.small)
  · show TradeInv s.landed
      ⟨Function.update s.tasks id₀ t id₀, journal.file.get? id₀, _, _, _⟩
    rw [Function.update_self, hj.self]
    exact hself
  · show View.mk (Function.update s.tasks id₀ t id) (journal.file.get? id) (interrupted id) _ _ = _
    rw [Function.update_of_ne hid, hj.others id hid, hinterrupted id hid]
    rfl

theorem step_broadcast {sig : String} {es : List RecoveryEvent}
    (hs : s.step (.broadcast id₀ sig) = some (s', es)) :
    ∃ broadcasts, s.tasks id₀ = some (.calling broadcasts) ∧ s' = { s with
      tasks := Function.update s.tasks id₀ (some (.calling (broadcasts ++ [sig])))
      broadcasts := s.broadcasts ++ [sig] } ∧ es = [.broadcast id₀ sig] := by
  simp only [RecoveryState.step] at hs
  cases ht : s.tasks id₀ with
  | none =>
    rw [ht] at hs
    cases hs
  | some task =>
    rw [ht] at hs
    cases task with
    | calling broadcasts =>
      dsimp only at hs
      split at hs
      · cases hs
      · obtain ⟨rfl, rfl⟩ := Machine.some_pair hs
        exact ⟨broadcasts, rfl, rfl, rfl⟩
    | sent sig' => cases hs
    | confirmed sig' => cases hs

theorem RecoveryInv.execute (hI : RecoveryInv s h) {market : String} {side : TradeSide}
    {action : JournalAction} {flushed : Flush} {now : ℚ} {es : List RecoveryEvent}
    (hkept : SignatureKept s h (.execute market side action flushed now))
    (hs : s.step (.execute market side action flushed now) = some (s', es)) :
    RecoveryInv s' (h ++ es) := by
  obtain ⟨rfl, hroom⟩ := hkept
  simp only [RecoveryState.step] at hs
  split at hs
  · cases hs
  · next hguard =>
    simp only [not_or, not_not, not_lt, not_le] at hguard
    obtain ⟨hrunning, hmarket, -, hnow⟩ := hguard
    obtain ⟨rfl, rfl⟩ := Machine.some_pair hs
    have hphase : s.phase ≠ .down := by
      rw [hrunning]
      exact Phase.noConfusion
    obtain ⟨hj, hsmall⟩ := TradeJournal.recordPending_written (hI.synced hphase) s.nextId
      hroom market side action now
    -- nothing is known about the next id yet
    have hnew : view s h s.nextId = {} := hI.fresh s.nextId le_rfl
    have hinterrupted : s.interrupted s.nextId = none := congrArg View.interrupted hnew
    have hbroadcasts : broadcastsOf h s.nextId = [] := congrArg View.broadcasts hnew
    have hverdicts : verdictsOf h s.nextId = [] := congrArg View.verdicts hnew
    rw [List.append_nil]
    refine hI.updated s.nextId rfl (Nat.le_succ _) (Nat.lt_succ_self _) ?_
      (fun id hid => ?_) (fun _ => hj.synced) (fun hphase => absurd hrunning hphase) hsmall
    · show TradeInv s.landed
        ⟨Function.update s.tasks s.nextId _ s.nextId, TradeJournal.file _ |>.get? s.nextId,
          s.interrupted s.nextId, broadcastsOf h s.nextId, verdictsOf h s.nextId⟩
      rw [Function.update_self, hj.self, hinterrupted, hbroadcasts, hverdicts]
      refine tradeInv_execute rfl ?_
      exact decide_eq_true ⟨hmarket, hnow, hnow⟩
    · show View.mk (Function.update s.tasks s.nextId _ id) (OrderedMap.get? _ id) _ _ _ = _
      rw [Function.update_of_ne hid, hj.others id hid]
      rfl

theorem RecoveryInv.broadcast (hI : RecoveryInv s h) {sig : String} {es : List RecoveryEvent}
    (hs : s.step (.broadcast id₀ sig) = some (s', es)) : RecoveryInv s' (h ++ es) := by
  obtain ⟨broadcasts, ht, rfl, rfl⟩ := step_broadcast hs
  have hself : broadcastOf id₀ (.broadcast id₀ sig) = some sig := if_pos rfl
  refine hI.updated id₀ rfl le_rfl (hI.begun_of_task ht) ?_ (fun id hid => ?_)
    hI.synced (fun hphase => absurd (hI.running ht) hphase) hI.small
  · have hview := (hI.trades id₀).broadcast sig ht
    have hb : broadcastsOf (h ++ [RecoveryEvent.broadcast id₀ sig]) id₀ =
        broadcastsOf h id₀ ++ [sig] := by
      unfold broadcastsOf
      rw [List.filterMap_append, List.filterMap_cons_some hself, List.filterMap_nil]
    have hv : verdictsOf (h ++ [RecoveryEvent.broadcast id₀ sig]) id₀ = verdictsOf h id₀ :=
      List.filterMap_append.trans (List.append_nil _)
    show TradeInv s.landed ⟨Function.update s.tasks id₀ _ id₀, _, _,
      broadcastsOf (h ++ [RecoveryEvent.broadcast id₀ sig]) id₀,
      verdictsOf (h ++ [RecoveryEvent.broadcast id₀ sig]) id₀⟩
    rw [Function.update_self, hb, hv]
    exact hview
  · have hother : broadcastOf id (.broadcast id₀ sig) = none := if_neg (Ne.symm hid)
    refine view_append_of_not (Function.update_of_ne hid _ _) rfl rfl ?_ rfl
    exact List.filterMap_cons_none hother

theorem RecoveryInv.land (hI : RecoveryInv s h) {sig : String} {es : List RecoveryEvent}
    (hkept : SignatureKept s h (.land sig))
    (hs : s.step (.land sig) = some (s', es)) : RecoveryInv s' (h ++ es) := by
  simp only [RecoveryState.step] at hs
  split at hs
  · obtain ⟨rfl, rfl⟩ := Machine.some_pair hs
    rw [List.append_nil]
    exact
      { trades := fun id => (hI.trades id).land (hkept id)
        fresh := hI.fresh
        synced := hI.synced
        idle := hI.idle
        small := hI.small }
  · cases hs

theorem RecoveryInv.returned (hI : RecoveryInv s h) {sig : String} {flushed : Flush} {now : ℚ}
    {es : List RecoveryEvent} (hkept : SignatureKept s h (.returned id₀ sig flushed now))
    (hs : s.step (.returned id₀ sig flushed now) = some (s', es)) :
    RecoveryInv s' (h ++ es) := by
  obtain rfl : flushed = .written := hkept
  simp only [RecoveryState.step] at hs
  cases ht : s.tasks id₀ with
  | none =>
    rw [ht] at hs
    cases hs
  | some task =>
    rw [ht] at hs
    cases task with
    | calling broadcasts =>
      dsimp only at hs
      split at hs
      · next hguard =>
        obtain ⟨-, hlanded, -, hnow⟩ := hguard
        obtain ⟨rfl, rfl⟩ := Machine.some_pair hs
        rw [List.append_nil]
        have hphase : s.phase ≠ .down := by
          rw [hI.running ht]
          exact Phase.noConfusion
        obtain ⟨⟨e, he, -⟩, -⟩ := (hI.trades id₀).calling broadcasts ht
        refine hI.wrote ht (TradeJournal.update_written (hI.synced hphase) id₀ _) (.inl ?_)
          (fun _ _ => rfl) ((hI.trades id₀).returned ht hlanded hnow)
        rw [show s.journal.file.get? id₀ = some e from he]
        exact Option.some_ne_none e
      · cases hs
    | sent sig' => cases hs
    | confirmed sig' => cases hs

theorem RecoveryInv.threw (hI : RecoveryInv s h) {flushed : Flush} {es : List RecoveryEvent}
    (hkept : SignatureKept s h (.threw id₀ flushed))
    (hs : s.step (.threw id₀ flushed) = some (s', es)) : RecoveryInv s' (h ++ es) := by
  obtain ⟨rfl, ht⟩ := hkept
  simp only [RecoveryState.step, ht] at hs
  obtain ⟨rfl, rfl⟩ := Machine.some_pair hs
  rw [List.append_nil]
  have hphase : s.phase ≠ .down := by
    rw [hI.running ht]
    exact Phase.noConfusion
  refine hI.wrote ht (TradeJournal.remove_written (hI.synced hphase) id₀) (.inr rfl)
    (fun id hid => Function.update_of_ne hid _ _) ?_
  -- nothing was broadcast, so nothing is interrupted
  rw [Function.update_self]
  have hremoved := (hI.trades id₀).removed [] fun verdict hmem => by cases hmem
  rw [List.append_nil] at hremoved
  exact hremoved

theorem RecoveryInv.recordConfirmed (hI : RecoveryInv s h) {flushed : Flush} {now : ℚ}
    {es : List RecoveryEvent} (hkept : SignatureKept s h (.recordConfirmed id₀ flushed now))
    (hs : s.step (.recordConfirmed id₀ flushed now) = some (s', es)) :
    RecoveryInv s' (h ++ es) := by
  obtain rfl : flushed = .written := hkept
  simp only [RecoveryState.step] at hs
  cases ht : s.tasks id₀ with
  | none =>
    rw [ht] at hs
    cases hs
  | some task =>
    rw [ht] at hs
    cases task with
    | calling broadcasts => cases hs
    | confirmed sig' => cases hs
    | sent sig =>
      dsimp only at hs
      split at hs
      · cases hs
      · next hguard =>
        simp only [not_or, not_lt, not_le] at hguard
        obtain ⟨rfl, rfl⟩ := Machine.some_pair hs
        rw [List.append_nil]
        have hphase : s.phase ≠ .down := by
          rw [hI.running ht]
          exact Phase.noConfusion
        obtain ⟨e, he, -⟩ := (hI.trades id₀).sent sig ht
        refine hI.wrote ht (TradeJournal.update_written (hI.synced hphase) id₀ _) (.inl ?_)
          (fun _ _ => rfl) ((hI.trades id₀).recordConfirmed ht hguard.2)
        rw [show s.journal.file.get? id₀ = some e from he]
        exact Option.some_ne_none e

theorem RecoveryInv.remove (hI : RecoveryInv s h) {flushed : Flush} {es : List RecoveryEvent}
    (hkept : SignatureKept s h (.remove id₀ flushed))
    (hs : s.step (.remove id₀ flushed) = some (s', es)) : RecoveryInv s' (h ++ es) := by
  obtain rfl : flushed = .written := hkept
  simp only [RecoveryState.step] at hs
  cases ht : s.tasks id₀ with
  | none =>
    rw [ht] at hs
    cases hs
  | some task =>
    rw [ht] at hs
    cases task with
    | calling broadcasts => cases hs
    | sent sig => cases hs
    | confirmed sig =>
      obtain ⟨rfl, rfl⟩ := Machine.some_pair hs
      rw [List.append_nil]
      have hphase : s.phase ≠ .down := by
        rw [hI.running ht]
        exact Phase.noConfusion
      refine hI.wrote ht (TradeJournal.remove_written (hI.synced hphase) id₀) (.inr rfl)
        (fun _ _ => rfl) ?_
      have hactive : s.interrupted id₀ = none :=
        ((hI.trades id₀).active (by
          rw [show View.task _ = _ from ht]
          exact Option.some_ne_none _)).1
      rw [hactive]
      have hremoved := (hI.trades id₀).removed [] fun verdict hmem => by cases hmem
      rw [List.append_nil] at hremoved
      exact hremoved

theorem RecoveryInv.crash (hI : RecoveryInv s h) {es : List RecoveryEvent}
    (hkept : SignatureKept s h .crash) (hs : s.step .crash = some (s', es)) :
    RecoveryInv s' (h ++ es) := by
  simp only [RecoveryState.step] at hs
  split at hs
  · cases hs
  · obtain ⟨rfl, rfl⟩ := Machine.some_pair hs
    rw [List.append_nil]
    exact
      { trades := fun id => (hI.trades id).crashed (hkept id)
        fresh := fun id hle => by
          have hnew := hI.fresh id hle
          have htask : s.tasks id = none := congrArg View.task hnew
          show View.mk none _ ((s.tasks id).elim (s.interrupted id) _) _ _ = _
          rw [← hnew, htask]
          exact congrArg (View.mk · _ _ _ _) htask.symm
        synced := fun hphase => absurd rfl hphase
        idle := fun _ _ => rfl
        small := hI.small }

theorem RecoveryInv.start (hI : RecoveryInv s h) {readable connected : Bool} {flushed : Flush}
    {now : ℚ} {es : List RecoveryEvent}
    (hkept : SignatureKept s h (.start readable connected flushed now))
    (hs : s.step (.start readable connected flushed now) = some (s', es)) :
    RecoveryInv s' (h ++ es) := by
  obtain ⟨rfl, rfl, hfresh⟩ := hkept
  simp only [RecoveryState.step] at hs
  split at hs
  · cases hs
  · next hguard =>
    simp only [not_or, not_not] at hguard
    have hnone : ∀ id, s.tasks id = none := by
      refine hI.idle ?_
      rw [hguard.1]
      exact Phase.noConfusion
    have hload := TradeJournal.load_readable (j := s.journal) (fun id => (hI.trades id).valid)
      hI.small .written
    have hsynced : (⟨s.journal.file, s.journal.file⟩ : TradeJournal).Synced := rfl
    obtain ⟨hafter, hpruned⟩ := TradeJournal.pruneStale_written hsynced STALE_ENTRY_AGE_MS now
    have hsmall := TradeJournal.pruneStale_size_le hsynced STALE_ENTRY_AGE_MS now
    rw [hload] at hs
    generalize TradeJournal.pruneStale _ _ now .written = journal at hs hafter hpruned hsmall
    obtain ⟨rfl, rfl⟩ := Machine.some_pair hs
    rw [List.append_nil]
    refine
      { trades := fun id => ?_
        fresh := fun id hle => ?_
        synced := fun _ => hafter
        idle := fun _ => hnone
        small := hsmall.trans hI.small }
    · show TradeInv s.landed ⟨s.tasks id, journal.file.get? id, _, _, _⟩
      rw [hpruned id]
      exact (hI.trades id).pruned (hnone id) (hfresh id)
    · have hnew := hI.fresh id hle
      have hentry : s.journal.file.get? id = none := congrArg View.entry hnew
      show View.mk (s.tasks id) (journal.file.get? id) _ _ _ = _
      rw [hpruned id, ← hnew, hentry]
      exact congrArg (View.mk _ · _ _ _) hentry.symm

/-- The phase alone changes. -/
theorem RecoveryInv.rephased (hI : RecoveryInv s h) {pending : List ℕ}
    (hphase : s.phase = .recovering pending) (phase : Phase) (clock : ℚ) :
    RecoveryInv { s with phase, clock } h where
  trades := hI.trades
  fresh := hI.fresh
  synced _ := by
    refine hI.synced ?_
    rw [hphase]
    exact Phase.noConfusion
  idle _ := by
    refine hI.idle ?_
    rw [hphase]
    exact Phase.noConfusion
  small := hI.small

/-- What a verdict that is a failure rests on. -/
theorem not_landed_of_failed (hI : RecoveryInv s h) {entry : JournalEntry}
    (he : s.journal.file.get? id₀ = some entry) (hnone : s.tasks id₀ = none)
    {status : SignatureStatus} {now : ℚ} (htruthful : Truthful s.landed entry.signature status)
    (hfound : ∀ sig, entry.signature = some sig →
      verifyEntry entry status now = .notFoundOnChain → sig ∉ s.landed)
    (hfailed : (verifyEntry entry status now).failed = true) :
    ∀ sig ∈ broadcastsOf h id₀, sig ∉ s.landed := by
  cases hsig : entry.signature with
  | none =>
    -- an entry without a signature is one of a trade that broadcast nothing
    intro sig hmem
    rcases (hI.trades id₀).unsent entry he hsig with ⟨broadcasts, ht⟩ | hempty
    · rw [show View.task _ = s.tasks id₀ from rfl, hnone] at ht
      cases ht
    · rw [show broadcastsOf h id₀ = [] from hempty] at hmem
      cases hmem
  | some sig =>
    exfalso
    have hlanded : sig ∈ s.landed := (hI.trades id₀).landed entry sig he hsig
    have hfound := hfound sig hsig
    simp only [verifyEntry, hsig] at hfailed hfound
    cases status with
    | err => exact htruthful sig hsig hlanded
    | unavailable => cases hfailed
    | confirmed => cases hfailed
    | finalized => cases hfailed
    | notFound =>
      dsimp only at hfailed hfound
      split at hfailed
      · next hold => exact hfound (if_pos hold) hlanded
      · cases hfailed
    | processed =>
      dsimp only at hfailed hfound
      split at hfailed
      · next hold => exact hfound (if_pos hold) hlanded
      · cases hfailed

/-- The verdict on an entry, when what is counted as failed has not landed. -/
theorem RecoveryInv.applyVerdict (hI : RecoveryInv s h) (hup : s.phase ≠ .down)
    (hnone : ∀ id, s.tasks id = none) (hbegun : id₀ < s.nextId) {verdict : Verdict}
    (hverdict : verdict.failed = true → ∀ sig ∈ broadcastsOf h id₀, sig ∉ s.landed) {now : ℚ} :
    RecoveryInv (s.applyVerdict id₀ verdict .written now)
      (h ++ [RecoveryEvent.verified id₀ verdict]) := by
  have hself : verdictsOf (h ++ [RecoveryEvent.verified id₀ verdict]) id₀ =
      verdictsOf h id₀ ++ [verdict] := by
    have hown : verdictOf id₀ (.verified id₀ verdict) = some verdict := if_pos rfl
    unfold verdictsOf
    rw [List.filterMap_append, List.filterMap_cons_some hown, List.filterMap_nil]
  have hbroadcasts : broadcastsOf (h ++ [RecoveryEvent.verified id₀ verdict]) id₀ =
      broadcastsOf h id₀ :=
    List.filterMap_append.trans (List.append_nil _)
  have hother : ∀ id, id ≠ id₀ → verdictsOf [.verified id₀ verdict] id = [] :=
    fun id hid => List.filterMap_cons_none (if_neg (Ne.symm hid))
  -- a verdict other than `kept` removes the entry
  have hremoved : ∀ journal, TradeJournal.Wrote s.journal journal id₀ none →
      RecoveryInv { s with journal, interrupted := Function.update s.interrupted id₀ none }
        (h ++ [RecoveryEvent.verified id₀ verdict]) := by
    intro journal hj
    refine hI.updated id₀ rfl le_rfl hbegun ?_ (fun id hid => ?_) (fun _ => hj.synced)
      (fun _ => hnone) ((hj.size_le (.inr rfl)).trans hI.small)
    · show TradeInv s.landed ⟨s.tasks id₀, journal.file.get? id₀,
        Function.update s.interrupted id₀ none id₀, broadcastsOf (h ++ _) id₀,
        verdictsOf (h ++ _) id₀⟩
      rw [hnone id₀, hj.self, Function.update_self, hbroadcasts, hself]
      refine (hI.trades id₀).removed [verdict] fun verdict' hmem => ?_
      rw [List.mem_singleton.mp hmem]
      exact hverdict
    · exact view_append_of_not rfl (hj.others id hid) (Function.update_of_ne hid _ _) rfl
        (hother id hid)
  have hdeleted : RecoveryInv { s with
      journal := s.journal.remove id₀ .written
      interrupted := Function.update s.interrupted id₀ none }
      (h ++ [RecoveryEvent.verified id₀ verdict]) :=
    hremoved _ (TradeJournal.remove_written (hI.synced hup) id₀)
  cases verdict with
  | kept =>
    refine hI.updated id₀ rfl le_rfl hbegun ?_ (fun id hid => ?_) hI.synced hI.idle
      hI.small
    · show TradeInv s.landed ⟨_, _, _, broadcastsOf (h ++ _) id₀, verdictsOf (h ++ _) id₀⟩
      rw [hbroadcasts, hself]
      exact (hI.trades id₀).verdict (hnone id₀) rfl
    · exact view_append_of_not rfl rfl rfl rfl (hother id hid)
  | recovered =>
    have hconfirmed := TradeJournal.update_written (hI.synced hup) id₀
      fun e => { e with status := .confirmed, updatedAt := now }
    exact hremoved _ (hconfirmed.trans (TradeJournal.remove_written hconfirmed.synced id₀))
  | neverBroadcast => exact hdeleted
  | failedOnChain => exact hdeleted
  | notFoundOnChain => exact hdeleted

theorem RecoveryInv.verify (hI : RecoveryInv s h) {status : SignatureStatus} {flushed : Flush}
    {now : ℚ} {es : List RecoveryEvent} (hkept : SignatureKept s h (.verify status flushed now))
    (hs : s.step (.verify status flushed now) = some (s', es)) : RecoveryInv s' (h ++ es) := by
  obtain ⟨rfl, hfound⟩ := hkept
  simp only [RecoveryState.step] at hs
  cases hphase : s.phase with
  | down =>
    rw [hphase] at hs
    cases hs
  | running =>
    rw [hphase] at hs
    cases hs
  | recovering ids =>
    rw [hphase] at hs
    cases ids with
    | nil => cases hs
    | cons id pending =>
      dsimp only at hs
      have hup : (if pending = [] then Phase.running else .recovering pending) ≠ .down := by
        split <;> exact Phase.noConfusion
      have hnone : ∀ id, s.tasks id = none := by
        refine hI.idle ?_
        rw [hphase]
        exact Phase.noConfusion
      have hsynced : s.journal.Synced := by
        refine hI.synced ?_
        rw [hphase]
        exact Phase.noConfusion
      cases he : s.journal.entries.get? id with
      | none =>
        rw [he] at hs
        obtain ⟨rfl, rfl⟩ := Machine.some_pair hs
        rw [List.append_nil]
        exact hI.rephased hphase _ s.clock
      | some entry =>
        rw [he] at hs
        dsimp only at hs
        split at hs
        · cases hs
        · next hguard =>
          simp only [not_or, not_not] at hguard
          obtain ⟨rfl, rfl⟩ := Machine.some_pair hs
          have hentry : s.journal.file.get? id = some entry := by
            rw [hsynced]
            exact he
          have hbegun : id < s.nextId := by
            refine hI.begun fun hview => ?_
            have hnone : s.journal.file.get? id = none := congrArg View.entry hview
            rw [hentry] at hnone
            cases hnone
          exact (hI.rephased hphase _ now).applyVerdict hup hnone hbegun
            (not_landed_of_failed hI hentry (hnone id) hguard.2.2
              fun sig hsig => hfound id pending entry sig hphase he hsig)

theorem RecoveryInv.recoveryTimeout (hI : RecoveryInv s h) {es : List RecoveryEvent}
    (hs : s.step .recoveryTimeout = some (s', es)) : RecoveryInv s' (h ++ es) := by
  simp only [RecoveryState.step] at hs
  cases hphase : s.phase with
  | down =>
    rw [hphase] at hs
    cases hs
  | running =>
    rw [hphase] at hs
    cases hs
  | recovering pending =>
    rw [hphase] at hs
    obtain ⟨rfl, rfl⟩ := Machine.some_pair hs
    rw [List.append_nil]
    exact hI.rephased hphase _ s.clock

/-- A step that meets the condition keeps the invariant. -/
theorem recoveryInv_step (hI : RecoveryInv s h) {a : RecoveryStep} {es : List RecoveryEvent}
    (hkept : SignatureKept s h a) (hs : s.step a = some (s', es)) : RecoveryInv s' (h ++ es) := by
  cases a with
  | execute market side action flushed now => exact hI.execute hkept hs
  | broadcast id signature => exact hI.broadcast hs
  | land signature => exact hI.land hkept hs
  | returned id signature flushed now => exact hI.returned hkept hs
  | threw id flushed => exact hI.threw hkept hs
  | recordConfirmed id flushed now => exact hI.recordConfirmed hkept hs
  | remove id flushed => exact hI.remove hkept hs
  | crash => exact hI.crash hkept hs
  | start readable connected flushed now => exact hI.start hkept hs
  | verify status flushed now => exact hI.verify hkept hs
  | recoveryTimeout => exact hI.recoveryTimeout hs

end Steps

/-! ## Every run -/

theorem recoveryInv_of_reaches {s : RecoveryState} {h : List RecoveryEvent}
    (hr : journaledTrades.Reaches SignatureKept s h) : RecoveryInv s h :=
  hr.invariant recoveryInv_init fun _ hI hkept hs => recoveryInv_step hI hkept hs

/-- In a run in which every broadcast signature gets into the journal, an interrupted
trade has an entry with its signature, and nothing that recovery counts as failed
has landed. -/
theorem fatesKnown_of_signatureKept {s : RecoveryState} {h : List RecoveryEvent}
    (hr : journaledTrades.Reaches SignatureKept s h) : FatesKnown s h :=
  (recoveryInv_of_reaches hr).fatesKnown

/-- A crash after the client has returned: the entry has the signature. -/
theorem fatesKnown_of_signatureKept_returned :
    ∃ s h, journaledTrades.Reaches SignatureKept s h ∧ s.phase = .down ∧
      s.interrupted 0 = some "sig" ∧ "sig" ∈ s.landed ∧ FatesKnown s h := by
  have h₁ : journaledTrades.Reaches SignatureKept _ _ :=
    Machine.Reaches.init.step (a := RecoveryStep.execute "SOL" .Long .open .written 1)
      ⟨rfl, by decide⟩ rfl
  have h₂ := h₁.step (a := RecoveryStep.broadcast 0 "sig") trivial rfl
  have h₃ := h₂.step (a := RecoveryStep.land "sig") (by
    intro id _ verdict hmem
    cases hmem) rfl
  have h₄ := h₃.step (a := RecoveryStep.returned 0 "sig" .written 2) rfl rfl
  have h₅ := h₄.step (a := RecoveryStep.crash) (by
    intro id broadcasts ht
    by_cases hid : id = 0
    · rw [hid] at ht
      cases ht
    · simp [Function.update, hid, journaledTrades] at ht) rfl
  exact ⟨_, _, h₅, rfl, rfl, List.mem_singleton_self _, fatesKnown_of_signatureKept h₅⟩

/-- The trade is broadcast and lands, and the process crashes before the client has
returned; the next one finds an entry without a signature. -/
def crashedBeforeReturn : List RecoveryStep :=
  [.execute "SOL" .Long .open .written 1, .broadcast 0 "sig", .land "sig", .crash,
    .start true true .written 2, .verify .notFound .written 3]

/-- Recovery removes a trade as never broadcast that has landed. -/
theorem not_fatesKnown : ¬ ∀ s h, journaledTrades.Reachable s h → FatesKnown s h := by
  intro hall
  have hrun : (journaledTrades.run crashedBeforeReturn).map (fun p =>
      (verdictsOf p.2 0, broadcastsOf p.2 0, p.1.landed)) =
        some ([.neverBroadcast], ["sig"], ["sig"]) := by decide +kernel
  obtain ⟨⟨s, h⟩, hp, heq⟩ := Option.map_eq_some_iff.mp hrun
  simp only [Prod.mk.injEq] at heq
  obtain ⟨hverdicts, hbroadcasts, hlanded⟩ := heq
  have hdecided := (hall s h (Machine.reachable_of_run hp)).decided 0 .neverBroadcast
  rw [hverdicts, hbroadcasts, hlanded] at hdecided
  exact hdecided (List.mem_singleton_self _) rfl "sig" (List.mem_singleton_self _)
    (List.mem_singleton_self _)

end Recovery

end FlashEdge
