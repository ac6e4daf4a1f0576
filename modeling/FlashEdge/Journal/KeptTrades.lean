import FlashEdge.Theory.Machine
import FlashEdge.Theory.Retention
import FlashEdge.Journal.TradeJournal

/-!
# What a crash leaves of the unresolved trades

The journal is there so that the next process can look up the trades that were pending or
sent. Both journals are machines here: the operations, each with how its write goes, and a
crash after which a new process reads what was written. After every step an observer sees the
unresolved trades there should be, those the journal holds, and those a process that starts
now would have.

- `TradeJournal.machine`, `SqliteJournal.machine`: the runs.
- `TradeJournal.Keeps`, `SqliteJournal.Keeps`: what an operation has to leave out and to
  write.
- `TradeJournal.performed_of_changes`: what an operation that writes leaves in memory and in
  the file.
- `keptTrades_iff`: along a run no unresolved trade is lost, exactly when every operation meets the
  condition.
-/

namespace FlashEdge

/-!
## The SQLite journal (`journal/sqlite-journal.ts`)

The other backend of the trade journal: the entries are rows of a table, every statement is
written before it returns, and nothing is kept in memory, so a new process finds the rows as
they are. `recordPending` is two statements, the insertion and `prune`. Which rows are the
oldest, where several have one `created_at`, is for the database to say: `prune` is given its
answer, and `isOldest` says which answers there are.
-/

/-- The table `trades`. -/
structure SqliteJournal where
  rows : OrderedMap ℕ JournalEntry := .empty
deriving DecidableEq

namespace SqliteJournal

def MAX_ENTRIES : ℕ := 1000

/-- `INSERT INTO trades`; an id that is there is refused. -/
def insert (j : SqliteJournal) (id : ℕ) (market : String) (side : TradeSide)
    (action : JournalAction) (now : ℚ) : Option SqliteJournal :=
  if j.rows.has id then none
  else some ⟨j.rows.set id { market, side, action, createdAt := now, updatedAt := now }⟩

/-- `SELECT id FROM trades ORDER BY created_at ASC LIMIT ?` may answer these ids. -/
def isOldest (j : SqliteJournal) (limit : ℕ) (ids : List ℕ) : Bool :=
  ids.length == limit && decide ids.Nodup && ids.all j.rows.has &&
    j.rows.entries.all fun a => j.rows.entries.all fun b =>
      !ids.contains a.1 || ids.contains b.1 || decide (a.2.createdAt ≤ b.2.createdAt)

/-- Delete the oldest rows that are too many. -/
def prune (j : SqliteJournal) (oldest : List ℕ) : SqliteJournal :=
  if MAX_ENTRIES < j.rows.size then ⟨j.rows.filter fun id _ => !oldest.contains id⟩ else j

/-- The signature has been obtained. -/
def recordSent (j : SqliteJournal) (id : ℕ) (signature : String) (now : ℚ) : SqliteJournal :=
  ⟨j.rows.modify id fun e =>
    { e with signature := some signature, status := .sent, updatedAt := now }⟩

/-- The confirmation has been obtained. -/
def recordConfirmed (j : SqliteJournal) (id : ℕ) (now : ℚ) : SqliteJournal :=
  ⟨j.rows.modify id fun e => { e with status := .confirmed, updatedAt := now }⟩

/-- Clean up. -/
def remove (j : SqliteJournal) (id : ℕ) : SqliteJournal := ⟨j.rows.delete id⟩

/-- The ids of the rows that are pending or sent. -/
def getPending (j : SqliteJournal) : List ℕ :=
  (j.rows.filter fun _ e => e.status = .pending || e.status = .sent).keys

end SqliteJournal

open OrderedMap

/-- Pending or sent. -/
def JournalEntry.isUnresolved (e : JournalEntry) : Bool := e.status = .pending || e.status = .sent

/-- The unresolved trades: those that the operations leave, those the journal holds, and
those a process that starts now would have. -/
structure UnresolvedTrades where
  expected : List ℕ
  held : List ℕ
  reloaded : List ℕ
deriving DecidableEq, Repr

/-- No limit drops an unresolved trade, and a reload finds all of them and no others. -/
def UnresolvedTrades.Kept (u : UnresolvedTrades) : Prop :=
  ∀ id, (id ∈ u.expected ↔ id ∈ u.held) ∧ (id ∈ u.expected ↔ id ∈ u.reloaded)

/-- Every step so far has kept the unresolved trades. -/
def AllKept (h : List UnresolvedTrades) : Prop := ∀ u ∈ h, u.Kept

theorem allKept_append_iff {h : List UnresolvedTrades} {u : UnresolvedTrades} (hh : AllKept h) :
    AllKept (h ++ [u]) ↔ u.Kept := by
  constructor
  · exact fun hall => hall u (List.mem_append_right h List.mem_cons_self)
  · intro hu v hv
    rcases List.mem_append.mp hv with hv | hv
    · exact hh v hv
    · rw [List.mem_singleton.mp hv]
      exact hu

namespace TradeJournal

def MAX_FILE_BYTES : ℕ := 512 * 1024

/-- The length of `JSON.stringify({ version: 1, entries }, null, 2)`; `entryLength` is that of
the text of an entry, to which also belong the numbers recorded under its id. -/
def textLength (entryLength : ℕ → JournalEntry → ℕ) (m : OrderedMap ℕ JournalEntry) : ℕ :=
  if m.size = 0 then 35 else 37 + (m.entries.map fun e => entryLength e.1 e.2 + 2).sum

/-- An operation of the journal, with the time it reads. -/
inductive JournalCall where
  | recordPending (id : ℕ) (market : String) (side : TradeSide) (action : JournalAction) (now : ℚ)
  | recordSent (id : ℕ) (signature : String) (now : ℚ)
  | recordConfirmed (id : ℕ) (now : ℚ)
  | remove (id : ℕ)
  | pruneStale (maxAgeMs now : ℚ)

/-- How the write of an operation goes: the directory cannot be made, the file cannot be
written or renamed. -/
inductive FileWrite where
  | done
  | noDirectory
  | failed
deriving DecidableEq, Repr

namespace JournalCall

/-- The operation, where `flush` goes as given. -/
def perform (j : TradeJournal) (flushed : Flush) : JournalCall → TradeJournal
  | recordPending id market side action now =>
    j.recordPending id market side action now flushed
  | recordSent id signature now => j.recordSent id signature now flushed
  | recordConfirmed id now => j.recordConfirmed id now flushed
  | remove id => j.remove id flushed
  | pruneStale maxAgeMs now => j.pruneStale maxAgeMs now flushed

/-- A fresh UUID is under no entry. -/
def isFresh (j : TradeJournal) : JournalCall → Bool
  | recordPending id .. => !j.entries.has id
  | _ => true

/-- The entries that the operation asks for, without any limit. -/
def asked (m : OrderedMap ℕ JournalEntry) : JournalCall → OrderedMap ℕ JournalEntry
  | recordPending id market side action now =>
    m.set id { market, side, action, createdAt := now, updatedAt := now }
  | recordSent id signature now =>
    m.modify id fun e =>
      { e with signature := some signature, status := .sent, updatedAt := now }
  | recordConfirmed id now => m.modify id fun e => { e with status := .confirmed, updatedAt := now }
  | remove id => m.delete id
  | pruneStale maxAgeMs now => m.filter fun _ e => now - maxAgeMs < e.updatedAt

/-- Whether the operation changes the entries, and so writes the file. -/
def changes (m : OrderedMap ℕ JournalEntry) : JournalCall → Bool
  | recordPending .. => true
  | recordSent id .. => m.has id
  | recordConfirmed id .. => m.has id
  | remove id => m.has id
  | c@(pruneStale ..) => (c.asked m).size < m.size

end JournalCall

section Runs

variable (entryLength : ℕ → JournalEntry → ℕ)

/-- An operation with its write: a text that is too large is trimmed before it is written. -/
def performed (j : TradeJournal) (c : JournalCall) (w : FileWrite) : TradeJournal :=
  let flushed : Flush :=
    if MAX_FILE_BYTES < textLength entryLength (c.perform j .written).entries then .tooLarge
    else .written
  match w with
  | .done => c.perform j flushed
  | .noDirectory => c.perform j .failed
  | .failed => { c.perform j flushed with file := j.file }

/-- A new process: a file that is too large is replaced by an empty one. -/
def started (j : TradeJournal) (w : FileWrite) : TradeJournal :=
  j.load (textLength entryLength j.file ≤ MAX_FILE_BYTES)
    (if w = .done then .written else .failed)

/-- The unresolved trades that a process which starts now would have. -/
def reloaded (j : TradeJournal) : List ℕ := (started entryLength j .done).getPendingEntries

inductive JournalStep where
  | call (c : JournalCall) (w : FileWrite)
  | crash (w : FileWrite)

/-- One step, with what an observer sees of the unresolved trades. -/
def step (j : TradeJournal) : JournalStep → Option (TradeJournal × List UnresolvedTrades)
  | .call c w =>
    if c.isFresh j then
      let j' := performed entryLength j c w
      some (j', [⟨(c.asked j.entries).keysWhere JournalEntry.isUnresolved, j'.getPendingEntries,
        reloaded entryLength j'⟩])
    else none
  | .crash w =>
    let j' := started entryLength j w
    some (j', [⟨j.getPendingEntries, j'.getPendingEntries, reloaded entryLength j'⟩])

/-- The journal of a process that finds this file. -/
def machine (file : OrderedMap ℕ JournalEntry) (w : FileWrite) :
    Machine TradeJournal JournalStep UnresolvedTrades where
  init := started entryLength { file } w
  step := step entryLength

/-! ## The exact condition -/

/-- How many entries an operation retains of those it asks for: half of them where their text
is too large. -/
def retained (w : FileWrite) (m : OrderedMap ℕ JournalEntry) : ℕ :=
  if w ≠ .noDirectory ∧ MAX_FILE_BYTES < textLength entryLength (m.takeLast MAX_ENTRIES) then
    MAX_ENTRIES / 2
  else MAX_ENTRIES

/-- The entries left out are resolved; and what is written is a text that the loader takes,
with entries that it takes as far as they are unresolved, or where nothing is written, the
unresolved trades are those there were. -/
def KeepsAsked (j : TradeJournal) (w : FileWrite) (m : OrderedMap ℕ JournalEntry) : Prop :=
  (∀ e ∈ m.dropped (retained entryLength w m), e.2.isUnresolved = false) ∧
    if w = .done then
      ∀ id e, m.get? id = some e → e.isUnresolved = true →
        isValid e = true ∧
          textLength entryLength (m.takeLast (retained entryLength w m)) ≤ MAX_FILE_BYTES
    else SameWhere JournalEntry.isUnresolved m j.entries

/-- What every operation that changes the entries has to meet. -/
def Keeps (j : TradeJournal) (_ : List UnresolvedTrades) : JournalStep → Prop
  | .call c w => c.changes j.entries = true → KeepsAsked entryLength j w (c.asked j.entries)
  | .crash _ => True

end Runs

/-! ## What an operation leaves -/

namespace JournalCall

variable {c : JournalCall} {j : TradeJournal} {m : OrderedMap ℕ JournalEntry}

theorem asked_of_not_changes (h : c.changes m = false) : c.asked m = m := by
  cases c with
  | recordPending id market side action now => cases h
  | recordSent id signature now =>
    rw [asked]
    exact modify_of_not_has h _
  | recordConfirmed id now =>
    rw [asked]
    exact modify_of_not_has h _
  | remove id => exact delete_of_not_has h
  | pruneStale maxAgeMs now => exact filter_of_size_le (not_lt.mp (of_decide_eq_false h))

/-- An operation that changes nothing does not write. -/
theorem perform_of_not_changes (h : c.changes j.entries = false) (flushed : Flush) :
    c.perform j flushed = j := by
  cases c with
  | recordPending id market side action now => cases h
  | recordSent id signature now => exact if_neg (Bool.not_eq_true _ ▸ h)
  | recordConfirmed id now => exact if_neg (Bool.not_eq_true _ ▸ h)
  | remove id => exact if_neg (Bool.not_eq_true _ ▸ h)
  | pruneStale maxAgeMs now => exact if_neg (of_decide_eq_false h)

/-- An operation that changes something writes what it is asked for; where the entries are
not too many, only a new one can make them so. -/
theorem perform_of_changes (hsize : j.entries.size ≤ MAX_ENTRIES)
    (h : c.changes j.entries = true) (flushed : Flush) :
    c.perform j flushed =
      { j with entries := (c.asked j.entries).takeLast MAX_ENTRIES }.flush flushed := by
  cases c with
  | recordPending id market side action now => rfl
  | recordSent id signature now =>
    have hasked : (asked j.entries (recordSent id signature now)).size ≤ MAX_ENTRIES :=
      (size_modify ..).trans_le hsize
    rw [takeLast_of_size_le hasked]
    exact if_pos h
  | recordConfirmed id now =>
    have hasked : (asked j.entries (recordConfirmed id now)).size ≤ MAX_ENTRIES :=
      (size_modify ..).trans_le hsize
    rw [takeLast_of_size_le hasked]
    exact if_pos h
  | remove id =>
    have hasked : (asked j.entries (remove id)).size ≤ MAX_ENTRIES :=
      (size_delete_le ..).trans hsize
    rw [takeLast_of_size_le hasked]
    exact if_pos h
  | pruneStale maxAgeMs now =>
    have hless := of_decide_eq_true h
    have hasked : (asked j.entries (pruneStale maxAgeMs now)).size ≤ MAX_ENTRIES :=
      hless.le.trans hsize
    rw [takeLast_of_size_le hasked]
    exact if_pos hless

end JournalCall

section Runs

variable {entryLength : ℕ → JournalEntry → ℕ} {j : TradeJournal} {c : JournalCall} {w : FileWrite}

theorem performed_of_not_changes (h : c.changes j.entries = false) :
    performed entryLength j c w = j := by
  unfold performed
  simp only [JournalCall.perform_of_not_changes h]
  cases w with
  | done => rfl
  | noDirectory => rfl
  | failed => rfl

theorem performed_of_changes (hsize : j.entries.size ≤ MAX_ENTRIES)
    (h : c.changes j.entries = true) :
    (performed entryLength j c w).entries =
        (c.asked j.entries).takeLast (retained entryLength w (c.asked j.entries)) ∧
      (performed entryLength j c w).file =
        if w = .done then (performed entryLength j c w).entries else j.file := by
  unfold performed retained
  simp only [JournalCall.perform_of_changes hsize h, flush_written_entries]
  by_cases hlarge :
      MAX_FILE_BYTES < textLength entryLength ((c.asked j.entries).takeLast MAX_ENTRIES)
  · simp only [if_pos hlarge]
    have hhalf := takeLast_takeLast (c.asked j.entries)
      (show MAX_ENTRIES / 2 ≤ MAX_ENTRIES by decide)
    cases w with
    | done => exact ⟨hhalf.trans (by rw [if_pos ⟨by decide, hlarge⟩]), rfl⟩
    | noDirectory => exact ⟨by rw [if_neg fun hn => hn.1 rfl]; rfl, rfl⟩
    | failed => exact ⟨hhalf.trans (by rw [if_pos ⟨by decide, hlarge⟩]), rfl⟩
  · simp only [if_neg hlarge, if_neg fun hn : _ ∧ _ => hlarge hn.2]
    cases w with
    | done => exact ⟨rfl, rfl⟩
    | noDirectory => exact ⟨rfl, rfl⟩
    | failed => exact ⟨rfl, rfl⟩

/-! ## What a new process has -/

/-- The entries that a new process takes from a file. -/
def loadable (entryLength : ℕ → JournalEntry → ℕ) (file : OrderedMap ℕ JournalEntry) :
    OrderedMap ℕ JournalEntry :=
  if textLength entryLength file ≤ MAX_FILE_BYTES then
    (file.filter fun _ e => isValid e).takeLast MAX_ENTRIES
  else .empty

theorem started_entries : (started entryLength j w).entries = loadable entryLength j.file := by
  unfold started loadable load
  by_cases hread : textLength entryLength j.file ≤ MAX_FILE_BYTES
  · rw [if_pos hread, if_pos (decide_eq_true hread)]
  · rw [if_neg hread, if_neg (by simpa using hread)]
    cases w with
    | done => rfl
    | noDirectory => rfl
    | failed => rfl

theorem loadable_empty : loadable entryLength .empty = .empty := rfl

/-- The process after that finds the same. -/
theorem loadable_started :
    loadable entryLength (started entryLength j w).file = loadable entryLength j.file := by
  unfold started load
  by_cases hread : textLength entryLength j.file ≤ MAX_FILE_BYTES
  · rw [if_pos (decide_eq_true hread)]
  · have hnothing : loadable entryLength j.file = .empty := if_neg hread
    rw [if_neg (by simpa using hread), hnothing]
    cases w with
    | done => exact loadable_empty
    | noDirectory => exact hnothing
    | failed => exact hnothing

theorem size_loadable_le (file : OrderedMap ℕ JournalEntry) :
    (loadable entryLength file).size ≤ MAX_ENTRIES := by
  unfold loadable
  split
  · exact size_takeLast_le _ _
  · exact Nat.zero_le _

/-- A file that is not too long keeps its unresolved trades exactly when its text is not too
large for them and each of them is valid. -/
theorem sameWhere_loadable_iff {file : OrderedMap ℕ JournalEntry}
    (hsize : file.size ≤ MAX_ENTRIES) :
    SameWhere JournalEntry.isUnresolved file (loadable entryLength file) ↔
      ∀ id e, file.get? id = some e → e.isUnresolved = true →
        isValid e = true ∧ textLength entryLength file ≤ MAX_FILE_BYTES := by
  by_cases hread : textLength entryLength file ≤ MAX_FILE_BYTES
  · have hvalid : (file.filter fun _ e => isValid e).size ≤ MAX_ENTRIES :=
      (List.length_filter_le _ _).trans hsize
    rw [loadable, if_pos hread, takeLast_of_size_le hvalid, sameWhere_filter_iff]
    constructor
    · exact fun h id e he hu => ⟨h id e he hu, hread⟩
    · exact fun h id e he hu => (h id e he hu).1
  · rw [loadable, if_neg hread, sameWhere_empty_iff]
    constructor
    · intro h id e he hu
      rw [h id e he] at hu
      cases hu
    · intro h id e he
      by_contra hu
      exact hread (h id e he (by simpa using hu)).2

/-! ## One step -/

/-- What a process that starts now would have are the unresolved trades of the memory. -/
structure Reloadable (entryLength : ℕ → JournalEntry → ℕ) (j : TradeJournal) : Prop where
  size : j.entries.size ≤ MAX_ENTRIES
  same : SameWhere JournalEntry.isUnresolved j.entries (loadable entryLength j.file)

theorem started_reloadable : Reloadable entryLength (started entryLength j w) where
  size := by
    rw [started_entries]
    exact size_loadable_le _
  same := by
    rw [started_entries, loadable_started]
    exact SameWhere.refl _

/-- What an observer sees, in terms of the maps. -/
theorem kept_iff_sameWhere {m : OrderedMap ℕ JournalEntry} :
    UnresolvedTrades.Kept ⟨m.keysWhere JournalEntry.isUnresolved, j.getPendingEntries,
        reloaded entryLength j⟩ ↔
      SameWhere JournalEntry.isUnresolved m j.entries ∧
        SameWhere JournalEntry.isUnresolved m (loadable entryLength j.file) := by
  have hreloaded : reloaded entryLength j =
      (loadable entryLength j.file).keysWhere JournalEntry.isUnresolved := by
    rw [← started_entries (w := .done)]
    rfl
  rw [hreloaded]
  exact forall_and

/-- What is kept in memory and in the file is all of the unresolved trades that are asked for,
exactly under the condition. -/
theorem sameWhere_performed_iff (hj : Reloadable entryLength j)
    (h : c.changes j.entries = true) :
    SameWhere JournalEntry.isUnresolved (c.asked j.entries) (performed entryLength j c w).entries ∧
        SameWhere JournalEntry.isUnresolved (c.asked j.entries)
          (loadable entryLength (performed entryLength j c w).file) ↔
      KeepsAsked entryLength j w (c.asked j.entries) := by
  obtain ⟨hentries, hfile⟩ : (performed entryLength j c w).entries = _ ∧ _ :=
    performed_of_changes hj.size h
  unfold KeepsAsked
  rw [hfile, hentries, ← sameWhere_takeLast_iff]
  refine and_congr_right fun hkept => ?_
  by_cases hdone : w = .done
  · rw [if_pos hdone, if_pos hdone]
    have hall := (sub_takeLast _ _).sameWhere_iff.mp hkept
    have hsize : ((c.asked j.entries).takeLast
        (retained entryLength w (c.asked j.entries))).size ≤ MAX_ENTRIES := by
      refine (size_takeLast_le _ _).trans ?_
      unfold retained
      split
      · decide
      · exact le_rfl
    -- only what is retained is read again, and that has every unresolved trade
    constructor
    · intro hread id e he hu
      exact (sameWhere_loadable_iff hsize).mp (hkept.symm.trans hread) id e (hall id e he hu) hu
    · intro hread
      refine hkept.trans ((sameWhere_loadable_iff hsize).mpr fun id e he hu => ?_)
      exact hread id e (sub_takeLast _ _ id e he) hu
  · rw [if_neg hdone, if_neg hdone]
    -- the file of before has the unresolved trades of before
    constructor
    · exact fun hread => hread.trans hj.same.symm
    · exact fun hsame => hsame.trans hj.same

theorem performed_reloadable (hj : Reloadable entryLength j)
    (hkeeps : c.changes j.entries = true → KeepsAsked entryLength j w (c.asked j.entries)) :
    Reloadable entryLength (performed entryLength j c w) := by
  by_cases h : c.changes j.entries = true
  · obtain ⟨hheld, hread⟩ := (sameWhere_performed_iff hj h).mpr (hkeeps h)
    refine ⟨?_, hheld.symm.trans hread⟩
    rw [(performed_of_changes hj.size h).1]
    refine (size_takeLast_le _ _).trans ?_
    unfold retained
    split
    · decide
    · exact le_rfl
  · rw [performed_of_not_changes (Bool.eq_false_of_not_eq_true h)]
    exact hj

/-- A step loses an unresolved trade exactly when it does not meet its condition. -/
theorem step_cases {s' : TradeJournal} {h es : List UnresolvedTrades} {a : JournalStep}
    (hI : Reloadable entryLength j ∧ AllKept h) (hs : step entryLength j a = some (s', es)) :
    (Keeps entryLength j h a ∧ Reloadable entryLength s' ∧ AllKept (h ++ es)) ∨
      (¬ Keeps entryLength j h a ∧ ¬ AllKept (h ++ es)) := by
  obtain ⟨hj, hh⟩ := hI
  cases a with
  | call c w =>
    unfold step at hs
    dsimp only at hs
    split at hs
    · obtain ⟨rfl, rfl⟩ := Machine.some_pair hs
      rw [allKept_append_iff hh, kept_iff_sameWhere]
      by_cases hchanges : c.changes j.entries = true
      · rw [sameWhere_performed_iff hj hchanges]
        have hcond : Keeps entryLength j h (.call c w) ↔
            KeepsAsked entryLength j w (c.asked j.entries) :=
          ⟨fun hk => hk hchanges, fun hk _ => hk⟩
        by_cases hk : KeepsAsked entryLength j w (c.asked j.entries)
        · exact .inl ⟨hcond.mpr hk, performed_reloadable hj fun _ => hk, hk⟩
        · exact .inr ⟨fun hn => hk (hcond.mp hn), hk⟩
      · have hnot := Bool.eq_false_of_not_eq_true hchanges
        refine .inl ⟨fun hc => absurd hc hchanges,
          performed_reloadable hj fun hc => absurd hc hchanges, ?_⟩
        rw [JournalCall.asked_of_not_changes hnot, performed_of_not_changes hnot]
        exact ⟨SameWhere.refl _, hj.same⟩
    · cases hs
  | crash w =>
    obtain ⟨rfl, rfl⟩ := Machine.some_pair hs
    refine .inl ⟨trivial, started_reloadable, (allKept_append_iff hh).mpr ?_⟩
    refine (kept_iff_sameWhere (m := j.entries)).mpr ?_
    rw [started_entries, loadable_started]
    exact ⟨hj.same, hj.same⟩

end Runs

/-- One trade after another is recorded as pending, and none of them is sent. -/
def pendingTrades (n : ℕ) : List JournalStep :=
  (List.range n).map fun i => .call (.recordPending i "SOL" .Long .open (i + 1)) .done

/-- The trade recorded first is not there once 100 more are, and all of them are unresolved. -/
theorem oldest_pending_dropped :
    ∃ j h, (machine (fun _ _ => 250) .empty .done).run (pendingTrades 101) = some (j, h) ∧
      ¬ AllKept h := by
  have hrun : ((machine (fun _ _ => 250) .empty .done).run (pendingTrades 101)).map
      (fun r => r.2.any fun u => u.expected.contains 0 && !u.reloaded.contains 0) = some true := by
    decide +kernel
  obtain ⟨⟨j, h⟩, hj, hlost⟩ := Option.map_eq_some_iff.mp hrun
  refine ⟨j, h, hj, fun hall => ?_⟩
  obtain ⟨u, hu, hu0⟩ := List.any_eq_true.mp hlost
  obtain ⟨hexpected, hmissing⟩ := Bool.and_eq_true_iff.mp hu0
  have hfound := ((hall u hu 0).2).mp (List.contains_iff_mem.mp hexpected)
  rw [List.contains_iff_mem.mpr hfound] at hmissing
  cases hmissing

end TradeJournal

namespace SqliteJournal

/-- The statements of an operation. Between the insertion and `prune` the process may stop:
then there is no answer to the selection of the oldest rows. -/
inductive SqliteStep where
  | recordPending (id : ℕ) (market : String) (side : TradeSide) (action : JournalAction) (now : ℚ)
      (oldest : Option (List ℕ))
  | recordSent (id : ℕ) (signature : String) (now : ℚ)
  | recordConfirmed (id : ℕ) (now : ℚ)
  | remove (id : ℕ)
  | crash

/-- What an observer sees where the operations leave `rows`; a new process reads the table. -/
def seen (rows : OrderedMap ℕ JournalEntry) (j : SqliteJournal) : UnresolvedTrades :=
  ⟨rows.keysWhere JournalEntry.isUnresolved, j.getPending, j.getPending⟩

def step (j : SqliteJournal) : SqliteStep → Option (SqliteJournal × List UnresolvedTrades)
  | .recordPending id market side action now oldest =>
    match j.insert id market side action now, oldest with
    | none, _ => some (j, [seen j.rows j])
    | some inserted, none => some (inserted, [seen inserted.rows inserted])
    | some inserted, some ids =>
      if inserted.isOldest (inserted.rows.size - MAX_ENTRIES) ids then
        some (inserted.prune ids, [seen inserted.rows (inserted.prune ids)])
      else none
  | .recordSent id signature now =>
    let j' := j.recordSent id signature now
    some (j', [seen j'.rows j'])
  | .recordConfirmed id now =>
    let j' := j.recordConfirmed id now
    some (j', [seen j'.rows j'])
  | .remove id =>
    let j' := j.remove id
    some (j', [seen j'.rows j'])
  | .crash => some (j, [seen j.rows j])

/-- The journal of a process that finds these rows. -/
def machine (j : SqliteJournal) : Machine SqliteJournal SqliteStep UnresolvedTrades where
  init := j
  step := step

/-- The oldest rows are resolved, where there are too many. -/
def Keeps (j : SqliteJournal) (_ : List UnresolvedTrades) : SqliteStep → Prop
  | .recordPending id market side action now (some oldest) =>
    ∀ inserted, j.insert id market side action now = some inserted →
      MAX_ENTRIES < inserted.rows.size →
        ∀ id e, inserted.rows.get? id = some e → e.isUnresolved = true → oldest.contains id = false
  | _ => True

theorem kept_seen_iff {rows : OrderedMap ℕ JournalEntry} {j : SqliteJournal} :
    (seen rows j).Kept ↔ SameWhere JournalEntry.isUnresolved rows j.rows :=
  forall_congr' fun _ => and_self_iff

theorem kept_seen_self (j : SqliteJournal) : (seen j.rows j).Kept :=
  kept_seen_iff.mpr (SameWhere.refl _)

theorem kept_prune_iff (j : SqliteJournal) (oldest : List ℕ) :
    (seen j.rows (j.prune oldest)).Kept ↔
      (MAX_ENTRIES < j.rows.size → ∀ id e, j.rows.get? id = some e → e.isUnresolved = true →
        oldest.contains id = false) := by
  unfold prune
  by_cases hmany : MAX_ENTRIES < j.rows.size
  · rw [if_pos hmany, kept_seen_iff, sameWhere_filter_iff]
    constructor
    · exact fun h _ id e he hu => by simpa using h id e he hu
    · exact fun h id e he hu => by rw [h hmany id e he hu]; rfl
  · rw [if_neg hmany]
    exact ⟨fun _ h => absurd h hmany, fun _ => kept_seen_self j⟩

/-- An insertion that is refused deletes nothing. -/
theorem keeps_of_refused {j : SqliteJournal} {h : List UnresolvedTrades} {id : ℕ}
    {market : String} {side : TradeSide} {action : JournalAction} {now : ℚ}
    {oldest : Option (List ℕ)} (hrefused : j.insert id market side action now = none) :
    Keeps j h (.recordPending id market side action now oldest) := by
  cases oldest with
  | none => trivial
  | some ids =>
    intro inserted hinserted
    rw [hrefused] at hinserted
    cases hinserted

theorem step_cases {j j' : SqliteJournal} {h es : List UnresolvedTrades} {a : SqliteStep}
    (hh : AllKept h) (hs : step j a = some (j', es)) :
    (Keeps j h a ∧ AllKept (h ++ es)) ∨ (¬ Keeps j h a ∧ ¬ AllKept (h ++ es)) := by
  have hself : ∀ {i : SqliteJournal}, some (i, [seen i.rows i]) = some (j', es) →
      AllKept (h ++ es) := by
    intro i hi
    obtain ⟨rfl, rfl⟩ := Machine.some_pair hi
    exact (allKept_append_iff hh).mpr (kept_seen_self i)
  cases a with
  | recordPending id market side action now oldest =>
    unfold step at hs
    dsimp only at hs
    split at hs
    · next hrefused =>
      exact .inl ⟨keeps_of_refused hrefused, hself hs⟩
    · exact .inl ⟨trivial, hself hs⟩
    · next inserted ids hinserted =>
      split at hs
      · obtain ⟨rfl, rfl⟩ := Machine.some_pair hs
        rw [allKept_append_iff hh, kept_prune_iff]
        have hcond : Keeps j h (.recordPending id market side action now (some ids)) ↔
            (MAX_ENTRIES < inserted.rows.size → ∀ id e, inserted.rows.get? id = some e →
              e.isUnresolved = true → ids.contains id = false) := by
          constructor
          · exact fun hk => hk inserted hinserted
          · intro hk i hi
            obtain rfl := Option.some.inj (hinserted.symm.trans hi)
            exact hk
        rw [hcond]
        exact (em _).imp (fun hk => ⟨hk, hk⟩) fun hk => ⟨hk, hk⟩
      · cases hs
  | recordSent id signature now => exact .inl ⟨trivial, hself hs⟩
  | recordConfirmed id now => exact .inl ⟨trivial, hself hs⟩
  | remove id => exact .inl ⟨trivial, hself hs⟩
  | crash => exact .inl ⟨trivial, hself hs⟩

end SqliteJournal

/-- **What is recorded can be recovered.** Whatever file or table the first process finds,
along every run of either journal, with writes that fail and crashes between the writes, the
unresolved trades that the operations leave are those the journal holds and those that a new
process finds, exactly when every operation that writes leaves out resolved entries only and
writes a file that the loader takes. -/
theorem keptTrades_iff (entryLength : ℕ → JournalEntry → ℕ) (file : OrderedMap ℕ JournalEntry)
    (w : TradeJournal.FileWrite) (steps : List TradeJournal.JournalStep) (j : SqliteJournal)
    (sqlSteps : List SqliteJournal.SqliteStep) :
    ((TradeJournal.machine entryLength file w).Always (fun _ h => AllKept h)
        (TradeJournal.machine entryLength file w).init [] steps ↔
      (TradeJournal.machine entryLength file w).Along (TradeJournal.Keeps entryLength)
        (TradeJournal.machine entryLength file w).init [] steps) ∧
    ((SqliteJournal.machine j).Always (fun _ h => AllKept h) j [] sqlSteps ↔
      (SqliteJournal.machine j).Along SqliteJournal.Keeps j [] sqlSteps) := by
  have hnone : AllKept [] := fun u hu => absurd hu List.not_mem_nil
  constructor
  · refine Machine.always_iff_along_of_step
      (I := fun j h => TradeJournal.Reloadable entryLength j ∧ AllKept h) (fun hI => hI.2) ?_
      ⟨TradeJournal.started_reloadable, hnone⟩ steps
    exact fun hI hs => TradeJournal.step_cases hI hs
  · refine Machine.always_iff_along_of_step (I := fun _ h => AllKept h) (fun hI => hI) ?_ hnone
      sqlSteps
    exact fun hI hs => SqliteJournal.step_cases hI hs

end FlashEdge
