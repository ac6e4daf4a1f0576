import FlashEdge.Js
import FlashEdge.Theory.OrderedMap

/-!
# The trade journal (`journal/trade-journal.ts`)

The write-ahead record of trades: `pending` before the broadcast, `sent` with the
signature, `confirmed`, removed. The entries are kept in memory and written to a
file as a whole by every operation (`flush`), which may fail and is then only
logged. An id stands for a fresh UUID; the numbers of a trade, which nothing reads
back, are left out, and whether the JSON text is too large is for the caller of
`flush` to say.
-/

namespace FlashEdge

inductive JournalStatus where
  | pending
  | sent
  | confirmed
deriving DecidableEq, Repr

inductive JournalAction where
  | open
  | close
  | addCollateral
  | removeCollateral
deriving DecidableEq, Repr

structure JournalEntry where
  market : String
  side : TradeSide
  action : JournalAction
  signature : Option String := none
  status : JournalStatus := .pending
  createdAt : ℚ
  updatedAt : ℚ
deriving DecidableEq

/-- How writing the file goes. -/
inductive Flush where
  | written
  | tooLarge
  | failed
deriving DecidableEq, Repr

/-- The entries, by id, and what the file has of them. -/
structure TradeJournal where
  entries : OrderedMap ℕ JournalEntry := .empty
  file : OrderedMap ℕ JournalEntry := .empty
deriving DecidableEq

namespace TradeJournal

def MAX_ENTRIES : ℕ := 100

/-- Write the file; a text that is too large is cut to the most recent entries. -/
def flush (j : TradeJournal) : Flush → TradeJournal
  | .written => { j with file := j.entries }
  | .tooLarge =>
    let kept := j.entries.takeLast (MAX_ENTRIES / 2)
    { entries := kept, file := kept }
  | .failed => j

/-- Record a trade as pending before the broadcast. -/
def recordPending (j : TradeJournal) (id : ℕ) (market : String) (side : TradeSide)
    (action : JournalAction) (now : ℚ) (flushed : Flush) : TradeJournal :=
  let entries := j.entries.set id { market, side, action, createdAt := now, updatedAt := now }
  { j with entries := entries.takeLast MAX_ENTRIES }.flush flushed

/-- Change an entry, if it is there. -/
def update (j : TradeJournal) (id : ℕ) (f : JournalEntry → JournalEntry) (flushed : Flush) :
    TradeJournal :=
  if j.entries.has id then { j with entries := j.entries.modify id f }.flush flushed else j

/-- The signature has been obtained. -/
def recordSent (j : TradeJournal) (id : ℕ) (signature : String) (now : ℚ) (flushed : Flush) :
    TradeJournal :=
  j.update id (fun e => { e with signature := some signature, status := .sent, updatedAt := now })
    flushed

/-- The confirmation has been obtained. -/
def recordConfirmed (j : TradeJournal) (id : ℕ) (now : ℚ) (flushed : Flush) : TradeJournal :=
  j.update id (fun e => { e with status := .confirmed, updatedAt := now }) flushed

/-- Clean up. -/
def remove (j : TradeJournal) (id : ℕ) (flushed : Flush) : TradeJournal :=
  if j.entries.has id then { j with entries := j.entries.delete id }.flush flushed else j

/-- The ids of the entries that are pending or sent. -/
def getPendingEntries (j : TradeJournal) : List ℕ :=
  (j.entries.filter fun _ e => e.status = .pending || e.status = .sent).keys

/-- Remove the entries that are older than `maxAgeMs`. -/
def pruneStale (j : TradeJournal) (maxAgeMs now : ℚ) (flushed : Flush) : TradeJournal :=
  let entries := j.entries.filter fun _ e => now - maxAgeMs < e.updatedAt
  if entries.size < j.entries.size then { j with entries }.flush flushed else j

/-- What `load` asks of an entry of the file. -/
def isValid (e : JournalEntry) : Bool := e.market ≠ "" ∧ 0 < e.createdAt ∧ 0 < e.updatedAt

/-- A new process reads the file; one that it cannot read is replaced. -/
def load (j : TradeJournal) (readable : Bool) (flushed : Flush) : TradeJournal :=
  if readable then
    { j with entries := (j.file.filter fun _ e => isValid e).takeLast MAX_ENTRIES }
  else { j with entries := .empty }.flush flushed

/-! ## Where every write succeeds -/

/-- The file has what the memory has. -/
def Synced (j : TradeJournal) : Prop := j.file = j.entries

@[simp] theorem flush_written_entries (j : TradeJournal) : (j.flush .written).entries = j.entries :=
  rfl

@[simp] theorem flush_written_file (j : TradeJournal) : (j.flush .written).file = j.entries := rfl

/-- A write that succeeds and leaves `entry` under one id. -/
structure Wrote (j j' : TradeJournal) (id : ℕ) (entry : Option JournalEntry) : Prop where
  synced : j'.Synced
  self : j'.file.get? id = entry
  others : ∀ k, k ≠ id → j'.file.get? k = j.file.get? k

theorem Wrote.trans {j j' j'' : TradeJournal} {id : ℕ} {entry entry' : Option JournalEntry}
    (h : Wrote j j' id entry) (h' : Wrote j' j'' id entry') : Wrote j j'' id entry' where
  synced := h'.synced
  self := h'.self
  others k hk := (h'.others k hk).trans (h.others k hk)

/-- A write under an id that has an entry does not make the file larger. -/
theorem Wrote.size_le {j j' : TradeJournal} {id : ℕ} {entry : Option JournalEntry}
    (h : Wrote j j' id entry) (hthere : j.file.get? id ≠ none ∨ entry = none) :
    j'.file.size ≤ j.file.size := by
  refine OrderedMap.size_le_of_keys_subset fun k hk => ?_
  obtain ⟨e, he⟩ := OrderedMap.mem_keys_iff.mp hk
  by_cases hid : k = id
  · rw [hid, h.self] at he
    rcases hthere with hthere | hnone
    · obtain ⟨e₀, he₀⟩ := Option.ne_none_iff_exists'.mp hthere
      exact OrderedMap.mem_keys_iff.mpr ⟨e₀, hid ▸ he₀⟩
    · rw [hnone] at he
      cases he
  · rw [h.others k hid] at he
    exact OrderedMap.mem_keys_iff.mpr ⟨e, he⟩

theorem recordPending_written {j : TradeJournal} (hsynced : j.Synced) (id : ℕ)
    (hroom : j.entries.size < MAX_ENTRIES) (market : String) (side : TradeSide)
    (action : JournalAction) (now : ℚ) :
    Wrote j (j.recordPending id market side action now .written) id
        (some { market, side, action, createdAt := now, updatedAt := now }) ∧
      (j.recordPending id market side action now .written).file.size ≤ MAX_ENTRIES := by
  have hsize : (j.entries.set id
      { market, side, action, createdAt := now, updatedAt := now }).size ≤ MAX_ENTRIES := by
    have hkeys : (j.entries.set id
        { market, side, action, createdAt := now, updatedAt := now }).size ≤
          j.entries.size + 1 := by
      show (OrderedMap.set _ _ _).entries.length ≤ _
      unfold OrderedMap.set
      split
      · show (List.map _ _).length ≤ _
        rw [List.length_map]
        exact Nat.le_succ _
      · rw [List.length_append]
        rfl
    omega
  have hfile : (j.recordPending id market side action now .written).file = j.entries.set id
      { market, side, action, createdAt := now, updatedAt := now } :=
    OrderedMap.takeLast_of_size_le hsize
  refine ⟨⟨rfl, ?_, fun k hk => ?_⟩, ?_⟩
  · rw [hfile, OrderedMap.get?_set_self]
  · rw [hfile, OrderedMap.get?_set_of_ne hk, hsynced]
  · rw [hfile]
    exact hsize

theorem update_written {j : TradeJournal} (hsynced : j.Synced) (id : ℕ)
    (f : JournalEntry → JournalEntry) :
    Wrote j (j.update id f .written) id ((j.file.get? id).map f) := by
  unfold update
  by_cases hhas : j.entries.has id
  · rw [if_pos hhas]
    refine ⟨rfl, ?_, fun k hk => ?_⟩
    · rw [flush_written_file, OrderedMap.get?_modify, if_pos rfl, hsynced]
    · rw [flush_written_file, OrderedMap.get?_modify, if_neg hk, hsynced]
  · rw [if_neg hhas]
    have hnone : j.file.get? id = none := by
      rw [hsynced]
      simpa [OrderedMap.has] using hhas
    exact ⟨hsynced, by rw [hnone]; rfl, fun _ _ => rfl⟩

theorem remove_written {j : TradeJournal} (hsynced : j.Synced) (id : ℕ) :
    Wrote j (j.remove id .written) id none := by
  unfold remove
  by_cases hhas : j.entries.has id
  · rw [if_pos hhas]
    refine ⟨rfl, ?_, fun k hk => ?_⟩
    · rw [flush_written_file, OrderedMap.get?_delete_self]
    · rw [flush_written_file, OrderedMap.get?_delete_of_ne hk, hsynced]
  · rw [if_neg hhas]
    refine ⟨hsynced, ?_, fun _ _ => rfl⟩
    rw [hsynced]
    simpa [OrderedMap.has] using hhas

/-- A file that has valid entries only, and not too many, is what the memory has. -/
theorem load_readable {j : TradeJournal} (hvalid : ∀ k e, j.file.get? k = some e → isValid e = true)
    (hsmall : j.file.size ≤ MAX_ENTRIES) (flushed : Flush) :
    j.load true flushed = ⟨j.file, j.file⟩ := by
  have hall : (j.file.filter fun _ e => isValid e) = j.file := by
    obtain ⟨file, hfile⟩ : ∃ file, j.file = file := ⟨_, rfl⟩
    rw [hfile] at hvalid ⊢
    obtain ⟨l, hl⟩ := file
    unfold OrderedMap.filter
    rw [OrderedMap.mk.injEq, List.filter_eq_self]
    exact fun e he => hvalid e.1 e.2 (OrderedMap.get?_eq_some_iff.mpr he)
  show TradeJournal.mk (OrderedMap.takeLast _ _) _ = _
  rw [hall, OrderedMap.takeLast_of_size_le hsmall]

theorem pruneStale_written {j : TradeJournal} (hsynced : j.Synced) (maxAgeMs now : ℚ) :
    (j.pruneStale maxAgeMs now .written).Synced ∧
      ∀ k, (j.pruneStale maxAgeMs now .written).file.get? k =
        (j.file.get? k).filter fun e => now - maxAgeMs < e.updatedAt := by
  unfold pruneStale
  dsimp only
  split
  · refine ⟨rfl, fun k => Option.ext fun e => ?_⟩
    rw [flush_written_file, OrderedMap.get?_filter, Option.filter_eq_some_iff, hsynced]
  · next hsize =>
    -- nothing is pruned, so the test keeps every entry
    refine ⟨hsynced, fun k => Option.ext fun e => ?_⟩
    have hall : (j.entries.entries.filter fun e => decide (now - maxAgeMs < e.2.updatedAt)) =
        j.entries.entries := by
      refine List.filter_sublist.eq_of_length_le ?_
      exact not_lt.mp hsize
    rw [Option.filter_eq_some_iff, hsynced, OrderedMap.get?_eq_some_iff]
    constructor
    · intro hmem
      have hkept := hmem
      rw [← hall] at hkept
      exact ⟨hmem, (List.mem_filter.mp hkept).2⟩
    · exact fun hmem => hmem.1

theorem pruneStale_size_le {j : TradeJournal} (hsynced : j.Synced) (maxAgeMs now : ℚ) :
    (j.pruneStale maxAgeMs now .written).file.size ≤ j.file.size := by
  refine OrderedMap.size_le_of_keys_subset fun k hk => ?_
  obtain ⟨e, he⟩ := OrderedMap.mem_keys_iff.mp hk
  rw [(pruneStale_written hsynced maxAgeMs now).2] at he
  exact OrderedMap.mem_keys_iff.mpr ⟨e, (Option.filter_eq_some_iff.mp he).1⟩

end TradeJournal

end FlashEdge
