import Mathlib.Data.Rat.Defs
import Mathlib.Algebra.Order.Field.Rat
import FlashEdge.Core.Submission
import FlashEdge.Theory.Machine

/-!
# The blockhash cache of the transaction engine (`core/ultra-tx-engine.ts`)

`getBlockhash` answers from the cache while its blockhash is young enough, and otherwise waits
for the request in flight, which it may start; the background refresh starts or joins it too. A
blockhash whose height has dropped is rejected as a fork, and the cached one is handed out
instead, whatever its age. `updateConnection` empties the cache, but a request in flight goes
on: its answer, from the previous connection, is cached and handed out afterwards.

Connections are numbered in the order of the switches; a cached blockhash is given the number
of the connection that it was requested from, which the code does not keep.

- `blockhashPipeline`: calls, refreshes, answers and switches in any order.
- `NeverStale`: what is promised of what `getBlockhash` returns.
- `neverStale_iff`: along a run that holds exactly when every answer that is cached comes from
  the current connection, and every fork that is rejected while `getBlockhash` waits finds a
  cached blockhash that is not too old.
-/

namespace FlashEdge

namespace BlockhashPipeline

/-- Maximum age before a cached blockhash is considered stale. -/
def BLOCKHASH_MAX_AGE_MS : ℚ := 5000

/-- Fork protection: reject a blockhash if its height drops by more than this. -/
def BLOCKHASH_FORK_SLOT_DROP : ℕ := 5

structure CachedBlockhash extends LatestBlockhash where
  fetchedAt : ℚ
  connection : ℕ
deriving DecidableEq, Repr

/-- The request in flight: the connection it was sent to, and how many calls of `getBlockhash`
wait for it. -/
structure Inflight where
  connection : ℕ
  waiting : ℕ
deriving DecidableEq, Repr

end BlockhashPipeline

open BlockhashPipeline

/-- The engine as far as blockhashes go. -/
structure BlockhashPipeline where
  primaryConnection : ℕ := 0
  cachedBlockhash : Option CachedBlockhash := none
  blockhashInflight : Option Inflight := none
deriving DecidableEq, Repr

inductive BlockhashAction where
  | getBlockhash (forceRefresh : Bool) (now : ℚ)
  | refresh
  | answered (result : Option LatestBlockhash) (now : ℚ)
  | updateConnection
deriving DecidableEq, Repr

/-- A call of `getBlockhash` returns: when, and which connection is the current one. -/
structure ReturnedBlockhash where
  blockhash : CachedBlockhash
  now : ℚ
  connection : ℕ
deriving DecidableEq, Repr

namespace BlockhashPipeline

/-- The cached blockhash, if it is within the age limit. -/
def youngBlockhash (s : BlockhashPipeline) (now : ℚ) : Option CachedBlockhash :=
  s.cachedBlockhash.filter fun c => decide (now - c.fetchedAt < BLOCKHASH_MAX_AGE_MS)

/-- Start a request or join the one in flight; `waiting` more calls wait for it. -/
def refreshBlockhash (s : BlockhashPipeline) (waiting : ℕ) : BlockhashPipeline :=
  match s.blockhashInflight with
  | some i => { s with blockhashInflight := some { i with waiting := i.waiting + waiting } }
  | none => { s with blockhashInflight := some ⟨s.primaryConnection, waiting⟩ }

def getBlockhash (s : BlockhashPipeline) (forceRefresh : Bool) (now : ℚ) :
    BlockhashPipeline × List ReturnedBlockhash :=
  match if forceRefresh then none else s.youngBlockhash now with
  | some c => (s, [⟨c, now, s.primaryConnection⟩])
  | none => (s.refreshBlockhash 1, [])

/-- The cached blockhash that a result is rejected for: its height has dropped. -/
def forkedFrom (s : BlockhashPipeline) (result : LatestBlockhash) : Option CachedBlockhash :=
  s.cachedBlockhash.filter fun c =>
    decide (result.lastValidBlockHeight + BLOCKHASH_FORK_SLOT_DROP < c.lastValidBlockHeight)

/-- The request has been answered; `none` when it fails, and all that wait fail with it. -/
def answered (s : BlockhashPipeline) (i : Inflight) (result : Option LatestBlockhash) (now : ℚ) :
    BlockhashPipeline × List ReturnedBlockhash :=
  match result with
  | none => ({ s with blockhashInflight := none }, [])
  | some result =>
    match s.forkedFrom result with
    | some c =>
      ({ s with blockhashInflight := none },
        List.replicate i.waiting ⟨c, now, s.primaryConnection⟩)
    | none =>
      let cached : CachedBlockhash :=
        { result with fetchedAt := now, connection := i.connection }
      ({ s with cachedBlockhash := some cached, blockhashInflight := none },
        List.replicate i.waiting ⟨cached, now, s.primaryConnection⟩)

/-- A connection that is new to the engine. -/
def updateConnection (s : BlockhashPipeline) : BlockhashPipeline :=
  { s with primaryConnection := s.primaryConnection + 1, cachedBlockhash := none }

def step (s : BlockhashPipeline) : BlockhashAction →
    Option (BlockhashPipeline × List ReturnedBlockhash)
  | .getBlockhash forceRefresh now => some (s.getBlockhash forceRefresh now)
  | .refresh => some (s.refreshBlockhash 0, [])
  | .answered result now => s.blockhashInflight.map fun i => s.answered i result now
  | .updateConnection => some (s.updateConnection, [])

end BlockhashPipeline

/-- The engine from its constructor on, which starts with a refresh. -/
def blockhashPipeline : Machine BlockhashPipeline BlockhashAction ReturnedBlockhash where
  init := BlockhashPipeline.refreshBlockhash {} 0
  step := BlockhashPipeline.step

namespace BlockhashPipeline

/-! ## What is promised -/

/-- Not older than the lifetime, and from the current connection. -/
structure FreshReturn (r : ReturnedBlockhash) : Prop where
  young : r.now - r.blockhash.fetchedAt ≤ BLOCKHASH_MAX_AGE_MS
  current : r.blockhash.connection = r.connection

/-- What has been returned was fresh, and so is what a call would be answered with now. -/
structure NeverStale (s : BlockhashPipeline) (h : List ReturnedBlockhash) : Prop where
  returned : ∀ r ∈ h, FreshReturn r
  next : ∀ forceRefresh now, ∀ r ∈ (s.getBlockhash forceRefresh now).2,
    FreshReturn r

/-- An answer that is cached comes from the current connection; a fork that is rejected while
calls wait finds a cached blockhash that is not older than the lifetime. -/
def AnswersInTime (s : BlockhashPipeline) (_ : List ReturnedBlockhash) : BlockhashAction → Prop
  | .answered (some result) now => ∀ i, s.blockhashInflight = some i →
    match s.forkedFrom result with
    | none => i.connection = s.primaryConnection
    | some c => 0 < i.waiting → now - c.fetchedAt ≤ BLOCKHASH_MAX_AGE_MS
  | _ => True

/-! ## Steps -/

variable {s s' : BlockhashPipeline} {h es : List ReturnedBlockhash}

/-- The cached blockhash is from the current connection. -/
def CacheCurrent (s : BlockhashPipeline) : Prop :=
  ∀ c, s.cachedBlockhash = some c → c.connection = s.primaryConnection

/-- What has been returned was fresh, and the cache is from the current connection. -/
structure BlockhashInv (s : BlockhashPipeline) (h : List ReturnedBlockhash) : Prop where
  returned : ∀ r ∈ h, FreshReturn r
  cache : CacheCurrent s

theorem young_of_youngBlockhash {now : ℚ} {c : CachedBlockhash}
    (hc : s.youngBlockhash now = some c) :
    s.cachedBlockhash = some c ∧ now - c.fetchedAt ≤ BLOCKHASH_MAX_AGE_MS := by
  obtain ⟨hcached, hyoung⟩ := Option.filter_eq_some_iff.mp hc
  exact ⟨hcached, (of_decide_eq_true hyoung).le⟩

/-- A call that is answered from the cache returns the cached blockhash while it is young. -/
theorem mem_getBlockhash {forceRefresh : Bool} {now : ℚ} {r : ReturnedBlockhash}
    (hr : r ∈ (s.getBlockhash forceRefresh now).2) :
    s.cachedBlockhash = some r.blockhash ∧ r.connection = s.primaryConnection ∧
      r.now - r.blockhash.fetchedAt ≤ BLOCKHASH_MAX_AGE_MS := by
  unfold getBlockhash at hr
  split at hr
  · next c hc =>
    obtain rfl := List.mem_singleton.mp hr
    have hyoung : s.youngBlockhash now = some c := by
      cases forceRefresh with
      | true => cases hc
      | false => exact hc
    exact ⟨(young_of_youngBlockhash hyoung).1, rfl, (young_of_youngBlockhash hyoung).2⟩
  · exact absurd hr List.not_mem_nil

/-- A cached blockhash is handed out at the moment it was fetched at. -/
theorem returned_at_once {c : CachedBlockhash} (hc : s.cachedBlockhash = some c) :
    ⟨c, c.fetchedAt, s.primaryConnection⟩ ∈ (s.getBlockhash false c.fetchedAt).2 := by
  have hyoung : s.youngBlockhash c.fetchedAt = some c := by
    refine Option.filter_eq_some_iff.mpr ⟨hc, decide_eq_true ?_⟩
    rw [sub_self]
    unfold BLOCKHASH_MAX_AGE_MS
    norm_num
  unfold getBlockhash
  rw [if_neg Bool.false_ne_true, hyoung]
  exact List.mem_singleton_self _

/-- Fresh from now on is to have a cache from the current connection. -/
theorem neverStale_iff_inv : NeverStale s h ↔ BlockhashInv s h := by
  constructor
  · intro hnever
    refine ⟨hnever.returned, fun c hc => ?_⟩
    exact (hnever.next false c.fetchedAt _ (returned_at_once hc)).current
  · intro hI
    refine ⟨hI.returned, fun forceRefresh now r hr => ?_⟩
    obtain ⟨hcached, hconn, hyoung⟩ := mem_getBlockhash hr
    exact ⟨hyoung, (hI.cache _ hcached).trans hconn.symm⟩

theorem refreshBlockhash_same (s : BlockhashPipeline) (waiting : ℕ) :
    (s.refreshBlockhash waiting).cachedBlockhash = s.cachedBlockhash ∧
      (s.refreshBlockhash waiting).primaryConnection = s.primaryConnection := by
  unfold refreshBlockhash
  split
  · exact ⟨rfl, rfl⟩
  · exact ⟨rfl, rfl⟩

theorem CacheCurrent.of_same (hC : CacheCurrent s) (hcache : s'.cachedBlockhash = s.cachedBlockhash)
    (hconn : s'.primaryConnection = s.primaryConnection) : CacheCurrent s' := by
  intro c hc
  rw [hconn]
  exact hC c (hcache.symm.trans hc)

theorem getBlockhash_same (s : BlockhashPipeline) (forceRefresh : Bool) (now : ℚ) :
    (s.getBlockhash forceRefresh now).1.cachedBlockhash = s.cachedBlockhash ∧
      (s.getBlockhash forceRefresh now).1.primaryConnection = s.primaryConnection := by
  unfold getBlockhash
  split
  · exact ⟨rfl, rfl⟩
  · exact refreshBlockhash_same s 1

/-- A step that returns what is fresh keeps the invariant if the cache stays current. -/
theorem BlockhashInv.extend (hI : BlockhashInv s h) (hes : ∀ r ∈ es, FreshReturn r)
    (hcache : CacheCurrent s') : BlockhashInv s' (h ++ es) := by
  refine ⟨fun r hr => ?_, hcache⟩
  rcases List.mem_append.mp hr with hold | hnew
  · exact hI.returned r hold
  · exact hes r hnew

/-- Without an answer that is cached or handed out, the invariant stays. -/
theorem BlockhashInv.quiet (hI : BlockhashInv s h)
    (hcache : s'.cachedBlockhash = s.cachedBlockhash)
    (hconn : s'.primaryConnection = s.primaryConnection) : BlockhashInv s' (h ++ []) :=
  hI.extend (fun _ hr => absurd hr List.not_mem_nil) (hI.cache.of_same hcache hconn)

/-- A call. -/
theorem BlockhashInv.called (hI : BlockhashInv s h) (forceRefresh : Bool) (now : ℚ) :
    BlockhashInv (s.getBlockhash forceRefresh now).1
      (h ++ (s.getBlockhash forceRefresh now).2) := by
  obtain ⟨hcache, hconn⟩ := getBlockhash_same s forceRefresh now
  exact hI.extend (fun r hr => (neverStale_iff_inv.mpr hI).next forceRefresh now r hr)
    (hI.cache.of_same hcache hconn)

/-- A switch empties the cache. -/
theorem BlockhashInv.switched (hI : BlockhashInv s h) :
    BlockhashInv s.updateConnection (h ++ []) :=
  hI.extend (fun _ hr => absurd hr List.not_mem_nil) fun _ hc => (by cases hc)

/-- A fork is rejected: what is handed out is the cached blockhash. -/
theorem answered_fork {i : Inflight} {result : LatestBlockhash} {c : CachedBlockhash}
    (hfork : s.forkedFrom result = some c) (now : ℚ) :
    s.answered i (some result) now = ({ s with blockhashInflight := none },
      List.replicate i.waiting ⟨c, now, s.primaryConnection⟩) := by
  unfold answered
  simp only [hfork]

/-- An answer is cached and handed out. -/
theorem answered_cached {i : Inflight} {result : LatestBlockhash}
    (hfork : s.forkedFrom result = none) (now : ℚ) :
    s.answered i (some result) now =
      ({ s with
          cachedBlockhash :=
            some { result with fetchedAt := now, connection := i.connection }
          blockhashInflight := none },
        List.replicate i.waiting
          ⟨{ result with fetchedAt := now, connection := i.connection }, now,
            s.primaryConnection⟩) := by
  unfold answered
  simp only [hfork]

/-- A rejected fork is as promised exactly if nobody waits or the cached blockhash is not too
old. -/
theorem BlockhashInv.forked (hI : BlockhashInv s h) {i : Inflight} {c : CachedBlockhash}
    {result : LatestBlockhash} (hfork : s.forkedFrom result = some c) (now : ℚ) :
    ((0 < i.waiting → now - c.fetchedAt ≤ BLOCKHASH_MAX_AGE_MS) ∧
        BlockhashInv (s.answered i (some result) now).1
          (h ++ (s.answered i (some result) now).2)) ∨
      (¬ (0 < i.waiting → now - c.fetchedAt ≤ BLOCKHASH_MAX_AGE_MS) ∧
        ¬ NeverStale (s.answered i (some result) now).1
          (h ++ (s.answered i (some result) now).2)) := by
  have hcached := (Option.filter_eq_some_iff.mp hfork).1
  rw [answered_fork hfork]
  by_cases hyoung : 0 < i.waiting → now - c.fetchedAt ≤ BLOCKHASH_MAX_AGE_MS
  · refine .inl ⟨hyoung, hI.extend (fun r hr => ?_) (hI.cache.of_same rfl rfl)⟩
    obtain ⟨hwaiting, rfl⟩ := List.mem_replicate.mp hr
    exact ⟨hyoung (Nat.pos_of_ne_zero hwaiting), hI.cache c hcached⟩
  · refine .inr ⟨hyoung, fun hnever => hyoung fun hwaiting => ?_⟩
    exact (hnever.returned _ (List.mem_append_right h
      (List.mem_replicate.mpr ⟨hwaiting.ne', rfl⟩))).young

/-- An answer that is cached is as promised exactly if it comes from the current connection. -/
theorem BlockhashInv.cached (hI : BlockhashInv s h) {i : Inflight} {result : LatestBlockhash}
    (hfork : s.forkedFrom result = none) (now : ℚ) :
    (i.connection = s.primaryConnection ∧
        BlockhashInv (s.answered i (some result) now).1
          (h ++ (s.answered i (some result) now).2)) ∨
      (¬ i.connection = s.primaryConnection ∧
        ¬ NeverStale (s.answered i (some result) now).1
          (h ++ (s.answered i (some result) now).2)) := by
  rw [answered_cached hfork]
  by_cases hcurrent : i.connection = s.primaryConnection
  · refine .inl ⟨hcurrent, hI.extend (fun r hr => ?_) fun c hc => ?_⟩
    · obtain ⟨-, rfl⟩ := List.mem_replicate.mp hr
      refine ⟨?_, hcurrent⟩
      show now - now ≤ _
      rw [sub_self]
      unfold BLOCKHASH_MAX_AGE_MS
      norm_num
    · obtain rfl := Option.some.inj hc
      exact hcurrent
  · refine .inr ⟨hcurrent, fun hnever => hcurrent ?_⟩
    exact (neverStale_iff_inv.mp hnever).cache _ rfl

theorem BlockhashInv.step {a : BlockhashAction} (hI : BlockhashInv s h)
    (hs : blockhashPipeline.step s a = some (s', es)) :
    (AnswersInTime s h a ∧ BlockhashInv s' (h ++ es)) ∨
      (¬ AnswersInTime s h a ∧ ¬ NeverStale s' (h ++ es)) := by
  cases a with
  | getBlockhash forceRefresh now =>
    obtain ⟨rfl, rfl⟩ := Machine.some_pair hs
    exact .inl ⟨trivial, hI.called forceRefresh now⟩
  | refresh =>
    obtain ⟨rfl, rfl⟩ := Machine.some_pair hs
    obtain ⟨hcache, hconn⟩ := refreshBlockhash_same s 0
    exact .inl ⟨trivial, hI.quiet hcache hconn⟩
  | updateConnection =>
    obtain ⟨rfl, rfl⟩ := Machine.some_pair hs
    exact .inl ⟨trivial, hI.switched⟩
  | answered result now =>
    obtain ⟨i, hi, heq⟩ := Option.map_eq_some_iff.mp hs
    cases result with
    | none =>
      obtain ⟨rfl, rfl⟩ := Prod.mk.inj heq
      exact .inl ⟨trivial, hI.quiet rfl rfl⟩
    | some result =>
      obtain ⟨rfl, rfl⟩ : (s.answered i (some result) now).1 = s' ∧
          (s.answered i (some result) now).2 = es := Prod.mk.inj heq
      cases hfork : s.forkedFrom result with
      | some c =>
        have hcond : AnswersInTime s h (.answered (some result) now) ↔
            (0 < i.waiting → now - c.fetchedAt ≤ BLOCKHASH_MAX_AGE_MS) := by
          simp only [AnswersInTime, hi, hfork, Option.some.injEq, forall_eq']
        rw [hcond]
        exact hI.forked hfork now
      | none =>
        have hcond : AnswersInTime s h (.answered (some result) now) ↔
            i.connection = s.primaryConnection := by
          simp only [AnswersInTime, hi, hfork, Option.some.injEq, forall_eq']
        rw [hcond]
        exact hI.cached hfork now

theorem blockhashInv_init : BlockhashInv blockhashPipeline.init [] :=
  ⟨fun _ hr => absurd hr List.not_mem_nil, fun _ hc => (by cases hc)⟩

/-- **No stale blockhash.** Along every interleaving of calls, refreshes, answers and
connection switches, `getBlockhash` returns no blockhash that is older than the lifetime or from
a previous connection, nor would it at any point, exactly when every answer that is cached
comes from the current connection, and every fork that is rejected while calls wait finds a
cached blockhash that is not older than the lifetime. -/
theorem neverStale_iff (as : List BlockhashAction) :
    blockhashPipeline.Always (fun s h => NeverStale s h) blockhashPipeline.init [] as ↔
      blockhashPipeline.Along AnswersInTime blockhashPipeline.init [] as :=
  Machine.always_iff_along_of_step (I := BlockhashInv) (fun hI => neverStale_iff_inv.mpr hI)
    (fun hI hs => hI.step hs) blockhashInv_init as

/-- The connection is replaced while the first request is in flight, and `getBlockhash` is
called after its answer. -/
def switchedInFlight : List BlockhashAction :=
  [.updateConnection, .answered (some ⟨"old", 100⟩) 10, .getBlockhash false 20]

/-- A fork is reported, a minute after the last blockhash was fetched, to a call that waits. -/
def forkAfterAMinute : List BlockhashAction :=
  [.answered (some ⟨"hash", 100⟩) 0, .getBlockhash false 60000,
    .answered (some ⟨"stale", 50⟩) 60000]

/-- The blockhash of the previous connection is returned, and one that is a minute old. -/
theorem stale_returned :
    (∃ s r, blockhashPipeline.run switchedInFlight = some (s, [r]) ∧
        r.blockhash.connection = 0 ∧ r.connection = 1 ∧ ¬ NeverStale s [r]) ∧
      ∃ s r, blockhashPipeline.run forkAfterAMinute = some (s, [r]) ∧
        r.now - r.blockhash.fetchedAt = 60000 ∧ ¬ NeverStale s [r] := by
  constructor
  · refine ⟨⟨1, some ⟨⟨"old", 100⟩, 10, 0⟩, none⟩, ⟨⟨⟨"old", 100⟩, 10, 0⟩, 20, 1⟩,
      by decide +kernel, rfl, rfl, fun hnever => ?_⟩
    exact absurd (hnever.returned _ (List.mem_singleton_self _)).current (by decide)
  · refine ⟨⟨0, some ⟨⟨"hash", 100⟩, 0, 0⟩, none⟩, ⟨⟨⟨"hash", 100⟩, 0, 0⟩, 60000, 0⟩,
      by decide +kernel, by norm_num, fun hnever => ?_⟩
    exact absurd (hnever.returned _ (List.mem_singleton_self _)).young (by decide +kernel)

end BlockhashPipeline

end FlashEdge
