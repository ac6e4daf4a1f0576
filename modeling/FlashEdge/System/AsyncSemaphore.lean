import FlashEdge.Theory.Machine
import Mathlib.Algebra.Order.Ring.Int
import Mathlib.Data.List.Basic

/-!
# Permits for concurrent operations (`system/backpressure.ts`)

`AsyncSemaphore` hands out permits. An acquire that finds none waits in a queue. The release
function of a permit gives it back once, however often it is called, and the permit goes on to
the first one of the queue.

- `Sound`: what holds between any two calls: no permit is lost or made up, there is no waiting
  while a permit is free, and whoever asked first was served first.
- `semaphore`: the calls in any order, as a machine.
- `Call`: a call with the calls that a waiter makes from inside its wake-up.
- `sound_performAll`: every interleaving of such calls keeps `Sound`.
-/

namespace FlashEdge

universe u

/-- The permits, those who wait, and the flag `released` of every release function that has been
created. -/
structure AsyncSemaphore (ι : Type u) where
  permits : ℤ
  waitQueue : List ι
  released : List Bool

namespace AsyncSemaphore

/-- What callers see. Release functions are numbered as they are created. -/
inductive Event (ι : Type u) where
  | asked (caller : ι)
  | granted (caller : ι) (release : ℕ)
  | tried (release : Option ℕ)
  | called (release : ℕ)

variable {ι : Type u}

def new (maxConcurrency : ℕ) : AsyncSemaphore ι :=
  { permits := maxConcurrency, waitQueue := [], released := [] }

def createRelease (s : AsyncSemaphore ι) : AsyncSemaphore ι :=
  { s with released := s.released ++ [false] }

/-- `this.permits--`, with a release function for the permit. -/
def take (s : AsyncSemaphore ι) : AsyncSemaphore ι :=
  { s with permits := s.permits - 1 }.createRelease

def acquire (s : AsyncSemaphore ι) (caller : ι) : AsyncSemaphore ι × List (Event ι) :=
  if 0 < s.permits then (s.take, [.asked caller, .granted caller s.released.length])
  else ({ s with waitQueue := s.waitQueue ++ [caller] }, [.asked caller])

def tryAcquire (s : AsyncSemaphore ι) : AsyncSemaphore ι × List (Event ι) :=
  if 0 < s.permits then (s.take, [.tried (some s.released.length)])
  else (s, [.tried none])

/-- The release function `f` is called for the first time. -/
def giveBack (s : AsyncSemaphore ι) (f : ℕ) : AsyncSemaphore ι :=
  { s with permits := s.permits + 1, released := s.released.set f true }

/-- The next waiter is woken, if there is one: it takes the permit. -/
def wake (s : AsyncSemaphore ι) : AsyncSemaphore ι × List (Event ι) :=
  match s.waitQueue with
  | [] => (s, [])
  | next :: rest => ({ s with waitQueue := rest }.take, [.granted next s.released.length])

/-- A release function is called, and wakes the next waiter. -/
def release (s : AsyncSemaphore ι) (f : ℕ) : AsyncSemaphore ι × List (Event ι) :=
  if s.released[f]? = some false then
    ((s.giveBack f).wake.1, .called f :: (s.giveBack f).wake.2)
  else (s, [.called f])

inductive Action (ι : Type u) where
  | acquire (caller : ι)
  | tryAcquire
  | release (f : ℕ)

/-- The calls in any order; only a function that has been created can be called. -/
def semaphore (maxConcurrency : ℕ) : Machine (AsyncSemaphore ι) (Action ι) (Event ι) where
  init := new maxConcurrency
  step s
    | .acquire caller => some (s.acquire caller)
    | .tryAcquire => some s.tryAcquire
    | .release f => if f < s.released.length then some (s.release f) else none

/-! ## What a history says -/

/-- Who has asked, in order. -/
def asked (h : List (Event ι)) : List ι :=
  h.filterMap fun e => match e with
    | .asked caller => some caller
    | _ => none

/-- Who has been served, in order. -/
def served (h : List (Event ι)) : List ι :=
  h.filterMap fun e => match e with
    | .granted caller _ => some caller
    | _ => none

/-- The release functions that have been handed out, in order. -/
def handedOut (h : List (Event ι)) : List ℕ :=
  h.filterMap fun e => match e with
    | .granted _ f => some f
    | .tried f => f
    | _ => none

/-- Whether a release function has been called. -/
def isCalled (h : List (Event ι)) (f : ℕ) : Bool :=
  h.any fun e => match e with
    | .called g => g = f
    | _ => false

/-- The permits that are held: their release functions have been handed out, and not called. -/
def held (h : List (Event ι)) : List ℕ := (handedOut h).filter fun f => !isCalled h f

@[simp] theorem asked_append (h es : List (Event ι)) : asked (h ++ es) = asked h ++ asked es :=
  List.filterMap_append ..

@[simp] theorem served_append (h es : List (Event ι)) :
    served (h ++ es) = served h ++ served es :=
  List.filterMap_append ..

@[simp] theorem handedOut_append (h es : List (Event ι)) :
    handedOut (h ++ es) = handedOut h ++ handedOut es :=
  List.filterMap_append ..

@[simp] theorem isCalled_append (h es : List (Event ι)) (f : ℕ) :
    isCalled (h ++ es) f = (isCalled h f || isCalled es f) :=
  List.any_append ..

/-! ## The invariant -/

/-- Between any two calls. -/
structure Sound (maxConcurrency : ℕ) (s : AsyncSemaphore ι) (h : List (Event ι)) : Prop where
  conserved : s.permits + (held h).length = maxConcurrency
  nonneg : 0 ≤ s.permits
  waiting : s.waitQueue ≠ [] → s.permits = 0
  fifo : asked h = served h ++ s.waitQueue
  /-- every permit has a release function of its own -/
  handed : handedOut h = List.range s.released.length

/-- The flags say which of the functions have been called. -/
structure Books (s : AsyncSemaphore ι) (h : List (Event ι)) : Prop where
  handed : handedOut h = List.range s.released.length
  flags : ∀ f < s.released.length, s.released[f]? = some (isCalled h f)
  called_lt : ∀ f, isCalled h f = true → f < s.released.length

namespace Books

variable {s s' : AsyncSemaphore ι} {h es : List (Event ι)}

/-- Nothing is handed out or called. -/
theorem frame (hb : Books s h) (hreleased : s'.released = s.released)
    (hout : handedOut es = []) (hcalled : ∀ f, isCalled es f = false) : Books s' (h ++ es) where
  handed := by rw [handedOut_append, hout, List.append_nil, hb.handed, hreleased]
  flags f hf := by
    rw [hreleased] at hf ⊢
    rw [hb.flags f hf, isCalled_append, hcalled, Bool.or_false]
  called_lt f hf := by
    rw [isCalled_append, hcalled, Bool.or_false] at hf
    rw [hreleased]
    exact hb.called_lt f hf

/-- A permit is taken, and its release function handed out. -/
theorem take (hb : Books s h) (hout : handedOut es = [s.released.length])
    (hcalled : ∀ f, isCalled es f = false) : Books s.take (h ++ es) where
  handed := by
    show _ = List.range (s.released ++ [false]).length
    rw [handedOut_append, hout, hb.handed, List.length_append, List.length_singleton,
      List.range_succ]
  flags f hf := by
    have hlength : f < s.released.length + 1 := by
      simpa [AsyncSemaphore.take, createRelease] using hf
    show (s.released ++ [false])[f]? = _
    rw [isCalled_append, hcalled, Bool.or_false]
    rcases Nat.lt_succ_iff_lt_or_eq.mp hlength with hold | rfl
    · rw [List.getElem?_append_left hold, hb.flags f hold]
    · have hnew : isCalled h s.released.length = false :=
        Bool.eq_false_iff.mpr fun hc => absurd (hb.called_lt _ hc) (lt_irrefl _)
      rw [List.getElem?_concat_length, hnew]
  called_lt f hf := by
    rw [isCalled_append, hcalled, Bool.or_false] at hf
    show f < (s.released ++ [false]).length
    rw [List.length_append, List.length_singleton]
    exact Nat.lt_succ_of_lt (hb.called_lt f hf)

/-- A release function is called, for the first time or again. -/
theorem call (hb : Books s h) {f : ℕ} (hf : f < s.released.length)
    (hreleased : s'.released = s.released.set f true) : Books s' (h ++ [.called f]) where
  handed := by
    rw [handedOut_append, hb.handed, hreleased, List.length_set]
    exact List.append_nil _
  flags g hg := by
    rw [hreleased, List.length_set] at hg
    rw [hreleased, List.getElem?_set, isCalled_append]
    by_cases hgf : f = g
    · subst hgf
      simp [isCalled, hf]
    · simp [isCalled, hgf, hb.flags g hg]
  called_lt g hg := by
    rw [hreleased, List.length_set]
    rw [isCalled_append, Bool.or_eq_true] at hg
    rcases hg with hg | hg
    · exact hb.called_lt g hg
    · obtain rfl : f = g := by simpa [isCalled] using hg
      exact hf

theorem length_held (hb : Books s h) : (held h).length = s.released.count false := by
  have hflags : s.released = (List.range s.released.length).map (isCalled h) := by
    refine List.ext_getElem? fun f => ?_
    by_cases hf : f < s.released.length
    · rw [hb.flags f hf, List.getElem?_map, List.getElem?_range hf, Option.map_some]
    · rw [List.getElem?_eq_none (not_lt.mp hf),
        List.getElem?_eq_none (by simpa using not_lt.mp hf)]
  unfold held
  rw [hb.handed]
  conv_rhs => rw [hflags]
  rw [List.count, List.countP_map, List.countP_eq_length_filter]
  refine congrArg List.length (List.filter_congr fun f _ => ?_)
  show (!isCalled h f) = (isCalled h f == false)
  cases isCalled h f with
  | true => rfl
  | false => rfl

end Books

/-- The permits that are free and those that are held; who has asked and who has been served. -/
structure Inv (maxConcurrency : ℕ) (s : AsyncSemaphore ι) (h : List (Event ι)) : Prop where
  books : Books s h
  balance : s.permits + s.released.count false = maxConcurrency
  nonneg : 0 ≤ s.permits
  waiting : s.waitQueue ≠ [] → s.permits = 0
  fifo : asked h = served h ++ s.waitQueue

theorem count_take (s : AsyncSemaphore ι) :
    s.take.permits + s.take.released.count false = s.permits + s.released.count false := by
  show s.permits - 1 + ((s.released ++ [false]).count false : ℕ) = _
  rw [List.count_append, List.count_singleton_self]
  omega

theorem count_giveBack {s : AsyncSemaphore ι} {f : ℕ} (hf : s.released[f]? = some false) :
    (s.giveBack f).permits + (s.giveBack f).released.count false =
      s.permits + s.released.count false := by
  obtain ⟨hlt, hflag⟩ := List.getElem?_eq_some_iff.mp hf
  have hpos : 0 < s.released.count false := List.count_pos_iff.mpr (hflag ▸ List.getElem_mem hlt)
  show s.permits + 1 + ((s.released.set f true).count false : ℕ) = _
  rw [List.count_set hlt, hflag]
  simp only [beq_self_eq_true, if_true, Bool.true_beq, Bool.false_eq_true, if_false]
  omega

namespace Inv

variable {maxConcurrency : ℕ} {s : AsyncSemaphore ι} {h : List (Event ι)}

theorem init (maxConcurrency : ℕ) :
    Inv maxConcurrency (new maxConcurrency : AsyncSemaphore ι) [] where
  books := {
    handed := rfl
    flags := fun _ hf => absurd hf (Nat.not_lt_zero _)
    called_lt := fun _ hf => by cases hf }
  balance := add_zero _
  nonneg := Int.natCast_nonneg _
  waiting hne := absurd rfl hne
  fifo := rfl

/-- While a permit is free nobody waits. -/
theorem waitQueue_eq_nil (hI : Inv maxConcurrency s h) (hpos : 0 < s.permits) :
    s.waitQueue = [] := by
  by_contra hne
  exact hpos.ne' (hI.waiting hne)

theorem acquire (hI : Inv maxConcurrency s h) (caller : ι) :
    Inv maxConcurrency (s.acquire caller).1 (h ++ (s.acquire caller).2) := by
  unfold AsyncSemaphore.acquire
  split
  · next hpos =>
    have hnil := hI.waitQueue_eq_nil hpos
    refine ⟨hI.books.take rfl fun _ => rfl, (count_take s).trans hI.balance, ?_, ?_, ?_⟩
    · show 0 ≤ s.permits - 1
      omega
    · exact fun hne => absurd hnil hne
    · show asked (h ++ _) = served (h ++ _) ++ s.waitQueue
      rw [asked_append, served_append, hI.fifo, hnil, List.append_nil, List.append_nil]
      rfl
  · next hnone =>
    have hzero : s.permits = 0 := le_antisymm (not_lt.mp hnone) hI.nonneg
    refine ⟨hI.books.frame rfl rfl fun _ => rfl, hI.balance, hI.nonneg, fun _ => hzero, ?_⟩
    show asked (h ++ _) = served (h ++ _) ++ (s.waitQueue ++ [caller])
    rw [asked_append, served_append, hI.fifo]
    simp [asked, served]

theorem tryAcquire (hI : Inv maxConcurrency s h) :
    Inv maxConcurrency s.tryAcquire.1 (h ++ s.tryAcquire.2) := by
  unfold AsyncSemaphore.tryAcquire
  split
  · next hpos =>
    refine ⟨hI.books.take rfl fun _ => rfl, (count_take s).trans hI.balance, ?_, ?_, ?_⟩
    · show 0 ≤ s.permits - 1
      omega
    · exact fun hne => absurd (hI.waitQueue_eq_nil hpos) hne
    · show asked (h ++ _) = served (h ++ _) ++ s.waitQueue
      rw [asked_append, served_append, hI.fifo]
      simp [asked, served]
  · refine ⟨hI.books.frame rfl rfl fun _ => rfl, hI.balance, hI.nonneg, hI.waiting, ?_⟩
    rw [asked_append, served_append, hI.fifo]
    simp [asked, served]

/-- A permit that is given back goes on to the first who waits. -/
theorem release (hI : Inv maxConcurrency s h) {f : ℕ} (hf : f < s.released.length) :
    Inv maxConcurrency (s.release f).1 (h ++ (s.release f).2) := by
  unfold AsyncSemaphore.release
  split
  · next hfirst =>
    have hcall : Books (s.giveBack f) (h ++ [.called f]) := hI.books.call hf rfl
    have hbalance := (count_giveBack hfirst).trans hI.balance
    rw [show h ++ .called f :: (s.giveBack f).wake.2 = (h ++ [.called f]) ++ (s.giveBack f).wake.2
      by simp]
    unfold wake
    cases hqueue : s.waitQueue with
    | nil =>
      have hsame : (s.giveBack f).waitQueue = [] := hqueue
      simp only [hsame]
      refine ⟨by simpa using hcall, hbalance, ?_, fun hne => absurd hsame hne, ?_⟩
      · show 0 ≤ s.permits + 1
        have hpos := hI.nonneg
        omega
      · rw [hsame]
        simpa [asked, served, hqueue] using hI.fifo
    | cons next rest =>
      have hsame : (s.giveBack f).waitQueue = next :: rest := hqueue
      have hzero : s.permits = 0 := hI.waiting (by rw [hqueue]; exact List.cons_ne_nil _ _)
      simp only [hsame]
      refine ⟨?_, ?_, ?_, ?_, ?_⟩
      · have hshift : Books { s.giveBack f with waitQueue := rest } (h ++ [.called f]) :=
          ⟨hcall.handed, hcall.flags, hcall.called_lt⟩
        exact hshift.take rfl fun _ => rfl
      · exact (count_take { s.giveBack f with waitQueue := rest }).trans hbalance
      · show 0 ≤ s.permits + 1 - 1
        omega
      · intro _
        show s.permits + 1 - 1 = 0
        omega
      · have hfifo := hI.fifo
        rw [hqueue] at hfifo
        show asked ((h ++ _) ++ _) = served ((h ++ _) ++ _) ++ rest
        simp only [asked_append, served_append, hfifo]
        simp [asked, served]
  · next hagain =>
    -- its flag is set already
    have htrue : s.released[f]? = some true := by
      rw [hI.books.flags f hf] at hagain ⊢
      cases hcalled : isCalled h f with
      | true => rfl
      | false => exact absurd (by rw [hcalled]) hagain
    obtain ⟨_, hflag⟩ := List.getElem?_eq_some_iff.mp htrue
    have hset : s.released = s.released.set f true := by
      rw [← hflag, List.set_getElem_self]
    refine ⟨hI.books.call hf hset, hI.balance, hI.nonneg, hI.waiting, ?_⟩
    rw [asked_append, served_append, hI.fifo]
    simp [asked, served]

theorem step (hI : Inv maxConcurrency s h) {s' : AsyncSemaphore ι} {es : List (Event ι)}
    {a : Action ι} (hs : (semaphore maxConcurrency).step s a = some (s', es)) :
    Inv maxConcurrency s' (h ++ es) := by
  cases a with
  | acquire caller =>
    obtain ⟨rfl, rfl⟩ := Machine.some_pair hs
    exact hI.acquire caller
  | tryAcquire =>
    obtain ⟨rfl, rfl⟩ := Machine.some_pair hs
    exact hI.tryAcquire
  | release f =>
    obtain ⟨hf, hs⟩ := Option.ite_none_right_eq_some.mp hs
    obtain ⟨rfl, rfl⟩ := Machine.some_pair hs
    exact hI.release hf

theorem sound (hI : Inv maxConcurrency s h) : Sound maxConcurrency s h where
  conserved := by rw [hI.books.length_held, hI.balance]
  nonneg := hI.nonneg
  waiting := hI.waiting
  fifo := hI.fifo
  handed := hI.books.handed

end Inv

theorem inv_of_reachable {maxConcurrency : ℕ} {s : AsyncSemaphore ι} {h : List (Event ι)}
    (hr : (semaphore maxConcurrency).Reachable s h) : Inv maxConcurrency s h :=
  Machine.Reachable.invariant (Inv.init maxConcurrency) (fun hI hs => hI.step hs) hr

/-! ## Calls within calls -/

/-- A call, with the calls that the waiter it wakes makes from inside its wake-up. -/
inductive Call (ι : Type u) where
  | acquire (caller : ι)
  | tryAcquire
  | release (f : ℕ) (inside : List (Call ι))

/-- A call wakes a waiter. -/
def wakes (s : AsyncSemaphore ι) (f : ℕ) : Bool :=
  s.released[f]? = some false && !s.waitQueue.isEmpty

mutual

/-- The call, up to its return. -/
def perform : Call ι → AsyncSemaphore ι × List (Event ι) → AsyncSemaphore ι × List (Event ι)
  | .acquire caller, p => ((p.1.acquire caller).1, p.2 ++ (p.1.acquire caller).2)
  | .tryAcquire, p => (p.1.tryAcquire.1, p.2 ++ p.1.tryAcquire.2)
  | .release f inside, p =>
    if f < p.1.released.length then
      let next := ((p.1.release f).1, p.2 ++ (p.1.release f).2)
      -- the waiter runs before the call returns
      if p.1.wakes f then performAll inside next else next
    else p

/-- One call after another. -/
def performAll : List (Call ι) → AsyncSemaphore ι × List (Event ι) →
    AsyncSemaphore ι × List (Event ι)
  | [], p => p
  | call :: calls, p => performAll calls (perform call p)

end

/-- Calls, within each other or not, take place one after another. -/
theorem reachable_perform {maxConcurrency : ℕ} (call : Call ι) :
    ∀ p, (semaphore maxConcurrency).Reachable p.1 p.2 →
      (semaphore maxConcurrency).Reachable (perform call p).1 (perform call p).2 := by
  refine @Call.rec ι
    (fun call => ∀ p, (semaphore maxConcurrency).Reachable p.1 p.2 →
      (semaphore maxConcurrency).Reachable (perform call p).1 (perform call p).2)
    (fun calls => ∀ p, (semaphore maxConcurrency).Reachable p.1 p.2 →
      (semaphore maxConcurrency).Reachable (performAll calls p).1 (performAll calls p).2)
    ?_ ?_ ?_ ?_ ?_ call
  · intro caller p hr
    rw [perform]
    exact hr.step (a := .acquire caller) rfl
  · intro p hr
    rw [perform]
    exact hr.step (a := .tryAcquire) rfl
  · intro f inside ih p hr
    rw [perform]
    split
    · next hf =>
      have hstep : (semaphore maxConcurrency).step p.1 (.release f) = some (p.1.release f) :=
        if_pos hf
      have hnext := hr.step hstep
      dsimp only
      split
      · exact ih _ hnext
      · exact hnext
    · exact hr
  · intro p hr
    rw [performAll]
    exact hr
  · intro call calls ihcall ihcalls p hr
    rw [performAll]
    exact ihcalls _ (ihcall p hr)

/-- **Every interleaving is sound**: permits are neither lost nor made up, there is no waiting
while one is free, and who asked first was served first. -/
theorem sound_performAll (maxConcurrency : ℕ) (calls : List (Call ι)) :
    Sound maxConcurrency (performAll calls (new maxConcurrency, [])).1
      (performAll calls (new maxConcurrency, [])).2 := by
  have hreach : ∀ p, (semaphore maxConcurrency).Reachable p.1 p.2 →
      (semaphore maxConcurrency).Reachable (performAll calls p).1 (performAll calls p).2 := by
    induction calls with
    | nil =>
      intro p hr
      rw [performAll]
      exact hr
    | cons call calls ih =>
      intro p hr
      rw [performAll]
      exact ih _ (reachable_perform call p hr)
  exact (inv_of_reachable (hreach (new maxConcurrency, []) Machine.Reachable.init)).sound

end AsyncSemaphore

end FlashEdge
