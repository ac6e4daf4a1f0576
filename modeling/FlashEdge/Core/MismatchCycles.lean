import FlashEdge.Theory.Machine
import FlashEdge.Core.StateReconciler

/-!
# When the reconciler gives positions up

A wrong answer of the network must not empty the last known set, so a smaller
set is taken over only after mismatch cycles in a row. The counter in the code is
`mismatchCycles`, the streak of shortfalls in the past (`cycles_eq`), and
`shrinks_after_three` reads off what it guards: `reconcile` replaces the last
known set by a smaller one only at a third shortfall or later.

The guard is about numbers of positions and about `reconcile` alone. Positions
that appear are taken over at once (`not_changes_settled`).
-/

namespace FlashEdge

namespace StateReconciler

/-! ## Every change after three disagreements -/

def Event.disagrees : Event → Bool
  | .fetched agrees => !agrees
  | _ => false

def Event.agrees : Event → Bool
  | .fetched agrees => agrees
  | _ => false

/-- A stored set with other positions than the last known set comes after three
fetches in a row that disagreed with it. -/
def ChangeSettled (h : List Event) : Event → Prop
  | .stored _ _ before after =>
    ¬ (before ⊆ after ∧ after ⊆ before) → 3 ≤ streak Event.disagrees Event.agrees h
  | _ => True

/-- A long position in SOL is known, and a fetch also has one in BTC. -/
def newPosition : List Action :=
  let pos (market : String) : Position :=
    { market, side := .Long, sizeUsd := .finite 100, entryPrice := .finite 80,
      collateralUsd := .finite 10 }
  [.reconcile 0, .answer 0 (some [pos "SOL"]),
    .reconcile 60000, .answer 1 (some [pos "SOL", pos "BTC"])]

/-- The new position is taken over after the one fetch that has it. -/
theorem not_changes_settled : ∃ e h, reconciler.Reachable e h ∧ ¬ Each ChangeSettled h := by
  let known : ReconciliationResult :=
    { hadDiscrepancy := true, onChainCount := 1, added := ["SOL:long"], removed := []
      timestamp := 0 }
  let grown : ReconciliationResult :=
    { hadDiscrepancy := true, onChainCount := 2, added := ["BTC:long"], removed := []
      timestamp := 60000 }
  let pre : List Event := [.fetched false, .atLeastAsMany, .stored .reconcile 0 [] ["SOL:long"],
    .reconciled known, .fetched false, .atLeastAsMany]
  have hrun : (reconciler.run newPosition).map Prod.snd =
      some (pre ++ .stored .reconcile 0 ["SOL:long"] ["SOL:long", "BTC:long"] ::
        [.reconciled grown]) := by
    decide +kernel
  obtain ⟨⟨e, h⟩, he, hh⟩ := Option.map_eq_some_iff.mp hrun
  refine ⟨e, h, Machine.reachable_of_run he, fun hall => ?_⟩
  have hsettled : ¬ _ → 3 ≤ streak Event.disagrees Event.agrees pre := hall.of_split hh
  exact absurd (hsettled (by decide)) (by decide)

/-! ## The counter -/

def Event.isShortfall : Event → Bool
  | .shortfall _ _ => true
  | _ => false

/-- What starts the count of mismatch cycles again. -/
def Event.restarts : Event → Bool
  | .atLeastAsMany => true
  | .clientSet _ => true
  | _ => false

/-- The mismatch cycles in a row. -/
def mismatchCycles (h : List Event) : ℕ := streak Event.isShortfall Event.restarts h

/-- A smaller set stored by `reconcile` comes at the third mismatch cycle in a
row or later, and a retry that is counted had fewer positions than were known. -/
def ShrinkSettled (h : List Event) : Event → Prop
  | .stored .reconcile _ before after => after.length < before.length → 3 ≤ mismatchCycles h
  | .shortfall known retried => ∀ n, retried = some n → n < known
  | _ => True

/-- A step of the reconciler, seen from the counter: its events count to the new
value, and each of them is settled. -/
def Settles (e e' : StateReconciler) (es : List Event) : Prop :=
  ∀ h, e.consecutiveMismatchCycles = mismatchCycles h → Each ShrinkSettled h →
    e'.consecutiveMismatchCycles = mismatchCycles (h ++ es) ∧ Each ShrinkSettled (h ++ es)

/-- Events that neither count, nor restart, nor store by `reconcile`. -/
theorem settles_of_silent {e e' : StateReconciler} {es : List Event}
    (hcount : e'.consecutiveMismatchCycles = e.consecutiveMismatchCycles)
    (hes : ∀ ev ∈ es, ev.isShortfall = false ∧ ev.restarts = false ∧
      ∀ h, ShrinkSettled h ev) : Settles e e' es := by
  intro h hc hh
  refine ⟨?_, hh.append_of_forall fun pre ev hev => (hes ev hev).2.2 pre⟩
  rw [hcount, hc, mismatchCycles, mismatchCycles, streak_append]
  clear hh hc
  -- by induction on the events: none of them moves the streak
  generalize streak Event.isShortfall Event.restarts h = n
  induction es with
  | nil => rfl
  | cons ev es ih =>
    obtain ⟨hshort, hrestart, -⟩ := hes ev List.mem_cons_self
    have hsame : nextStreak Event.isShortfall Event.restarts n ev = n := by
      simp [nextStreak, hshort, hrestart]
    rw [List.foldl_cons, hsame]
    exact ih fun ev hev => hes ev (List.mem_cons_of_mem _ hev)

theorem Settles.trans {e₁ e₂ e₃ : StateReconciler} {es fs : List Event}
    (h₁ : Settles e₁ e₂ es) (h₂ : Settles e₂ e₃ fs) : Settles e₁ e₃ (es ++ fs) := by
  intro h hc hh
  obtain ⟨hc₂, hh₂⟩ := h₁ h hc hh
  have hrest := h₂ _ hc₂ hh₂
  rwa [List.append_assoc] at hrest

/-- A restart sets the counter back. -/
theorem settles_restart {e e' : StateReconciler} {ev : Event}
    (hcount : e'.consecutiveMismatchCycles = 0) (hev : ev.restarts = true)
    (hsettled : ∀ h, ShrinkSettled h ev) : Settles e e' [ev] := by
  intro h hc hh
  refine ⟨?_, hh.snoc (hsettled h)⟩
  rw [hcount, mismatchCycles, streak_append]
  simp [nextStreak, hev]

/-- A shortfall counts one more. -/
theorem settles_shortfall {e e' : StateReconciler} {known : ℕ} {retried : Option ℕ}
    (hcount : e'.consecutiveMismatchCycles = e.consecutiveMismatchCycles + 1)
    (hfewer : ∀ n, retried = some n → n < known) :
    Settles e e' [.shortfall known retried] := by
  intro h hc hh
  refine ⟨?_, hh.snoc hfewer⟩
  rw [hcount, hc, mismatchCycles, mismatchCycles, streak_append]
  simp [nextStreak, Event.isShortfall, Event.restarts]

/-- Storing by `reconcile` is settled when a smaller set finds the counter at
three. -/
theorem settles_stored {e e' : StateReconciler} {client : ℕ} {before after : List String}
    (hcount : e'.consecutiveMismatchCycles = e.consecutiveMismatchCycles)
    (hok : after.length < before.length → 3 ≤ e.consecutiveMismatchCycles) :
    Settles e e' [.stored .reconcile client before after] := by
  intro h hc hh
  constructor
  · rw [hcount, hc, mismatchCycles, mismatchCycles, streak_append]
    rfl
  · refine hh.snoc fun hsmaller => ?_
    rw [← hc]
    exact hok hsmaller

theorem settles_reconciled {e e' : StateReconciler}
    (hcount : e'.consecutiveMismatchCycles = e.consecutiveMismatchCycles)
    (result : ReconciliationResult) : Settles e e' [.reconciled result] := by
  refine settles_of_silent hcount fun ev hev => ?_
  rw [List.mem_singleton] at hev
  exact hev ▸ ⟨rfl, rfl, fun _ => trivial⟩

theorem settles_acceptOnChain (e : StateReconciler) (now : ℚ) (client : ℕ)
    (onChainMap : OrderedMap String Position)
    (hok : e.lastKnownPositions.size ≤ onChainMap.size ∨
      MISMATCH_CYCLES_BEFORE_REMOVAL ≤ e.consecutiveMismatchCycles) :
    Settles e (e.acceptOnChain now client onChainMap).1
      (e.acceptOnChain now client onChainMap).2 := by
  have hstored : Settles e (e.acceptOnChain now client onChainMap).1
      [.stored .reconcile client e.lastKnownPositions.keys onChainMap.keys] := by
    refine settles_stored rfl fun hsmaller => ?_
    rw [OrderedMap.length_keys, OrderedMap.length_keys] at hsmaller
    rcases hok with hsize | hcycles
    · omega
    · exact hcycles
  exact hstored.trans (settles_reconciled rfl _)

/-! ## Every step settles -/

theorem settles_fetched (e : StateReconciler) (agrees : Bool) : Settles e e [.fetched agrees] := by
  refine settles_of_silent rfl fun ev hev => ?_
  rw [List.mem_singleton] at hev
  exact hev ▸ ⟨rfl, rfl, fun _ => trivial⟩

theorem settles_quiet {e e' : StateReconciler}
    (hcount : e'.consecutiveMismatchCycles = e.consecutiveMismatchCycles) : Settles e e' [] :=
  settles_of_silent hcount fun _ hev => nomatch hev

theorem settles_reconcileFetched (e : StateReconciler) (id : ℕ) (now : ℚ) (client : ℕ)
    (answer : Option (List Position)) :
    Settles e (e.reconcileFetched id now client answer).1
      (e.reconcileFetched id now client answer).2 := by
  unfold reconcileFetched
  cases answer with
  | none => exact settles_reconciled rfl _
  | some positions =>
    dsimp only
    split
    · exact (settles_fetched e _).trans (settles_quiet rfl)
    · next hsize =>
      -- the count starts again, and the set that is stored is not smaller
      let e₀ : StateReconciler :=
        { e with reconcileWarningShown := false, consecutiveMismatchCycles := 0 }
      have hrestart : Settles e (e₀.endCall id) [.atLeastAsMany] :=
        settles_restart rfl rfl fun _ => trivial
      have haccept := settles_acceptOnChain (e₀.endCall id) now client (onChainMapOf positions)
        (.inl (Nat.le_of_not_lt hsize))
      exact (settles_fetched e _).trans (hrestart.trans haccept)

theorem settles_mismatchPersists (e : StateReconciler) (id : ℕ) (now : ℚ) (client : ℕ)
    (onChainMap : OrderedMap String Position) (retried : Option ℕ)
    (hfewer : ∀ n, retried = some n → n < e.lastKnownPositions.size) :
    Settles e (e.mismatchPersists id now client onChainMap retried).1
      (e.mismatchPersists id now client onChainMap retried).2 := by
  -- the shortfall is counted before the limit is looked at
  let e₁ : StateReconciler :=
    { e with
      consecutiveMismatchCycles := e.consecutiveMismatchCycles + 1
      reconcileWarningShown := true }
  have hshort : Settles e (e₁.endCall id) [.shortfall e.lastKnownPositions.size retried] :=
    settles_shortfall rfl hfewer
  unfold mismatchPersists
  dsimp only
  split
  · exact hshort.trans (settles_reconciled rfl _)
  · next hcycles =>
    exact hshort.trans (settles_acceptOnChain (e₁.endCall id) now client onChainMap
      (.inr (Nat.le_of_not_lt hcycles)))

theorem settles_reconcileRetried (e : StateReconciler) (id : ℕ) (now : ℚ) (client : ℕ)
    (onChainMap : OrderedMap String Position) (retryClient : ℕ)
    (answer : Option (List Position)) :
    Settles e (e.reconcileRetried id now client onChainMap retryClient answer).1
      (e.reconcileRetried id now client onChainMap retryClient answer).2 := by
  unfold reconcileRetried
  cases answer with
  | none => exact settles_mismatchPersists e id now client onChainMap none fun _ h => nomatch h
  | some positions =>
    dsimp only
    split
    · next hsize =>
      -- the retry is stored instead of the first fetch, and is not smaller either
      let e₀ : StateReconciler :=
        { e.endCall id with
          reconcileWarningShown := false
          consecutiveMismatchCycles := 0
          lastKnownPositions := onChainMapOf positions
          lastReconcileAt := now
          storedFrom := retryClient }
      have hrestart : Settles e e₀ [.atLeastAsMany] := settles_restart rfl rfl fun _ => trivial
      have hstored : Settles e₀ e₀ [.stored .reconcile retryClient e.lastKnownPositions.keys
          (onChainMapOf positions).keys] := by
        refine settles_stored rfl fun hsmaller => ?_
        rw [OrderedMap.length_keys, OrderedMap.length_keys] at hsmaller
        omega
      exact (settles_fetched e _).trans
        (hrestart.trans (hstored.trans (settles_reconciled rfl _)))
    · next hsize =>
      refine (settles_fetched e _).trans
        (settles_mismatchPersists e id now client onChainMap _ fun n hn => ?_)
      obtain rfl := Option.some.inj hn
      exact Nat.lt_of_not_le hsize

theorem settles_verifyTradeFetched (e : StateReconciler) (id : ℕ) (market side : String)
    (client : ℕ) (answer : Option (List Position)) :
    Settles e (e.verifyTradeFetched id market side client answer).1
      (e.verifyTradeFetched id market side client answer).2 := by
  unfold verifyTradeFetched
  cases answer with
  | none =>
    refine settles_of_silent rfl fun ev hev => ?_
    rw [List.mem_singleton] at hev
    exact hev ▸ ⟨rfl, rfl, fun _ => trivial⟩
  | some positions =>
    refine settles_of_silent rfl fun ev hev => ?_
    simp only [List.mem_cons, List.not_mem_nil, or_false] at hev
    rcases hev with rfl | rfl | rfl
    · exact ⟨rfl, rfl, fun _ => trivial⟩
    · exact ⟨rfl, rfl, fun _ => trivial⟩
    · exact ⟨rfl, rfl, fun _ => trivial⟩

theorem settles_step {e e' : StateReconciler} {a : Action} {es : List Event}
    (hs : e.step a = some (e', es)) : Settles e e' es := by
  cases a with
  | setClient client =>
    obtain ⟨rfl, rfl⟩ := Machine.some_pair hs
    exact settles_restart rfl rfl fun _ => trivial
  | reconcile now =>
    obtain ⟨rfl, rfl⟩ := Machine.some_pair hs
    exact settles_quiet rfl
  | verifyTrade market side =>
    obtain ⟨rfl, rfl⟩ := Machine.some_pair hs
    exact settles_quiet rfl
  | answer id positions =>
    rw [step] at hs
    split at hs
    · obtain ⟨rfl, rfl⟩ := Machine.some_pair hs
      exact settles_reconcileFetched _ _ _ _ _
    · obtain ⟨rfl, rfl⟩ := Machine.some_pair hs
      exact settles_reconcileRetried _ _ _ _ _ _ _
    · obtain ⟨rfl, rfl⟩ := Machine.some_pair hs
      exact settles_verifyTradeFetched _ _ _ _ _ _
    · cases hs
  | delayOver id =>
    rw [step] at hs
    split at hs
    · obtain ⟨rfl, rfl⟩ := Machine.some_pair hs
      exact settles_quiet rfl
    · cases hs

/-- **The counter is the streak of shortfalls**, in every run. -/
theorem cycles_eq {e : StateReconciler} {h : List Event} (hr : reconciler.Reachable e h) :
    e.consecutiveMismatchCycles = mismatchCycles h ∧ Each ShrinkSettled h := by
  refine Machine.Reachable.invariant
    (I := fun e h => e.consecutiveMismatchCycles = mismatchCycles h ∧ Each ShrinkSettled h)
    ⟨rfl, Each.nil⟩ ?_ hr
  rintro e e' h es a ⟨hc, hh⟩ hs
  exact settles_step hs h hc hh

/-! ## What a fetch does at once -/

/-- A fetch that has every last known position is stored at once. -/
theorem reconcileFetched_superset {e : StateReconciler} {id : ℕ} {now : ℚ} {client : ℕ}
    {positions : List Position}
    (hall : e.lastKnownPositions.keys ⊆ (onChainMapOf positions).keys) :
    (e.reconcileFetched id now client (some positions)).1.lastKnownPositions =
      onChainMapOf positions := by
  have hsize : ¬ (onChainMapOf positions).size < e.lastKnownPositions.size :=
    Nat.not_lt.mpr (OrderedMap.size_le_of_keys_subset hall)
  unfold reconcileFetched
  dsimp only
  rw [if_neg hsize]
  rfl

/-- **Three mismatch cycles before the known set shrinks.** In every run of
`reconcile`, `verifyTrade` and `setClient`, with any answers: `reconcile` stores a
smaller set only after three shortfalls in a row, with no client switch and no
fetch or retry of at least as many positions in between; a retry in a shortfall
has failed or has fewer positions than are known. A failed first fetch changes
neither the set nor the count, and a first fetch that has every known position is
stored at once. -/
theorem shrinks_after_three {e : StateReconciler} {h : List Event}
    (hr : reconciler.Reachable e h) :
    (∀ pre client before after post, h = pre ++ .stored .reconcile client before after :: post →
      after.length < before.length → 3 ≤ mismatchCycles pre) ∧
    (∀ pre known n post, h = pre ++ .shortfall known (some n) :: post → n < known) ∧
    ∀ id now client, e.calls.get? id = some (.fetching now client) →
      (∃ e' es, e.step (.answer id none) = some (e', es) ∧
        e'.lastKnownPositions = e.lastKnownPositions ∧
        mismatchCycles (h ++ es) = mismatchCycles h) ∧
      ∀ positions, e.lastKnownPositions.keys ⊆ (onChainMapOf positions).keys →
        ∃ e' es, e.step (.answer id (some positions)) = some (e', es) ∧
          e'.lastKnownPositions = onChainMapOf positions := by
  obtain ⟨-, hsettled⟩ := cycles_eq hr
  refine ⟨?_, ?_, ?_⟩
  · intro pre client before after post hh
    exact hsettled.of_split hh
  · intro pre known n post hh
    exact hsettled.of_split hh n rfl
  · intro id now client hcall
    have hanswer : ∀ positions, e.step (.answer id positions) =
        some (e.reconcileFetched id now client positions) := by
      intro positions
      unfold step
      simp only [hcall]
    refine ⟨⟨_, _, hanswer none, rfl, ?_⟩, fun positions hall => ?_⟩
    · rw [mismatchCycles, mismatchCycles, streak_append]
      rfl
    · exact ⟨_, _, hanswer _, reconcileFetched_superset hall⟩

/-- Two known positions, of which three reconciliations find one. -/
def closedOutside : List Action :=
  let pos (market : String) : Position :=
    { market, side := .Long, sizeUsd := .finite 100, entryPrice := .finite 80,
      collateralUsd := .finite 10 }
  let cycle (id : ℕ) : List Action :=
    [.reconcile 60000, .answer id (some [pos "SOL"]), .delayOver id, .answer id none]
  [.reconcile 0, .answer 0 (some [pos "SOL", pos "BTC"])] ++ cycle 1 ++ cycle 2 ++ cycle 3

theorem shrinks_after_three_closedOutside :
    ∃ e h pre post, reconciler.run closedOutside = some (e, h) ∧
      h = pre ++ .stored .reconcile 0 ["SOL:long", "BTC:long"] ["SOL:long"] :: post ∧
      3 ≤ mismatchCycles pre := by
  let opened : ReconciliationResult :=
    { hadDiscrepancy := true, onChainCount := 2, added := ["SOL:long", "BTC:long"], removed := []
      timestamp := 0 }
  let closed : ReconciliationResult :=
    { hadDiscrepancy := true, onChainCount := 1, added := [], removed := ["BTC:long"]
      timestamp := 60000 }
  let kept : List Event :=
    [.fetched false, .shortfall 2 none, .reconciled (unchangedResult 60000 2)]
  let pre : List Event :=
    [.fetched false, .atLeastAsMany, .stored .reconcile 0 [] ["SOL:long", "BTC:long"],
      .reconciled opened] ++ kept ++ kept ++ [.fetched false, .shortfall 2 none]
  have hrun : (reconciler.run closedOutside).map Prod.snd =
      some (pre ++ .stored .reconcile 0 ["SOL:long", "BTC:long"] ["SOL:long"] ::
        [.reconciled closed]) := by
    decide +kernel
  obtain ⟨⟨e, h⟩, he, hh⟩ := Option.map_eq_some_iff.mp hrun
  have hshrinks := (shrinks_after_three (Machine.reachable_of_run he)).1
  exact ⟨e, h, pre, _, he, hh, hshrinks _ _ _ _ _ hh (by decide)⟩

end StateReconciler

end FlashEdge
