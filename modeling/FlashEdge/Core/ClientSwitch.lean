import FlashEdge.Core.StateReconciler

/-!
# Whose positions the last known set holds

"Clear cached state — new wallet means new positions": `setClient` empties the
last known set. A call in progress is not told of it, and stores what the client
it has asked answers. `fromCurrentClient_iff` says on which runs this does no
harm: those where no answer that is stored comes from a client that has been
replaced in the meantime.

- `takenFrom`: the client whose answer becomes the last known set, if one does.
- `answer_spec`: what an answer does to the origin of the set, for every call.
-/

namespace FlashEdge

namespace StateReconciler

/-- The last known set was fetched from the current client. -/
def FromCurrentClient (e : StateReconciler) : Prop := e.storedFrom = e.client

/-- The answer has at least as many intact positions as are known. -/
def enough (e : StateReconciler) (answer : Option (List Position)) : Bool :=
  answer.any fun positions => e.lastKnownPositions.size ≤ (onChainMapOf positions).size

/-- The client whose answer replaces the last known set when a call is answered. -/
def takenFrom (e : StateReconciler) : Call → Option (List Position) → Option ℕ
  | .fetching _ client, answer => if e.enough answer then some client else none
  | .delayed _ _ _, _ => none
  | .retrying _ client _ retryClient, answer =>
    if e.enough answer then some retryClient
    -- at the third mismatch in a row the first fetch is accepted
    else if MISMATCH_CYCLES_BEFORE_REMOVAL ≤ e.consecutiveMismatchCycles + 1 then some client
    else none
  | .verifying _ _ client, answer => answer.map fun _ => client

/-- The condition on a step: what an answer stores is of the current client. -/
def NoStaleAnswer (e : StateReconciler) (_ : List Event) : Action → Prop
  | .answer id positions => ∀ call client, e.calls.get? id = some call →
      e.takenFrom call positions = some client → client = e.client
  | _ => True

/-! ## What each answer does to the origin -/

@[simp] theorem acceptOnChain_client (e : StateReconciler) (now : ℚ) (client : ℕ)
    (onChainMap : OrderedMap String Position) :
    (e.acceptOnChain now client onChainMap).1.client = e.client := rfl

@[simp] theorem acceptOnChain_storedFrom (e : StateReconciler) (now : ℚ) (client : ℕ)
    (onChainMap : OrderedMap String Position) :
    (e.acceptOnChain now client onChainMap).1.storedFrom = client := rfl

theorem reconcileFetched_origin (e : StateReconciler) (id : ℕ) (now : ℚ) (client : ℕ)
    (answer : Option (List Position)) :
    (e.reconcileFetched id now client answer).1.client = e.client ∧
      (e.reconcileFetched id now client answer).1.storedFrom =
        (e.takenFrom (.fetching now client) answer).getD e.storedFrom := by
  unfold reconcileFetched takenFrom enough
  cases answer with
  | none => exact ⟨rfl, rfl⟩
  | some positions =>
    dsimp only
    split
    · next hfewer => simp [Nat.not_le.mpr hfewer]
    · next hfewer => simp [Nat.not_lt.mp hfewer, endCall]

theorem mismatchPersists_origin (e : StateReconciler) (id : ℕ) (now : ℚ) (client : ℕ)
    (onChainMap : OrderedMap String Position) (retried : Option ℕ) :
    (e.mismatchPersists id now client onChainMap retried).1.client = e.client ∧
      (e.mismatchPersists id now client onChainMap retried).1.storedFrom =
        if MISMATCH_CYCLES_BEFORE_REMOVAL ≤ e.consecutiveMismatchCycles + 1 then client
        else e.storedFrom := by
  unfold mismatchPersists
  dsimp only
  split
  · next hfew => simp [endCall, Nat.not_le.mpr hfew]
  · next hfew => simp [endCall, Nat.not_lt.mp hfew]

theorem reconcileRetried_origin (e : StateReconciler) (id : ℕ) (now : ℚ) (client : ℕ)
    (onChainMap : OrderedMap String Position) (retryClient : ℕ)
    (answer : Option (List Position)) :
    (e.reconcileRetried id now client onChainMap retryClient answer).1.client = e.client ∧
      (e.reconcileRetried id now client onChainMap retryClient answer).1.storedFrom =
        (e.takenFrom (.retrying now client onChainMap retryClient) answer).getD e.storedFrom := by
  -- a persisting mismatch takes the first fetch or nothing
  have hpersists : ∀ retried, ¬ e.enough answer →
      (e.mismatchPersists id now client onChainMap retried).1.client = e.client ∧
        (e.mismatchPersists id now client onChainMap retried).1.storedFrom =
          (e.takenFrom (.retrying now client onChainMap retryClient) answer).getD
            e.storedFrom := by
    intro retried hfew
    obtain ⟨hclient, hstored⟩ := e.mismatchPersists_origin id now client onChainMap retried
    refine ⟨hclient, hstored.trans ?_⟩
    simp only [takenFrom, if_neg hfew]
    split <;> rfl
  unfold reconcileRetried
  cases answer with
  | none => exact hpersists none (by simp [enough])
  | some positions =>
    dsimp only
    split
    · next hsize => exact ⟨rfl, by simp [takenFrom, enough, hsize]⟩
    · next hsize => exact hpersists _ (by simpa [enough] using hsize)

theorem verifyTradeFetched_origin (e : StateReconciler) (id : ℕ) (market side : String)
    (client : ℕ) (answer : Option (List Position)) :
    (e.verifyTradeFetched id market side client answer).1.client = e.client ∧
      (e.verifyTradeFetched id market side client answer).1.storedFrom =
        (e.takenFrom (.verifying market side client) answer).getD e.storedFrom := by
  cases answer <;> exact ⟨rfl, rfl⟩

/-- An answer leaves the client alone, and changes the origin of the last known
set as `takenFrom` says. -/
theorem answer_spec {e e' : StateReconciler} {id : ℕ} {positions : Option (List Position)}
    {es : List Event} (hs : e.step (.answer id positions) = some (e', es)) :
    ∃ call, e.calls.get? id = some call ∧ e'.client = e.client ∧
      e'.storedFrom = (e.takenFrom call positions).getD e.storedFrom := by
  rw [step] at hs
  split at hs
  · next now client hcall =>
    obtain ⟨rfl, rfl⟩ := Machine.some_pair hs
    exact ⟨_, hcall, e.reconcileFetched_origin id now client positions⟩
  · next now client onChainMap retryClient hcall =>
    obtain ⟨rfl, rfl⟩ := Machine.some_pair hs
    exact ⟨_, hcall, e.reconcileRetried_origin id now client onChainMap retryClient positions⟩
  · next market side client hcall =>
    obtain ⟨rfl, rfl⟩ := Machine.some_pair hs
    exact ⟨_, hcall, e.verifyTradeFetched_origin id market side client positions⟩
  · cases hs

/-- Every other step keeps the set and its client together: `setClient` empties
the set, and the calls only begin or wait. -/
theorem fromCurrentClient_quiet {e e' : StateReconciler} {a : Action} {es : List Event}
    (hI : e.FromCurrentClient) (ha : ∀ id positions, a ≠ .answer id positions)
    (hs : e.step a = some (e', es)) : e'.FromCurrentClient := by
  cases a with
  | setClient client =>
    obtain ⟨rfl, rfl⟩ := Machine.some_pair hs
    rfl
  | reconcile now =>
    obtain ⟨rfl, rfl⟩ := Machine.some_pair hs
    exact hI
  | verifyTrade market side =>
    obtain ⟨rfl, rfl⟩ := Machine.some_pair hs
    exact hI
  | answer id positions => exact absurd rfl (ha id positions)
  | delayOver id =>
    rw [step] at hs
    split at hs
    · obtain ⟨rfl, rfl⟩ := Machine.some_pair hs
      exact hI
    · cases hs

/-! ## The runs -/

/-- A step that meets the condition keeps the set and its client together. -/
theorem fromCurrentClient_step {e e' : StateReconciler} {h : List Event} {a : Action}
    {es : List Event} (hI : e.FromCurrentClient) (hC : e.NoStaleAnswer h a)
    (hs : e.step a = some (e', es)) : e'.FromCurrentClient := by
  by_cases ha : ∃ id positions, a = .answer id positions
  · obtain ⟨id, positions, rfl⟩ := ha
    obtain ⟨call, hcall, hclient, hstored⟩ := answer_spec hs
    unfold FromCurrentClient
    rw [hclient, hstored]
    cases htaken : e.takenFrom call positions with
    | none => exact hI
    | some client => exact hC call client hcall htaken
  · exact fromCurrentClient_quiet hI (fun id positions hap => ha ⟨id, positions, hap⟩) hs

/-- A step that does not meet it stores the answer of a replaced client. -/
theorem not_fromCurrentClient_step {e e' : StateReconciler} {h : List Event} {a : Action}
    {es : List Event} (hC : ¬ e.NoStaleAnswer h a) (hs : e.step a = some (e', es)) :
    ¬ e'.FromCurrentClient := by
  cases a with
  | answer id positions =>
    unfold NoStaleAnswer at hC
    push Not at hC
    obtain ⟨call, client, hcall, htaken, hne⟩ := hC
    obtain ⟨call', hcall', hclient, hstored⟩ := answer_spec hs
    obtain rfl : call = call' := Option.some.inj (hcall.symm.trans hcall')
    unfold FromCurrentClient
    rw [hclient, hstored, htaken]
    exact hne
  | setClient client => exact absurd trivial hC
  | reconcile now => exact absurd trivial hC
  | verifyTrade market side => exact absurd trivial hC
  | delayOver id => exact absurd trivial hC

/-- **When the last known set is of the current client.** Along any run, every
state has it so if and only if no answer that is stored comes from a client that
`setClient` has replaced since the fetch was started. -/
theorem fromCurrentClient_iff (as : List Action) :
    reconciler.Always (fun e _ => e.FromCurrentClient) reconciler.init [] as ↔
      reconciler.Along NoStaleAnswer reconciler.init [] as :=
  Machine.always_iff_along (I := fun e _ => FromCurrentClient e) (fun hI => hI)
    (fun hI hC hs => fromCurrentClient_step hI hC hs)
    (fun _ hC hs => not_fromCurrentClient_step hC hs) (show FromCurrentClient {} from rfl) as

/-- A trade is verified, the wallet is switched, and the answer for the first
wallet arrives. -/
def switchedWallet : List Action :=
  let pos : Position :=
    { market := "SOL", side := .Long, sizeUsd := .finite 100, entryPrice := .finite 80,
      collateralUsd := .finite 10 }
  [.verifyTrade "SOL" "long", .setClient 1, .answer 0 (some [pos])]

/-- The position of the first wallet is in the last known set of the second. -/
theorem not_fromCurrentClient :
    ¬ ∀ e h, reconciler.Reachable e h → e.FromCurrentClient := by
  have hrun : (reconciler.run switchedWallet).map
      (fun r => (r.1.lastKnownPositions.keys, r.1.storedFrom, r.1.client)) =
        some (["SOL:long"], 0, 1) := by
    decide +kernel
  obtain ⟨⟨e, h⟩, he, hkeys⟩ := Option.map_eq_some_iff.mp hrun
  intro hall
  have horigin : e.storedFrom = e.client := hall e h (Machine.reachable_of_run he)
  simp only [Prod.mk.injEq] at hkeys
  rw [hkeys.2.1, hkeys.2.2] at horigin
  cases horigin

end StateReconciler

end FlashEdge
