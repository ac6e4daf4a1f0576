import FlashEdge.Core.Submission
import FlashEdge.Theory.Machine

/-!
# How many transactions of a submission land

A submission signs up to three transactions, one for each attempt, and each of
them trades if it lands. `landing` puts a submission on a chain: what was sent
may land, or be executed with an error, at any later time while the block height
does not exceed the last valid height of its blockhash, and the height grows.

At most one of them should land (`AtMostOneLands`), so a retry should be signed
only when the earlier ones are dead (`RetriesSafe`). The retry asks for the
status of the last signature, once, and goes on if it has not landed *yet*; the
wait before was shorter than the life of a blockhash. `not_atMostOneLands` is the
run in which both transactions land then. `atMostOneLands_of_expired` says what
the network would have to do: let everything earlier expire or fail before a
retry is given its blockhash.
-/

namespace FlashEdge

/-- A submission and the chain it sends to. -/
structure Landing where
  submission : Submission
  blockHeight : ℕ := 0
  sent : List SignedTransaction := []
  landed : List Signature := []
  failed : List Signature := []
deriving DecidableEq

namespace Landing

/-- A signature that was executed with an error, or has not landed and is too
late with every blockhash height it was sent for. -/
def Dead (s : Landing) (sig : Signature) : Prop :=
  sig ∈ s.failed ∨
    (sig ∉ s.landed ∧ ∀ t ∈ s.sent, t.signature = sig → t.lastValidBlockHeight < s.blockHeight)

instance (s : Landing) (sig : Signature) : Decidable (s.Dead sig) := by
  unfold Dead
  infer_instance

/-- The chain would take this signature now. -/
def CanLand (s : Landing) (sig : Signature) : Prop :=
  sig ∉ s.landed ∧ sig ∉ s.failed ∧
    ∃ t ∈ s.sent, t.signature = sig ∧ s.blockHeight ≤ t.lastValidBlockHeight

instance (s : Landing) (sig : Signature) : Decidable (s.CanLand sig) := by
  unfold CanLand
  infer_instance

/-- The transactions sent so far that have landed or can still land. -/
def alive (s : Landing) : List SignedTransaction :=
  s.sent.filter fun t => ¬ s.Dead t.signature

/-- What an observer of submission and chain sees; a signing comes with the
transactions that were alive then. -/
inductive Event where
  | signed (attempt : ℕ) (tx : SignedTransaction) (alive : List SignedTransaction)
  | sent (tx : SignedTransaction)
  | landed (sig : Signature)
  | failed (sig : Signature)
deriving DecidableEq

/-- `wallet` is the public key the engine has when the answer arrives. -/
inductive Action where
  | reply (wallet : String) (r : Reply)
  | advance (blocks : ℕ)
  | land (sig : Signature)
  | fail (sig : Signature)

/-- The effects of a step of the submission on the chain. -/
def deliver (s : Landing) : List SubmissionEvent → Landing × List Event
  | [] => (s, [])
  | .signed attempt tx :: es =>
    ((s.deliver es).1, .signed attempt tx s.alive :: (s.deliver es).2)
  | .broadcast _ tx :: es =>
    let sending := { s with sent := s.sent ++ [tx] }
    ((sending.deliver es).1, .sent tx :: (sending.deliver es).2)

def step (config : TxEngineConfig) (s : Landing) : Action → Option (Landing × List Event)
  | .reply wallet r =>
    (s.submission.step config wallet r).map fun p => { s with submission := p.1 }.deliver p.2
  | .advance blocks => some ({ s with blockHeight := s.blockHeight + blocks }, [])
  | .land sig => if s.CanLand sig then some ({ s with landed := s.landed ++ [sig] }, [.landed sig])
    else none
  | .fail sig => if s.CanLand sig then some ({ s with failed := s.failed ++ [sig] }, [.failed sig])
    else none

end Landing

/-- One submission, from its start. -/
def landing (config : TxEngineConfig) (instructions : List TransactionInstruction)
    (computeUnitLimitOverride : Option ℕ) : Machine Landing Landing.Action Landing.Event where
  init := { submission := { instructions, computeUnitLimitOverride } }
  step := Landing.step config

namespace Landing

/-- At most one transaction of the submission has landed. -/
def AtMostOneLands (s : Landing) : Prop := ∀ a ∈ s.landed, ∀ b ∈ s.landed, a = b

/-- A retry was signed only when nothing sent before could land or had landed. -/
def RetriesSafe (h : List Event) : Prop :=
  ∀ attempt tx alive, .signed attempt tx alive ∈ h → 1 < attempt → alive = []

/-! ## Two transactions that land -/

/-- The confirmation of the first transaction times out, its status is unknown
when the retry asks, and both transactions land. -/
def openTwice : List Action :=
  let tx (blockhash : String) : Signature := buildTransaction "wallet" [] 220000 100000 blockhash
  [.reply "wallet" (.blockhash { blockhash := "A", lastValidBlockHeight := 150 }),
    .reply "wallet" (.priorityFee 100000),
    .reply "wallet" (.simulation { err := none, unitsConsumed := none }),
    .reply "wallet" .sent, .advance 100,
    .reply "wallet" (.throws "Not confirmed within 45s"), .reply "wallet" (.status none),
    .reply "wallet" (.blockhash { blockhash := "B", lastValidBlockHeight := 250 }),
    .reply "wallet" (.priorityFee 100000), .reply "wallet" .sent,
    .land (tx "A"), .land (tx "B")]

/-- A submission lands twice. -/
theorem not_atMostOneLands :
    ¬ ∀ s h, (landing {} [] none).Reachable s h → AtMostOneLands s ∧ RetriesSafe h := by
  intro hall
  have hrun : ((landing {} [] none).run openTwice).map (fun r => r.1.landed) =
      some [buildTransaction "wallet" [] 220000 100000 "A",
        buildTransaction "wallet" [] 220000 100000 "B"] := by
    decide +kernel
  obtain ⟨⟨s, h⟩, hs, hlanded⟩ := Option.map_eq_some_iff.mp hrun
  have hone := (hall s h (Machine.reachable_of_run hs)).1
  dsimp only at hlanded
  unfold AtMostOneLands at hone
  rw [hlanded] at hone
  exact absurd (hone _ List.mem_cons_self _ (List.mem_cons_of_mem _ List.mem_cons_self))
    (by decide)

/-! ## What one answer does to a submission -/

section Submission

variable {config : TxEngineConfig} {wallet : String}

/-- The transaction of this attempt is being prepared: its blockhash is there,
and nothing of it was sent. -/
def Preparing : SubmissionPhase → Prop
  | .priorityFee _ => True
  | .simulation _ _ => True
  | _ => False

/-- Nothing of this attempt was sent. -/
def Unsent : SubmissionPhase → Prop
  | .lateStatus _ => True
  | .blockhash => True
  | .priorityFee _ => True
  | .simulation _ _ => True
  | _ => False

theorem Unsent.of_preparing {phase : SubmissionPhase} (hp : Preparing phase) : Unsent phase := by
  cases phase <;> trivial

/-- A failed attempt does not prepare a transaction: it ends the submission, or
begins the next attempt. -/
theorem failAttempt_phase (s : Submission) (eMsg : String) :
    s.attempt ≤ (s.failAttempt eMsg).attempt ∧ ¬ Preparing (s.failAttempt eMsg).phase ∧
      (Unsent (s.failAttempt eMsg).phase → (s.failAttempt eMsg).attempt = s.attempt + 1) := by
  unfold Submission.failAttempt
  split
  · exact ⟨le_refl _, id, False.elim⟩
  split
  · refine ⟨Nat.le_succ _, ?_, fun _ => rfl⟩
    dsimp only
    split <;> exact id
  · exact ⟨le_refl _, id, False.elim⟩

/-- What the step of an answer is. -/
inductive AnswerEffect (s s' : Submission) (r : Reply) : List SubmissionEvent → Prop where
  /-- Nothing is signed or sent; a transaction is prepared only from the answer to
  the blockhash request, and an attempt begins only after another. -/
  | quiet (grows : s.attempt ≤ s'.attempt)
      (prepared : Preparing s'.phase → s.phase = .blockhash ∧ ∃ bh, r = .blockhash bh)
      (unsent : Unsent s'.phase →
        (s'.attempt = s.attempt ∧ Unsent s.phase) ∨ s'.attempt = s.attempt + 1) :
      AnswerEffect s s' r []
  /-- The first transaction is signed, for its simulation. -/
  | signed (tx : SignedTransaction) (prepared : Preparing s.phase)
      (attempt : s'.attempt = s.attempt) :
      AnswerEffect s s' r [.signed s.attempt tx]
  /-- The transaction of the attempt is sent, signed before or just now. -/
  | sent (tx : SignedTransaction) (signed : Bool) (prepared : Preparing s.phase)
      (attempt : s'.attempt = s.attempt) (sent : ¬ Unsent s'.phase) :
      AnswerEffect s s' r
        ((if signed then [.signed s.attempt tx] else []) ++ [.broadcast s.attempt tx])

theorem answerEffect_failAttempt (s : Submission) (r : Reply) (eMsg : String) :
    AnswerEffect s (s.failAttempt eMsg) r [] := by
  obtain ⟨hgrows, hprep, hnext⟩ := failAttempt_phase s eMsg
  exact .quiet hgrows (fun hp => absurd hp hprep) fun hu => .inr (hnext hu)

theorem answerEffect_feeArrived {s : Submission} (r : Reply) (bh : LatestBlockhash) (fee : ℕ)
    (hprep : Preparing s.phase) :
    AnswerEffect s (s.feeArrived config wallet bh fee).1 r
      (s.feeArrived config wallet bh fee).2 := by
  unfold Submission.feeArrived
  dsimp only
  split
  · exact .signed _ hprep rfl
  · exact .sent _ true hprep rfl id

theorem answerEffect_simulated {s : Submission} (r : Reply) (bh : LatestBlockhash) (fee : ℕ)
    (result : Except String (Option ℕ)) (hprep : Preparing s.phase) :
    AnswerEffect s (s.simulated config wallet bh fee result).1 r
      (s.simulated config wallet bh fee result).2 := by
  unfold Submission.simulated
  split
  · exact answerEffect_failAttempt s r _
  · dsimp only
    split
    · exact .sent _ false hprep rfl id
    · exact .sent _ true hprep rfl id

theorem answerEffect_step {s s' : Submission} {r : Reply} {es : List SubmissionEvent}
    (hs : s.step config wallet r = some (s', es)) : AnswerEffect s s' r es := by
  unfold Submission.step at hs
  split at hs
  case h_1 sig status hphase =>
    have hu : Unsent s.phase := hphase ▸ trivial
    split at hs
    · cases hs
      exact .quiet (le_refl _) False.elim False.elim
    · cases hs
      exact .quiet (le_refl _) False.elim fun _ => .inl ⟨rfl, hu⟩
  case h_2 sig hphase =>
    cases hs
    exact .quiet (le_refl _) False.elim fun _ => .inl ⟨rfl, hphase ▸ trivial⟩
  case h_3 sig msg hphase =>
    cases hs
    exact .quiet (le_refl _) False.elim fun _ => .inl ⟨rfl, hphase ▸ trivial⟩
  case h_4 bh hphase =>
    cases hs
    exact .quiet (le_refl _) (fun _ => ⟨hphase, bh, rfl⟩) fun _ => .inl ⟨rfl, hphase ▸ trivial⟩
  case h_5 =>
    cases hs
    exact answerEffect_failAttempt s _ _
  case h_6 bh fee hphase =>
    obtain ⟨rfl, rfl⟩ := Machine.some_pair hs
    exact answerEffect_feeArrived _ bh fee (hphase ▸ trivial)
  case h_7 =>
    cases hs
    exact answerEffect_failAttempt s _ _
  case h_8 bh fee value hphase =>
    obtain ⟨rfl, rfl⟩ := Machine.some_pair hs
    exact answerEffect_simulated _ bh fee _ (hphase ▸ trivial)
  case h_9 bh fee msg hphase =>
    obtain ⟨rfl, rfl⟩ := Machine.some_pair hs
    exact answerEffect_simulated _ bh fee _ (hphase ▸ trivial)
  case h_10 =>
    cases hs
    exact .quiet (le_refl _) False.elim False.elim
  case h_11 =>
    cases hs
    exact answerEffect_failAttempt s _ _
  case h_12 =>
    cases hs
    exact .quiet (le_refl _) False.elim False.elim
  case h_13 =>
    cases hs
    exact answerEffect_failAttempt s _ _
  case h_14 => cases hs

end Submission

/-! ## The books of the chain -/

variable {config : TxEngineConfig} {instructions : List TransactionInstruction}
  {computeUnitLimitOverride : Option ℕ} {s s' : Landing} {h es : List Event}

/-- What was executed was sent, and only once. -/
structure Recorded (s : Landing) : Prop where
  landedSent : ∀ sig ∈ s.landed, ∃ t ∈ s.sent, t.signature = sig
  failedSent : ∀ sig ∈ s.failed, ∃ t ∈ s.sent, t.signature = sig
  disjoint : ∀ sig ∈ s.landed, sig ∉ s.failed

/-- A signature that has landed is not dead. -/
theorem Recorded.not_dead (hr : Recorded s) {sig : Signature} (hl : sig ∈ s.landed) :
    ¬ s.Dead sig := by
  rintro (hf | ⟨hn, -⟩)
  · exact hr.disjoint sig hl hf
  · exact hn hl

/-- What the chain would take is not dead. -/
theorem CanLand.not_dead {sig : Signature} (hc : s.CanLand sig) : ¬ s.Dead sig := by
  obtain ⟨-, hfailed, t, ht, hsig, hvalid⟩ := hc
  rintro (hf | ⟨-, hexpired⟩)
  · exact hfailed hf
  · have hlate := hexpired t ht hsig
    omega

/-- A sent signature that is not dead has landed or can land. -/
theorem landed_or_canLand {sig : Signature} (hd : ¬ s.Dead sig) :
    sig ∈ s.landed ∨ s.CanLand sig := by
  unfold Dead at hd
  push Not at hd
  obtain ⟨hfailed, hvalid⟩ := hd
  by_cases hl : sig ∈ s.landed
  · exact .inl hl
  · obtain ⟨t, ht, hsig, hle⟩ := hvalid hl
    exact .inr ⟨hl, hfailed, t, ht, hsig, hle⟩

/-- Signing sends nothing. -/
theorem deliver_signed (s : Landing) (attempt : ℕ) (tx : SignedTransaction) :
    s.deliver [.signed attempt tx] = (s, [.signed attempt tx s.alive]) := rfl

/-- Sending, after signing or not. -/
theorem deliver_sent (s : Landing) (attempt : ℕ) (tx : SignedTransaction) (signed : Bool) :
    s.deliver ((if signed then [.signed attempt tx] else []) ++ [.broadcast attempt tx]) =
      ({ s with sent := s.sent ++ [tx] },
        (if signed then [.signed attempt tx s.alive] else []) ++ [.sent tx]) := by
  cases signed <;> rfl

theorem Recorded.send (hr : Recorded s) (submission : Submission) (tx : SignedTransaction) :
    Recorded { s with submission, sent := s.sent ++ [tx] } where
  landedSent sig hl := by
    obtain ⟨t, ht, hsig⟩ := hr.landedSent sig hl
    exact ⟨t, List.mem_append_left _ ht, hsig⟩
  failedSent sig hf := by
    obtain ⟨t, ht, hsig⟩ := hr.failedSent sig hf
    exact ⟨t, List.mem_append_left _ ht, hsig⟩
  disjoint := hr.disjoint

theorem Recorded.land (hr : Recorded s) {sig : Signature} (hc : s.CanLand sig) :
    Recorded { s with landed := s.landed ++ [sig] } where
  landedSent sig' hl := by
    rcases List.mem_append.mp hl with hl | hl
    · exact hr.landedSent sig' hl
    · obtain rfl := List.mem_singleton.mp hl
      obtain ⟨-, -, t, ht, hsig, -⟩ := hc
      exact ⟨t, ht, hsig⟩
  failedSent := hr.failedSent
  disjoint sig' hl := by
    rcases List.mem_append.mp hl with hl | hl
    · exact hr.disjoint sig' hl
    · obtain rfl := List.mem_singleton.mp hl
      exact hc.2.1

theorem Recorded.fail (hr : Recorded s) {sig : Signature} (hc : s.CanLand sig) :
    Recorded { s with failed := s.failed ++ [sig] } where
  landedSent := hr.landedSent
  failedSent sig' hf := by
    rcases List.mem_append.mp hf with hf | hf
    · exact hr.failedSent sig' hf
    · obtain rfl := List.mem_singleton.mp hf
      obtain ⟨-, -, t, ht, hsig, -⟩ := hc
      exact ⟨t, ht, hsig⟩
  disjoint sig' hl hf := by
    rcases List.mem_append.mp hf with hf | hf
    · exact hr.disjoint sig' hl hf
    · obtain rfl := List.mem_singleton.mp hf
      exact hc.1 hl

/-- The step of an answer, with its effect on the chain. -/
theorem step_reply {wallet : String} {r : Reply}
    (hs : s.step config (.reply wallet r) = some (s', es)) :
    ∃ submission out, AnswerEffect s.submission submission r out ∧
      ({ s with submission } : Landing).deliver out = (s', es) := by
  obtain ⟨⟨submission, out⟩, hstep, heq⟩ := Option.map_eq_some_iff.mp hs
  exact ⟨submission, out, answerEffect_step hstep, heq⟩

theorem step_land {sig : Signature} (hs : s.step config (.land sig) = some (s', es)) :
    s.CanLand sig ∧ s' = { s with landed := s.landed ++ [sig] } ∧ es = [.landed sig] := by
  change (if s.CanLand sig then _ else none) = some (s', es) at hs
  split at hs
  · next hc =>
    cases hs
    exact ⟨hc, rfl, rfl⟩
  · cases hs

theorem step_fail {sig : Signature} (hs : s.step config (.fail sig) = some (s', es)) :
    s.CanLand sig ∧ s' = { s with failed := s.failed ++ [sig] } ∧ es = [.failed sig] := by
  change (if s.CanLand sig then _ else none) = some (s', es) at hs
  split at hs
  · next hc =>
    cases hs
    exact ⟨hc, rfl, rfl⟩
  · cases hs

theorem recorded_step {a : Action} (hr : Recorded s) (hs : s.step config a = some (s', es)) :
    Recorded s' := by
  cases a with
  | reply wallet r =>
    obtain ⟨submission, out, heffect, heq⟩ := step_reply hs
    cases heffect with
    | quiet =>
      cases heq
      exact ⟨hr.landedSent, hr.failedSent, hr.disjoint⟩
    | signed tx =>
      rw [deliver_signed] at heq
      cases heq
      exact ⟨hr.landedSent, hr.failedSent, hr.disjoint⟩
    | sent tx signed =>
      rw [deliver_sent] at heq
      cases heq
      exact hr.send submission tx
  | advance blocks =>
    cases hs
    exact ⟨hr.landedSent, hr.failedSent, hr.disjoint⟩
  | land sig =>
    obtain ⟨hc, rfl, -⟩ := step_land hs
    exact hr.land hc
  | fail sig =>
    obtain ⟨hc, rfl, -⟩ := step_fail hs
    exact hr.fail hc

theorem recorded_init :
    Recorded (landing config instructions computeUnitLimitOverride).init where
  landedSent _ hl := by cases hl
  failedSent _ hf := by cases hf
  disjoint _ hl := by cases hl

theorem recorded_of_reachable
    (hr : (landing config instructions computeUnitLimitOverride).Reachable s h) : Recorded s :=
  Machine.Reachable.invariant (I := fun s _ => Recorded s) recorded_init recorded_step hr

/-! ## Retries after expiry -/

/-- The condition on a step: when a retry is given its blockhash, every signature
sent before is dead. -/
def RetriesAfterExpiry (s : Landing) (_ : List Event) : Action → Prop
  | .reply _ (.blockhash _) => 1 < s.submission.attempt → ∀ t ∈ s.sent, s.Dead t.signature
  | _ => True

instance (s : Landing) (h : List Event) : (a : Action) → Decidable (RetriesAfterExpiry s h a)
  | .reply _ (.blockhash _) =>
    inferInstanceAs (Decidable (1 < s.submission.attempt → ∀ t ∈ s.sent, s.Dead t.signature))
  | .reply _ (.status _) => .isTrue trivial
  | .reply _ (.priorityFee _) => .isTrue trivial
  | .reply _ (.simulation _) => .isTrue trivial
  | .reply _ .sent => .isTrue trivial
  | .reply _ .confirmed => .isTrue trivial
  | .reply _ (.throws _) => .isTrue trivial
  | .advance _ => .isTrue trivial
  | .land _ => .isTrue trivial
  | .fail _ => .isTrue trivial

/-- What a run keeps under the condition: while a transaction is prepared,
everything sent is dead, and at any time at most one signature is not. -/
structure Safe (s : Landing) (h : List Event) : Prop where
  recorded : Recorded s
  attempt : 1 ≤ s.submission.attempt
  first : s.submission.attempt = 1 → Unsent s.submission.phase → s.sent = []
  prepared : Preparing s.submission.phase → ∀ t ∈ s.sent, s.Dead t.signature
  single : ∃ current : Option Signature, ∀ t ∈ s.sent, s.Dead t.signature ∨
    some t.signature = current
  retries : RetriesSafe h

theorem Safe.atMostOneLands (hs : Safe s h) : AtMostOneLands s := by
  obtain ⟨current, hsingle⟩ := hs.single
  have hcurrent : ∀ sig ∈ s.landed, some sig = current := by
    intro sig hl
    obtain ⟨t, ht, rfl⟩ := hs.recorded.landedSent sig hl
    exact (hsingle t ht).resolve_left (hs.recorded.not_dead hl)
  intro a ha b hb
  exact Option.some.inj ((hcurrent a ha).trans (hcurrent b hb).symm)

theorem safe_init :
    Safe (landing config instructions computeUnitLimitOverride).init [] where
  recorded := recorded_init
  attempt := le_refl 1
  first _ _ := rfl
  prepared _ t ht := by cases ht
  single := ⟨none, fun t ht => by cases ht⟩
  retries _ _ _ hmem := by cases hmem

theorem RetriesSafe.append (hh : RetriesSafe h)
    (hes : ∀ attempt tx alive, .signed attempt tx alive ∈ es → 1 < attempt → alive = []) :
    RetriesSafe (h ++ es) := by
  intro attempt tx alive hmem
  rcases List.mem_append.mp hmem with hmem | hmem
  · exact hh attempt tx alive hmem
  · exact hes attempt tx alive hmem

/-- A dead signature stays dead while the chain goes on. -/
theorem Dead.advance {sig : Signature} (hd : s.Dead sig) (blocks : ℕ) :
    ({ s with blockHeight := s.blockHeight + blocks } : Landing).Dead sig := by
  rcases hd with hf | ⟨hl, hexpired⟩
  · exact .inl hf
  · refine .inr ⟨hl, fun t ht hsig => ?_⟩
    have hlate := hexpired t ht hsig
    show t.lastValidBlockHeight < s.blockHeight + blocks
    omega

theorem Dead.land {sig sig' : Signature} (hd : s.Dead sig) (hc : s.CanLand sig') :
    ({ s with landed := s.landed ++ [sig'] } : Landing).Dead sig := by
  rcases hd with hf | ⟨hl, hexpired⟩
  · exact .inl hf
  · refine .inr ⟨fun hmem => ?_, hexpired⟩
    rcases List.mem_append.mp hmem with hmem | hmem
    · exact hl hmem
    · obtain rfl := List.mem_singleton.mp hmem
      -- what lands was not dead
      exact hc.not_dead (.inr ⟨hl, hexpired⟩)

theorem Dead.fail {sig : Signature} (hd : s.Dead sig) (sig' : Signature) :
    ({ s with failed := s.failed ++ [sig'] } : Landing).Dead sig :=
  hd.imp (List.mem_append_left _) id

/-- Sending another signature leaves a dead one dead. -/
theorem Dead.send {sig : Signature} (hd : s.Dead sig) (submission : Submission)
    {tx : SignedTransaction} (hne : tx.signature ≠ sig) :
    ({ s with submission, sent := s.sent ++ [tx] } : Landing).Dead sig := by
  rcases hd with hf | ⟨hl, hexpired⟩
  · exact .inl hf
  · refine .inr ⟨hl, fun t ht hsig => ?_⟩
    rcases List.mem_append.mp ht with ht | ht
    · exact hexpired t ht hsig
    · obtain rfl := List.mem_singleton.mp ht
      exact absurd hsig hne

/-- Nothing is alive when everything sent is dead. -/
theorem alive_eq_nil (hdead : ∀ t ∈ s.sent, s.Dead t.signature) : s.alive = [] := by
  unfold alive
  rw [List.filter_eq_nil_iff]
  intro t ht
  simpa using hdead t ht

/-- An answer keeps the invariant. -/
theorem safe_reply {wallet : String} {r : Reply} (hsafe : Safe s h)
    (hC : RetriesAfterExpiry s h (.reply wallet r))
    (hs : s.step config (.reply wallet r) = some (s', es)) : Safe s' (h ++ es) := by
  have hrecorded := recorded_step hsafe.recorded hs
  obtain ⟨submission, out, heffect, heq⟩ := step_reply hs
  have hpos := hsafe.attempt
  cases heffect with
  | quiet grows prepared unsent =>
    cases heq
    refine ⟨hrecorded, ?_, fun hone hu => ?_, fun hp => ?_, hsafe.single,
      hsafe.retries.append fun _ _ _ hmem => by cases hmem⟩
    · exact le_trans hpos grows
    · rcases unsent hu with ⟨hsame, hbefore⟩ | hnext
      · exact hsafe.first (hsame ▸ hone) hbefore
      · change submission.attempt = 1 at hone
        omega
    · obtain ⟨hphase, bh, rfl⟩ := prepared hp
      -- the blockhash of a retry comes under the condition; before the first nothing is sent
      rcases Nat.lt_or_ge 1 s.submission.attempt with hretry | hfirst
      · exact hC hretry
      · have hnone : s.sent = [] :=
          hsafe.first (Nat.le_antisymm hfirst hpos) (by rw [hphase]; trivial)
        intro t ht
        change t ∈ s.sent at ht
        rw [hnone] at ht
        cases ht
  | signed tx prepared attempt =>
    rw [deliver_signed] at heq
    cases heq
    have hdead := hsafe.prepared prepared
    refine ⟨hrecorded, attempt ▸ hpos, fun hone hu => ?_, fun _ => hdead, hsafe.single,
      hsafe.retries.append fun attempt' tx' alive' hmem _ => ?_⟩
    · exact hsafe.first (attempt ▸ hone) (.of_preparing prepared)
    · cases List.mem_singleton.mp hmem
      exact alive_eq_nil hdead
  | sent tx signed prepared attempt sent =>
    rw [deliver_sent] at heq
    cases heq
    have hdead := hsafe.prepared prepared
    refine ⟨hrecorded, attempt ▸ hpos, fun _ hu => absurd hu sent,
      fun hp => absurd (.of_preparing hp) sent, ⟨some tx.signature, fun t ht => ?_⟩,
      hsafe.retries.append fun attempt' tx' alive' hmem _ => ?_⟩
    · -- everything sent before was dead, so only the new signature is not
      by_cases hsig : tx.signature = t.signature
      · exact .inr (congrArg some hsig.symm)
      · rcases List.mem_append.mp ht with ht | ht
        · exact .inl ((hdead t ht).send submission hsig)
        · obtain rfl := List.mem_singleton.mp ht
          exact absurd rfl hsig
    · cases signed
      · cases List.mem_singleton.mp hmem
      · rcases List.mem_cons.mp hmem with hmem | hmem
        · cases hmem
          exact alive_eq_nil hdead
        · cases List.mem_singleton.mp hmem

/-- One step that meets the condition keeps the invariant. -/
theorem safe_step {a : Action} (hsafe : Safe s h) (hC : RetriesAfterExpiry s h a)
    (hs : s.step config a = some (s', es)) : Safe s' (h ++ es) := by
  have hrecorded := recorded_step hsafe.recorded hs
  obtain ⟨current, hsingle⟩ := hsafe.single
  cases a with
  | reply wallet r => exact safe_reply hsafe hC hs
  | advance blocks =>
    cases hs
    refine ⟨hrecorded, hsafe.attempt, hsafe.first,
      fun hp t ht => (hsafe.prepared hp t ht).advance blocks, ⟨current, fun t ht => ?_⟩,
      hsafe.retries.append fun _ _ _ hmem => by cases hmem⟩
    exact (hsingle t ht).imp (Dead.advance · blocks) id
  | land sig =>
    obtain ⟨hc, rfl, rfl⟩ := step_land hs
    refine ⟨hrecorded, hsafe.attempt, hsafe.first,
      fun hp t ht => (hsafe.prepared hp t ht).land hc, ⟨current, fun t ht => ?_⟩,
      hsafe.retries.append fun _ _ _ hmem => by cases List.mem_singleton.mp hmem⟩
    exact (hsingle t ht).imp (Dead.land · hc) id
  | fail sig =>
    obtain ⟨hc, rfl, rfl⟩ := step_fail hs
    refine ⟨hrecorded, hsafe.attempt, hsafe.first,
      fun hp t ht => (hsafe.prepared hp t ht).fail sig, ⟨current, fun t ht => ?_⟩,
      hsafe.retries.append fun _ _ _ hmem => by cases List.mem_singleton.mp hmem⟩
    exact (hsingle t ht).imp (Dead.fail · sig) id

/-- **One landing.** In every run in which a retry is given its blockhash only
after everything sent before has failed or expired, at most one transaction has
landed in any state, and each retry was signed with nothing before it alive. -/
theorem atMostOneLands_of_expired
    (hr : (landing config instructions computeUnitLimitOverride).Reaches RetriesAfterExpiry s h) :
    AtMostOneLands s ∧ RetriesSafe h := by
  have hsafe : Safe s h :=
    Machine.Reaches.invariant safe_init (fun _ hI hC hs => safe_step hI hC hs) hr
  exact ⟨hsafe.atMostOneLands, hsafe.retries⟩

/-- The first transaction expires before the retry, whose transaction lands. -/
def expiresFirst : List Action :=
  [.reply "wallet" (.blockhash { blockhash := "A", lastValidBlockHeight := 150 }),
    .reply "wallet" (.priorityFee 100000),
    .reply "wallet" (.simulation { err := none, unitsConsumed := none }),
    .reply "wallet" .sent, .advance 151,
    .reply "wallet" (.throws "Not confirmed within 45s"), .reply "wallet" (.status none),
    .reply "wallet" (.blockhash { blockhash := "B", lastValidBlockHeight := 301 }),
    .reply "wallet" (.priorityFee 100000), .reply "wallet" .sent,
    .land (buildTransaction "wallet" [] 220000 100000 "B")]

/-- A submission of two attempts that meets the condition. -/
theorem atMostOneLands_of_expired_expiresFirst :
    ∃ s h, (landing {} [] none).Reachable s h ∧ s.submission.attempt = 2 ∧
      s.landed = [buildTransaction "wallet" [] 220000 100000 "B"] ∧
      AtMostOneLands s ∧ RetriesSafe h := by
  have hrun : ((landing {} [] none).runUnder RetriesAfterExpiry (landing {} [] none).init []
      expiresFirst).map (fun r => (r.1.submission.attempt, r.1.landed)) =
      some (2, [buildTransaction "wallet" [] 220000 100000 "B"]) := by
    decide +kernel
  obtain ⟨⟨s, h⟩, hs, hresult⟩ := Option.map_eq_some_iff.mp hrun
  obtain ⟨hattempt, hlanded⟩ := Prod.mk.inj hresult
  have hreaches : (landing {} [] none).Reaches RetriesAfterExpiry s h :=
    Machine.reaches_of_runUnder .init hs
  obtain ⟨hone, hsafe⟩ := atMostOneLands_of_expired hreaches
  exact ⟨s, h, hreaches.reachable, hattempt, hlanded, hone, hsafe⟩

/-! ## Why the condition is needed -/

/-- What is alive can be made to land, and leaves alive what was. -/
theorem exists_landed (hr : (landing config instructions computeUnitLimitOverride).Reachable s h)
    {sig : Signature} (halive : ¬ s.Dead sig) :
    ∃ s' h', (landing config instructions computeUnitLimitOverride).Reachable s' h' ∧
      sig ∈ s'.landed ∧ s.landed ⊆ s'.landed ∧ ∀ sig', ¬ s.Dead sig' → ¬ s'.Dead sig' := by
  rcases landed_or_canLand halive with hl | hc
  · exact ⟨s, h, hr, hl, fun _ hmem => hmem, fun _ ha => ha⟩
  · have hstep : (landing config instructions computeUnitLimitOverride).step s (.land sig) =
        some ({ s with landed := s.landed ++ [sig] }, [.landed sig]) := if_pos hc
    have hrecorded := (recorded_of_reachable hr).land hc
    have hnew : sig ∈ s.landed ++ [sig] := List.mem_append_right _ (List.mem_singleton_self _)
    refine ⟨_, _, hr.step hstep, hnew, fun _ hmem => List.mem_append_left _ hmem,
      fun sig' ha => ?_⟩
    rcases landed_or_canLand ha with hl | ⟨hn, hf, hvalid⟩
    · exact hrecorded.not_dead (List.mem_append_left _ hl)
    · by_cases hsig : sig' = sig
      · exact hrecorded.not_dead (hsig ▸ hnew)
      · refine CanLand.not_dead ⟨fun hmem => ?_, hf, hvalid⟩
        rcases List.mem_append.mp hmem with hmem | hmem
        · exact hn hmem
        · exact hsig (List.mem_singleton.mp hmem)

theorem step_blockhash (config : TxEngineConfig) (hphase : s.submission.phase = .blockhash)
    (bh : LatestBlockhash) :
    s.step config (.reply "wallet" (.blockhash bh)) =
      some ({ s with submission := { s.submission with phase := .priorityFee bh } }, []) := by
  show (s.submission.step config "wallet" (.blockhash bh)).map _ = _
  unfold Submission.step
  rw [hphase]
  rfl

/-- A retry that has its blockhash is signed and sent as soon as the fee is there. -/
theorem step_retry (config : TxEngineConfig) {bh : LatestBlockhash}
    (hphase : s.submission.phase = .priorityFee bh) (hretry : 1 < s.submission.attempt) (fee : ℕ) :
    ∃ tx : SignedTransaction, tx.signature.message.recentBlockhash = bh.blockhash ∧
      tx.lastValidBlockHeight = bh.lastValidBlockHeight ∧
      ∃ es, s.step config (.reply "wallet" (.priorityFee fee)) =
        some ({ s with
                submission := { s.submission with phase := .broadcast tx }
                sent := s.sent ++ [tx] }, es) := by
  have hsend : s.submission.step config "wallet" (.priorityFee fee) =
      some (s.submission.feeArrived config "wallet" bh fee) := by
    unfold Submission.step
    rw [hphase]
  unfold Submission.feeArrived at hsend
  rw [if_neg (Nat.ne_of_gt hretry)] at hsend
  have hmap : s.step config (.reply "wallet" (.priorityFee fee)) =
      (s.submission.step config "wallet" (.priorityFee fee)).map fun p =>
        { s with submission := p.1 }.deliver p.2 := rfl
  rw [hsend] at hmap
  exact ⟨_, rfl, rfl, _, hmap⟩

/-- The second attempt asks for its blockhash, and the first transaction is alive. -/
def unconfirmed : List Action :=
  [.reply "wallet" (.blockhash { blockhash := "A", lastValidBlockHeight := 150 }),
    .reply "wallet" (.priorityFee 100000),
    .reply "wallet" (.simulation { err := none, unitsConsumed := none }),
    .reply "wallet" .sent, .advance 20,
    .reply "wallet" (.throws "Not confirmed within 45s"), .reply "wallet" (.status none)]

end Landing

end FlashEdge
