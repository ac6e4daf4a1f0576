import FlashEdge.Solana
import FlashEdge.Theory.ListSlot

/-!
# The instruction aggregator (`transaction/instruction-aggregator.ts`)

Instruction sets of the SDK are collected in one ordered batch, each under a label, with the
signers they need. A batch that does not fit into a transaction is split: its first label
against the rest, as often as it takes.

- `splitToFit`: the splitting, under any limit.
- `Splits`: the same without a policy, every way of splitting a batch and its parts.
- `lossless_splitToFit`: what is appended comes out, in order, with its signers.
-/

namespace FlashEdge

namespace InstructionAggregator

/-- A `Signer`; the key is its base-58 text. -/
structure Signer where
  publicKey : String
  secretKey : List ℕ
deriving DecidableEq, Repr

structure InstructionBatch where
  instructions : List TransactionInstruction
  additionalSigners : List Signer
  labels : List String
  ixCountPerLabel : List ℕ
deriving DecidableEq, Repr

structure SdkResult where
  instructions : List TransactionInstruction
  additionalSigners : List Signer
deriving DecidableEq, Repr

def MAX_TX_SIZE : ℕ := 1232

def SAFE_TX_SIZE : ℕ := 1180

namespace InstructionBatch

def createBatch : InstructionBatch where
  instructions := []
  additionalSigners := []
  labels := []
  ixCountPerLabel := []

/-- The keys of the signers. -/
def keys (batch : InstructionBatch) : List String := batch.additionalSigners.map (·.publicKey)

/-- One turn of the loop over the signers. `existingKeys` holds the keys of the signers that
are there, at every turn. -/
def pushSigner (signers : List Signer) (signer : Signer) : List Signer :=
  if (signers.map (·.publicKey)).contains signer.publicKey then signers else signers ++ [signer]

def appendToBatch (batch : InstructionBatch) (result : SdkResult) (label : String) :
    InstructionBatch where
  instructions := batch.instructions ++ result.instructions
  labels := batch.labels ++ [label]
  ixCountPerLabel := batch.ixCountPerLabel ++ [result.instructions.length]
  additionalSigners := result.additionalSigners.foldl pushSigner batch.additionalSigners

/-- The size of the batch as a transaction; `serialize` compiles and serialises it, and has no
value where that throws. -/
def estimateBatchSize (serialize : List TransactionInstruction → Option ℕ)
    (batch : InstructionBatch) : ℕ :=
  if batch.instructions.length = 0 then 0
  else (serialize batch.instructions).getD (MAX_TX_SIZE + 1)

def isBatchWithinLimit (serialize : List TransactionInstruction → Option ℕ)
    (batch : InstructionBatch) : Bool :=
  decide (batch.estimateBatchSize serialize ≤ SAFE_TX_SIZE)

def splitBatch (batch : InstructionBatch) : InstructionBatch × InstructionBatch :=
  if batch.labels.length ≤ 1 then (batch, createBatch)
  else
    let firstLabelIxCount := batch.ixCountPerLabel.head?.getD batch.instructions.length
    ({ instructions := batch.instructions.take firstLabelIxCount
       labels := batch.labels.take 1
       ixCountPerLabel := [firstLabelIxCount]
       additionalSigners := batch.additionalSigners },
     { instructions := batch.instructions.drop firstLabelIxCount
       labels := batch.labels.drop 1
       ixCountPerLabel := batch.ixCountPerLabel.drop 1
       additionalSigners := batch.additionalSigners })

/-! ### Appending and splitting over and over -/

/-- An SDK result and its label. -/
abbrev Group := SdkResult × String

/-- All groups, in order. -/
def appendAll (batch : InstructionBatch) (groups : List Group) : InstructionBatch :=
  groups.foldl (fun acc group => acc.appendToBatch group.1 group.2) batch

theorem length_labels_splitBatch {batch : InstructionBatch} (h : ¬ batch.labels.length ≤ 1) :
    batch.splitBatch.2.labels.length < batch.labels.length := by
  unfold splitBatch
  rw [if_neg h]
  show (batch.labels.drop 1).length < _
  rw [List.length_drop]
  omega

/-- What does not fit and has several labels is split, and the rest carried over. -/
def splitToFit (fits : InstructionBatch → Bool) (batch : InstructionBatch) :
    List InstructionBatch :=
  if _h : fits batch ∨ batch.labels.length ≤ 1 then [batch]
  else batch.splitBatch.1 :: splitToFit fits batch.splitBatch.2
termination_by batch.labels.length
decreasing_by exact length_labels_splitBatch (not_or.mp _h).2

/-- Every way of splitting a batch and its parts, none of them split included. -/
inductive Splits : InstructionBatch → List InstructionBatch → Prop
  | whole (batch : InstructionBatch) : Splits batch [batch]
  | split {batch : InstructionBatch} {first rest : List InstructionBatch} :
      Splits batch.splitBatch.1 first → Splits batch.splitBatch.2 rest →
        Splits batch (first ++ rest)

theorem splits_splitToFit (fits : InstructionBatch → Bool) (batch : InstructionBatch) :
    Splits batch (splitToFit fits batch) := by
  induction batch using splitToFit.induct fits with
  | case1 batch h =>
    rw [splitToFit, dif_pos h]
    exact .whole batch
  | case2 batch h ih =>
    rw [splitToFit, dif_neg h]
    exact .split (.whole _) ih

/-! ### Instructions -/

theorem instructions_appendAll (batch : InstructionBatch) (groups : List Group) :
    (batch.appendAll groups).instructions =
      batch.instructions ++ groups.flatMap (·.1.instructions) := by
  induction groups generalizing batch with
  | nil => exact (List.append_nil _).symm
  | cons group groups ih =>
    show ((batch.appendToBatch group.1 group.2).appendAll groups).instructions = _
    rw [ih, List.flatMap_cons, ← List.append_assoc]
    rfl

/-- The two halves hold the instructions of the batch. -/
theorem instructions_splitBatch (batch : InstructionBatch) :
    batch.splitBatch.1.instructions ++ batch.splitBatch.2.instructions = batch.instructions := by
  unfold splitBatch
  split
  · exact List.append_nil _
  · exact List.take_append_drop _ _

theorem Splits.instructions {batch : InstructionBatch} {pieces : List InstructionBatch}
    (h : Splits batch pieces) : pieces.flatMap (·.instructions) = batch.instructions := by
  induction h with
  | whole batch => exact List.flatMap_singleton ..
  | split _ _ ihfirst ihrest =>
    rw [List.flatMap_append, ihfirst, ihrest, instructions_splitBatch]

/-! ### Signers -/

/-- The keys are pushed like the signers. -/
theorem map_foldl_pushSigner (acc l : List Signer) :
    (l.foldl pushSigner acc).map (·.publicKey) =
      (l.map (·.publicKey)).foldl pushNew (acc.map (·.publicKey)) := by
  induction l generalizing acc with
  | nil => rfl
  | cons signer l ih =>
    rw [List.foldl_cons, ih, List.map_cons, List.foldl_cons]
    congr 1
    unfold pushSigner pushNew
    split
    · rfl
    · rw [List.map_append, List.map_singleton]

theorem prefix_pushSigners (acc l : List Signer) : acc <+: l.foldl pushSigner acc := by
  induction l generalizing acc with
  | nil => exact List.prefix_rfl
  | cons signer l ih =>
    refine List.IsPrefix.trans ?_ (ih _)
    unfold pushSigner
    split
    · exact List.prefix_rfl
    · exact List.prefix_append acc [signer]

theorem keys_appendToBatch (batch : InstructionBatch) (result : SdkResult) (label : String) :
    (batch.appendToBatch result label).keys =
      (result.additionalSigners.map (·.publicKey)).foldl pushNew batch.keys :=
  map_foldl_pushSigner batch.additionalSigners result.additionalSigners

/-- The keys of all groups, pushed in order. -/
theorem keys_appendAll (batch : InstructionBatch) (groups : List Group) :
    (batch.appendAll groups).keys =
      (groups.flatMap fun group => group.1.additionalSigners.map (·.publicKey)).foldl pushNew
        batch.keys := by
  induction groups generalizing batch with
  | nil => rfl
  | cons group groups ih =>
    show ((batch.appendToBatch group.1 group.2).appendAll groups).keys = _
    rw [ih, keys_appendToBatch, List.flatMap_cons, List.foldl_append]

theorem additionalSigners_prefix_appendAll (batch : InstructionBatch) (groups : List Group) :
    batch.additionalSigners <+: (batch.appendAll groups).additionalSigners := by
  induction groups generalizing batch with
  | nil => exact List.prefix_rfl
  | cons group groups ih =>
    exact (prefix_pushSigners batch.additionalSigners group.1.additionalSigners).trans
      (ih (batch.appendToBatch group.1 group.2))

/-- Both halves keep all signers, unless there is nothing to sign. -/
theorem additionalSigners_splitBatch (batch : InstructionBatch) :
    batch.splitBatch.1.additionalSigners = batch.additionalSigners ∧
      (batch.splitBatch.2.additionalSigners = batch.additionalSigners ∨
        batch.splitBatch.2 = createBatch) := by
  unfold splitBatch
  split
  · exact ⟨rfl, .inr rfl⟩
  · exact ⟨rfl, .inl rfl⟩

/-- What is split off nothing is nothing. -/
theorem Splits.of_createBatch {pieces : List InstructionBatch} (h : Splits createBatch pieces) :
    ∀ piece ∈ pieces, piece = createBatch := by
  have hgeneral : ∀ {batch : InstructionBatch} {pieces : List InstructionBatch},
      Splits batch pieces → batch = createBatch → ∀ piece ∈ pieces, piece = createBatch := by
    intro batch pieces hsplits
    induction hsplits with
    | whole batch =>
      intro hbatch piece hpiece
      rw [List.mem_singleton.mp hpiece, hbatch]
    | split _ _ ihfirst ihrest =>
      intro hbatch piece hpiece
      subst hbatch
      rcases List.mem_append.mp hpiece with hfirst | hrest
      · exact ihfirst rfl piece hfirst
      · exact ihrest rfl piece hrest
  exact hgeneral h rfl

theorem Splits.additionalSigners {batch : InstructionBatch} {pieces : List InstructionBatch}
    (h : Splits batch pieces) :
    ∀ piece ∈ pieces, piece.additionalSigners = batch.additionalSigners ∨ piece = createBatch := by
  induction h with
  | whole batch =>
    intro piece hpiece
    rw [List.mem_singleton.mp hpiece]
    exact .inl rfl
  | @split batch first rest _ hrest ihfirst ihrest =>
    obtain ⟨hsame, hsecond⟩ := additionalSigners_splitBatch batch
    intro piece hpiece
    rcases List.mem_append.mp hpiece with hin | hin
    · rw [← hsame]
      exact ihfirst piece hin
    · rcases hsecond with hsecond | hempty
      · rw [← hsecond]
        exact ihrest piece hin
      · rw [hempty] at hrest
        exact .inr (hrest.of_createBatch piece hin)

/-! ### The batches that come out -/

/-- Of a batch and the groups appended to it, the pieces hold every instruction once and in
order. A piece with instructions has the signers of the batch and of every group, and of those
that came with the groups none is there twice, or was there before. -/
structure Lossless (batch : InstructionBatch) (groups : List Group)
    (pieces : List InstructionBatch) : Prop where
  instructions : pieces.flatMap (·.instructions) =
    batch.instructions ++ groups.flatMap (·.1.instructions)
  ownSigners : ∀ piece ∈ pieces, piece.instructions ≠ [] →
    batch.additionalSigners <+: piece.additionalSigners
  groupSigners : ∀ piece ∈ pieces, piece.instructions ≠ [] →
    ∀ group ∈ groups, ∀ signer ∈ group.1.additionalSigners, signer.publicKey ∈ piece.keys
  deduplicated : ∀ piece ∈ pieces, piece.instructions ≠ [] →
    ∃ added, piece.keys = batch.keys ++ added ∧ added.Nodup ∧ ∀ key ∈ added, key ∉ batch.keys

/-- However an assembled batch is split. -/
theorem Splits.lossless {batch : InstructionBatch} {groups : List Group}
    {pieces : List InstructionBatch} (h : Splits (batch.appendAll groups) pieces) :
    Lossless batch groups pieces := by
  have hsame : ∀ piece ∈ pieces, piece.instructions ≠ [] →
      piece.additionalSigners = (batch.appendAll groups).additionalSigners := by
    intro piece hpiece hne
    refine (h.additionalSigners piece hpiece).resolve_right fun hempty => hne ?_
    rw [hempty]
    rfl
  have hkeys : ∀ piece ∈ pieces, piece.instructions ≠ [] →
      piece.keys = (batch.appendAll groups).keys := by
    intro piece hpiece hne
    unfold keys
    rw [hsame piece hpiece hne]
  refine ⟨h.instructions.trans (instructions_appendAll batch groups), ?_, ?_, ?_⟩
  · intro piece hpiece hne
    rw [hsame piece hpiece hne]
    exact additionalSigners_prefix_appendAll batch groups
  · intro piece hpiece hne group hgroup signer hsigner
    rw [hkeys piece hpiece hne, keys_appendAll, mem_foldl_pushNew]
    refine .inr (List.mem_flatMap.mpr ⟨group, hgroup, ?_⟩)
    exact List.mem_map_of_mem hsigner
  · intro piece hpiece hne
    rw [hkeys piece hpiece hne, keys_appendAll]
    exact foldl_pushNew_new batch.keys _

/-- Under any limit. -/
theorem lossless_splitToFit (fits : InstructionBatch → Bool) (batch : InstructionBatch)
    (groups : List Group) :
    Lossless batch groups (splitToFit fits (batch.appendAll groups)) :=
  (splits_splitToFit fits _).lossless

end InstructionBatch

end InstructionAggregator

end FlashEdge
