import Mathlib.Algebra.Group.Nat.Defs
import Mathlib.Data.List.Basic

/-!
# Instructions, messages and signatures

What the client uses of the Solana library. A public key is its base-58 text. A
signature of the wallet is ideal: it is the signature of one message, so it is
identified with this message, and two messages never share one.
-/

namespace FlashEdge

structure AccountMeta where
  pubkey : String
  isSigner : Bool
  isWritable : Bool
deriving DecidableEq, Repr

structure TransactionInstruction where
  programId : String
  keys : List AccountMeta
  data : List ℕ
deriving DecidableEq, Repr

/-- What `MessageV0.compile` is given. The address lookup tables change the
encoding of the accounts and nothing else. -/
structure Message where
  payerKey : String
  instructions : List TransactionInstruction
  recentBlockhash : String
deriving DecidableEq, Repr

/-- The wallet's signature of a message. -/
structure Signature where
  message : Message
deriving DecidableEq, Repr

def COMPUTE_BUDGET_PROGRAM : String := "ComputeBudget111111111111111111111111111111"
def ED25519_PROGRAM : String := "Ed25519SigVerify111111111111111111111111111"

/-- `count` little-endian bytes of a number. -/
def littleEndian (count n : ℕ) : List ℕ :=
  (List.range count).map fun i => n / 256 ^ i % 256

/-- `ComputeBudgetProgram.setComputeUnitLimit({ units })`. -/
def setComputeUnitLimit (units : ℕ) : TransactionInstruction :=
  { programId := COMPUTE_BUDGET_PROGRAM, keys := [], data := 2 :: littleEndian 4 units }

/-- `ComputeBudgetProgram.setComputeUnitPrice({ microLamports })`. -/
def setComputeUnitPrice (microLamports : ℕ) : TransactionInstruction :=
  { programId := COMPUTE_BUDGET_PROGRAM, keys := [], data := 3 :: littleEndian 8 microLamports }

/-- The order in which a transaction carries its instructions: signature
verification first, then the compute budget, then the others. -/
def buildOrderedIxs (cuLimitIx cuPriceIx : TransactionInstruction)
    (instructions : List TransactionInstruction) : List TransactionInstruction :=
  instructions.filter (·.programId = ED25519_PROGRAM) ++ [cuLimitIx, cuPriceIx] ++
    instructions.filter (·.programId ≠ ED25519_PROGRAM)

/-- A transaction carries the programs of its instructions and the compute budget. -/
theorem programId_buildOrderedIxs {cuLimit cuPrice : ℕ}
    {instructions : List TransactionInstruction} {ix : TransactionInstruction}
    (h : ix ∈ buildOrderedIxs (setComputeUnitLimit cuLimit) (setComputeUnitPrice cuPrice)
      instructions) :
    ix.programId = COMPUTE_BUDGET_PROGRAM ∨ ix ∈ instructions := by
  unfold buildOrderedIxs at h
  simp only [List.mem_append, List.mem_filter, List.mem_cons, List.not_mem_nil, or_false] at h
  rcases h with (⟨hmem, -⟩ | rfl | rfl) | ⟨hmem, -⟩
  · exact .inr hmem
  · exact .inl rfl
  · exact .inl rfl
  · exact .inr hmem

end FlashEdge
