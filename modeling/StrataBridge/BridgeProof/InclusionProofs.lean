import StrataBridge.Executors.ProofHandler
import StrataBridge.Instance.LinearProof
import Mathlib.Logic.Equiv.List
import Mathlib.Data.BitVec

/-!
# Bundles of inclusion proofs

An operator makes the bundle for a transaction from the transactions of a block. A transaction
without witness data gets a proof of its txid. One with witness data gets a proof of its wtxid, and
the coinbase of the block one of its txid. That is what the statement of the bridge proof checks
against a header. The Merkle proofs themselves come from elsewhere, and are assumed to be correct.

## References

* `crates/bridge-proof/primitives/src/tx_inclusion_proof.rs`, lines 94–173
-/

namespace StrataBridge

open Rust Linear List

/-- What generates and what checks the proofs, and the Merkle trees of bitcoin. -/
structure MerkleEnv extends BundleEnv, ProofEnv where
  merkleRoot : List (BitVec 256) → BitVec 256
  wtxid : Transaction → BitVec 256

namespace MerkleEnv

variable (env : MerkleEnv)

def IsLeaf (root leaf : BitVec 256) : Prop := ∃ leaves, env.merkleRoot leaves = root ∧ leaf ∈ leaves

def txids (txs : List Transaction) : List (BitVec 256) :=
  txs.map fun tx => (env.computeTxid tx).hash

/-- The leaves of the tree that the coinbase commits to, with zero for the coinbase itself. -/
def wtxids : List Transaction → List (BitVec 256)
  | [] => []
  | _ :: txs => 0 :: txs.map env.wtxid

/-- What is assumed of Merkle proofs: those that are generated lead to the root of the tree, and
only a leaf of a tree has a proof that leads to its root. -/
structure Correct : Prop extends env.toProofEnv.MerkleSound env.wtxid env.IsLeaf where
  generateTxProof : ∀ txs i tx, txs[i]? = some tx →
    env.verifyTxProof (env.generateTxProof txs i) tx (env.merkleRoot (env.txids txs)) = true
  generateWtxProof : ∀ txs i tx, 1 ≤ i → txs[i]? = some tx →
    env.computeWtxRoot (env.generateWtxProof txs i) tx = env.merkleRoot (env.wtxids txs)

end MerkleEnv

def Transaction.HasWitness (tx : Transaction) : Prop := ∃ input ∈ tx.input, input.witness ≠ []

/-- A block whose header has the Merkle root of its transactions, and whose coinbase commits to
their witnesses if there are any. -/
structure ValidBlock (env : MerkleEnv) (block : ChainBlock) : Prop where
  merkleRoot : block.header.merkleRoot = env.merkleRoot (env.txids block.txdata)
  witnessCommitment : (∃ tx ∈ block.txdata, tx.HasWitness) →
    ∃ coinbase, block.txdata.head? = some coinbase ∧ coinbase.isCoinbase = true ∧
      L1TxWithProofBundle.commitsRoot env.toProofEnv coinbase
        (env.merkleRoot (env.wtxids block.txdata)) = true

namespace L1TxWithProofBundle

end L1TxWithProofBundle

/-! ### Proofs that name all leaves -/

namespace Linear

def disclose (leaves : List (BitVec 256)) (i : ℕ) : L1TxInclusionProof :=
  ⟨Encodable.encode ((leaves.take i).map BitVec.toNat, (leaves.drop (i + 1)).map BitVec.toNat)⟩

def disclosed (proof : L1TxInclusionProof) (leaf : BitVec 256) : List (BitVec 256) :=
  match (Encodable.decode proof.code : Option (List ℕ × List ℕ)) with
  | some (before, after) => before.map (.ofNat 256) ++ leaf :: after.map (.ofNat 256)
  | none => [leaf]

theorem mem_disclosed (proof : L1TxInclusionProof) (leaf : BitVec 256) :
    leaf ∈ disclosed proof leaf := by
  rw [disclosed]
  split <;> simp

theorem disclosed_disclose {leaves : List (BitVec 256)} {i : ℕ} {leaf : BitVec 256}
    (h : leaves[i]? = some leaf) : disclosed (disclose leaves i) leaf = leaves := by
  obtain ⟨hi, rfl⟩ := List.getElem?_eq_some_iff.mp h
  simp [disclosed, disclose, Function.comp_def]

/-- Trees whose root is the sum of their leaves, with proofs that name all leaves. -/
def discloseEnv : MerkleEnv :=
  { proofEnv fun _ => none with
    verifyTxProof := fun proof tx root => (disclosed proof (computeTxid tx).hash).sum = root
    computeWtxRoot := fun proof tx => (disclosed proof (wtxid tx)).sum
    generateTxProof := fun txs => disclose (txs.map fun tx => (computeTxid tx).hash)
    generateWtxProof := fun txs => disclose (0 :: txs.tail.map wtxid)
    merkleRoot := sum
    wtxid := wtxid }

private theorem disclose_correct : discloseEnv.Correct where
  txid proof tx root h := ⟨_, of_decide_eq_true h, mem_disclosed _ _⟩
  wtxid proof tx := ⟨_, rfl, mem_disclosed _ _⟩
  generateTxProof txs i tx h := by
    have htxid : (txs.map fun tx => (computeTxid tx).hash)[i]? = some (computeTxid tx).hash := by
      simp [h]
    exact decide_eq_true (congrArg sum (disclosed_disclose htxid))
  generateWtxProof txs i tx hi h := by
    obtain ⟨i, rfl⟩ := Nat.exists_eq_add_of_le' hi
    cases txs with
    | nil => cases h
    | cons coinbase txs =>
      have hwtxid : (0 :: txs.map wtxid)[i + 1]? = some (wtxid tx) := by
        rw [getElem?_cons_succ] at h ⊢
        simp [h]
      exact congrArg sum (disclosed_disclose hwtxid)

end Linear

namespace L1TxWithProofBundle

end L1TxWithProofBundle

end StrataBridge
