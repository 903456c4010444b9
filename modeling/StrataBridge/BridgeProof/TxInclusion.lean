import StrataBridge.Bitcoin.Block
import StrataBridge.TxGraph.PegOutGraph

/-!
# Transactions in the blocks of a header chain

The statement of the bridge proof is given transactions together with proofs that blocks include
them. A transaction without witness data is proved by its txid under the Merkle root of the header.
One with witness data is proved by its wtxid: the coinbase of the block is proved by its txid, and
it commits to the root of the tree of wtxids.

## References

* `crates/bridge-proof/primitives/src/tx_inclusion_proof.rs`
-/

namespace StrataBridge

/-! ### Data -/

structure L1TxInclusionProof where
  code : ℕ
  deriving DecidableEq, Repr

/-- `L1TxWithIdProof` (lines 14–28). -/
structure L1TxWithIdProof where
  tx : Transaction
  proof : L1TxInclusionProof
  deriving DecidableEq, Repr

/-- `L1TxWithProofBundle` (lines 41–64): the base transaction is the transaction itself, or the
coinbase that commits to it. -/
structure L1TxWithProofBundle where
  baseTx : L1TxWithIdProof
  witnessTx : Option L1TxWithIdProof
  deriving DecidableEq, Repr

structure Buf64 where
  code : ℕ
  deriving DecidableEq, Repr

inductive L1VerificationError where
  | continuity
  | powMismatch
  | powInvalid
  | timestamp
  deriving DecidableEq, Repr

structure ProofEnv extends Env where
  /-- `L1TxProof::verify`: the txid of a transaction is under a Merkle root. -/
  verifyTxProof : L1TxInclusionProof → Transaction → BitVec 256 → Bool
  /-- `L1WtxProof::compute_root`: the root of the tree of wtxids. -/
  computeWtxRoot : L1TxInclusionProof → Transaction → BitVec 256
  /-- `witness_commitment_from_coinbase`. -/
  witnessCommitment : Transaction → Option (BitVec 256)
  sha256d : Bytes → BitVec 256
  /-- `Chainstate::compute_state_root`. -/
  computeStateRoot : Chainstate → Buf32
  /-- `verify_rollup_groth16_proof_receipt` under the verifying key of the parameters. -/
  verifyRollupProof : ProofReceipt → RollupParams → Bool
  verifySchnorrSig : Buf64 → Txid → Buf32 → Bool
  /-- `HeaderVerificationState::check_and_update_continuity` on the network of the parameters. -/
  checkAndUpdateContinuity : HeaderVerificationState → Header → RollupParams →
    Except L1VerificationError HeaderVerificationState
  /-- The width of `usize`: 32 in the guest program, 64 on the machine of an operator. -/
  usizeBits : ℕ

/-- `Transaction::is_coinbase`: one input, which spends no output. -/
def Transaction.isCoinbase (tx : Transaction) : Bool :=
  match tx.input with
  | [input] => input.previousOutput = ⟨⟨0⟩, 2 ^ 32 - 1⟩
  | _ => false

namespace L1TxWithProofBundle

variable (env : ProofEnv) (bundle : L1TxWithProofBundle)

/-- `L1TxWithProofBundle::transaction`. -/
def transaction : Transaction :=
  match bundle.witnessTx with
  | some witness => witness.tx
  | none => bundle.baseTx.tx

/-- A coinbase commits to a root of wtxids (lines 147–171): it hashes the root together with the one
element of its witness. -/
def commitsRoot (coinbase : Transaction) (witnessRoot : BitVec 256) : Bool :=
  match coinbase.input with
  | [] => false
  | input :: _ =>
    match input.witness with
    | [reserved] =>
      reserved.length = 32 &&
        env.witnessCommitment coinbase =
          some (env.sha256d (toBeBytes 32 witnessRoot.toNat ++ reserved))
    | _ => false

/-- `L1TxWithProofBundle::verify` (lines 122–173). -/
def verify (header : Header) : Bool :=
  env.verifyTxProof bundle.baseTx.proof bundle.baseTx.tx header.merkleRoot &&
    match bundle.witnessTx with
    | none => true
    | some witness =>
      bundle.baseTx.tx.isCoinbase &&
        commitsRoot env bundle.baseTx.tx (env.computeWtxRoot witness.proof witness.tx)

end L1TxWithProofBundle

/-! ### Commitments -/

section Commitments

variable (env : ProofEnv) (wtxid : Transaction → BitVec 256)
  (Includes : BitVec 256 → BitVec 256 → Prop)

/-- What is assumed of Merkle proofs, when `Includes root leaf` says that a leaf is in the tree with
a root: a checked proof shows that the txid is in the tree, and a computed root is that of a tree
with the wtxid in it. -/
structure ProofEnv.MerkleSound : Prop where
  txid : ∀ proof tx root, env.verifyTxProof proof tx root = true →
    Includes root (env.computeTxid tx).hash
  wtxid : ∀ proof tx, Includes (env.computeWtxRoot proof tx) (wtxid tx)

def Header.CommitsTxid (header : Header) (tx : Transaction) : Prop :=
  Includes header.merkleRoot (env.computeTxid tx).hash

/-- A header commits to the wtxid of a transaction: it commits to the txid of a coinbase, and the
coinbase to a root over the wtxid. -/
def Header.CommitsWtxid (header : Header) (tx : Transaction) : Prop :=
  ∃ coinbase witnessRoot, header.CommitsTxid env Includes coinbase ∧ coinbase.isCoinbase = true ∧
    L1TxWithProofBundle.commitsRoot env coinbase witnessRoot = true ∧
    Includes witnessRoot (wtxid tx)

def L1TxWithProofBundle.CommittedBy (bundle : L1TxWithProofBundle) (header : Header) : Prop :=
  match bundle.witnessTx with
  | some _ => header.CommitsWtxid env wtxid Includes bundle.transaction
  | none => header.CommitsTxid env Includes bundle.transaction

variable {env wtxid Includes}

/-- **A verified bundle is committed to.** -/
theorem L1TxWithProofBundle.commits_of_verify (hmerkle : env.MerkleSound wtxid Includes)
    {bundle : L1TxWithProofBundle} {header : Header} (h : bundle.verify env header = true) :
    bundle.CommittedBy env wtxid Includes header := by
  obtain ⟨base, witness⟩ := bundle
  rw [verify, Bool.and_eq_true] at h
  have hbase := hmerkle.txid _ _ _ h.1
  cases witness with
  | none => exact hbase
  | some witness =>
    obtain ⟨hcoinbase, hroot⟩ := Bool.and_eq_true_iff.mp h.2
    exact ⟨base.tx, _, hbase, hcoinbase, hroot, hmerkle.wtxid witness.proof witness.tx⟩

end Commitments

end StrataBridge
