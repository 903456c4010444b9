import StrataBridge.BridgeProof.Statement
import StrataBridge.Instance.LinearBridge

/-!
# Bridge proofs in the linear instance

Blocks of the linear instance hold one transaction, whose identifier is the Merkle root of the
header, and headers are numbered. A transaction with witness data is in a block with a coinbase
that commits to it.
-/

namespace StrataBridge.Linear

open Rust

/-! ### The environment -/

variable (chainstate : Bytes → Option Chainstate) (tx : Transaction)

def wtxid : BitVec 256 :=
  .ofNat 256 (digest (serialize tx ++ tx.input.flatMap fun input => input.witness.flatMap ofBytes))

def schnorr (txid : Txid) (key : Buf32) : Buf64 := ⟨digest [txid.hash.toNat, key.code]⟩

def continuity (headerVs : HeaderVerificationState) (header : Header) :
    Except L1VerificationError HeaderVerificationState :=
  if header.code = headerVs.code + 1 then .ok ⟨headerVs.lastVerifiedHeight + 1, header.code⟩
  else .error .continuity

def proofEnv : ProofEnv :=
  { env chainstate with
    verifyTxProof := fun _ tx root => root = (computeTxid tx).hash
    computeWtxRoot := fun _ tx => wtxid tx
    witnessCommitment := fun coinbase =>
      coinbase.output.head?.map fun out => .ofNat 256 (ofBeBytes out.scriptPubkey)
    sha256d := fun b => .ofNat 256 (digest (ofBytes b))
    computeStateRoot := fun _ => ⟨0⟩
    verifyRollupProof := fun receipt _ => receipt.code = 1
    verifySchnorrSig := fun sig txid key => sig = schnorr txid key
    checkAndUpdateContinuity := fun headerVs header _ => continuity headerVs header
    usizeBits := 64 }

theorem merkleSound :
    (proofEnv chainstate).MerkleSound wtxid fun root leaf => root = leaf where
  txid _ _ _ h := of_decide_eq_true h
  wtxid _ _ := rfl

theorem continues : (proofEnv chainstate).Continues := by
  intro headerVs header rollupParams headerVs' h
  change continuity headerVs header = .ok headerVs' at h
  rw [continuity] at h
  split_ifs at h
  cases h
  rfl

/-! ### Proofs -/

def rollupParams : RollupParams := ⟨20, 0⟩

def depositTxid (request : ℕ) : Txid := computeTxid (depositTx request).tx.unsignedTx

def entryUntil (request deadline : ℕ) : DepositEntry where
  idx := 0
  output := ⟨depositTxid request, 0⟩
  amt := 1000
  depositState := .dispatched ⟨[⟨⟨50⟩, 900⟩], 0, deadline⟩
  withdrawalRequestTxid := some ⟨60⟩

def dispatchedUntil (request deadline : ℕ) : Chainstate where
  depositsTable := [entryUntil request deadline]
  operatorTable := [(0, ⟨70⟩)]
  headerVs := ⟨100, 0⟩

def proofEnvUntil (request deadline : ℕ) : ProofEnv :=
  proofEnv fun _ => some (dispatchedUntil request deadline)

def coinbase : Transaction where
  version := 1
  lockTime := 0
  input := [{ previousOutput := ⟨⟨0⟩, 2 ^ 32 - 1⟩
              scriptSig := []
              sequence := 0
              witness := [List.replicate 32 0] }]
  output :=
    let commitment := digest (ofBytes (toBeBytes 32 (wtxid tx).toNat ++ List.replicate 32 0))
    createTxOuts [(toBeBytes 32 commitment, 0)]

def checkpointBundle : L1TxWithProofBundle :=
  ⟨⟨coinbase (checkpointTx 0), ⟨0⟩⟩, some ⟨checkpointTx 0, ⟨0⟩⟩⟩

def inscription (scripts : List Bytes) : Transaction :=
  { checkpointTx 0 with
    input := scripts.map fun script =>
      { previousOutput := ⟨stakeTxid 0, 0⟩, scriptSig := [], sequence := 0, witness := [script] } }

def headers (idx length : ℕ) : List Header :=
  (List.range length).map fun i =>
    ⟨if i = 0 then (computeTxid (coinbase (checkpointTx 0))).hash
      else if i = idx then (computeTxid tx).hash else 0, i + 1⟩

def proofInput (idx : ℕ) : BridgeProofInput where
  strataCheckpointTx := (checkpointBundle, 0)
  withdrawalFulfillmentTx := (⟨⟨tx, ⟨0⟩⟩, none⟩, idx)
  opSignature := schnorr (computeTxid tx) ⟨70⟩

/-- The statement on the proof of the payment of operator 0, in the block with the given position,
from a chain state with the given deadline. -/
def prove (deadline idx length : ℕ) : Outcome Unit BridgeProofError BridgeProofPublicOutput :=
  processBridgeProof (proofEnvUntil 1 deadline) rollupParams graphParams
    (proofInput (fulfillment 0 0 1) idx) (headers (fulfillment 0 0 1) idx length)

end StrataBridge.Linear
