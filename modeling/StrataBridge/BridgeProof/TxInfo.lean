import StrataBridge.BridgeProof.TxInclusion
import StrataBridge.DutyTracker.Predicates
import StrataBridge.TxGraph.WithdrawalFulfillment

/-!
# What the bridge proof reads from transactions

The statement of the bridge proof reads the chain state of the sidesystem from a checkpoint, and
the data of a withdrawal from the transaction that fulfills it. A checkpoint is looked for in all
inputs of a transaction, and the first that decodes has to be valid. The data of a withdrawal is
read at fixed offsets of the second output's script.

## References

* `crates/bridge-proof/protocol/src/tx_info.rs`, `crates/bridge-proof/protocol/src/error.rs`
-/

namespace StrataBridge

open Rust List

variable {script : ScriptBuf}

/-! ### Errors -/

/-- What is wrong with a withdrawal fulfillment; the texts of `tx_info.rs`. -/
inductive WithdrawalFulfillmentErr where
  | outputsLessThanTwo (got : ℕ)
  | metadataScriptSize (expected got : ℕ)
  | tagMismatch (expected got : Tag)
  | inclusion
  deriving DecidableEq, Repr

/-- `BridgeRelatedTx` (`error.rs`, lines 85–93). -/
inductive BridgeRelatedTx where
  | strataCheckpoint
  | withdrawalFulfillment (e : WithdrawalFulfillmentErr)
  deriving DecidableEq, Repr

/-- `ChainStateError` (`error.rs`, lines 63–83). -/
inductive ChainStateError where
  | depositNotFound (idx : ℕ)
  | invalidDepositState
  | mismatchedDepositTxid (depositTxidInChainstate depositTxidInFulfillment : Txid)
  deriving DecidableEq, Repr

/-- `BridgeProofError` (`error.rs`, lines 4–61). -/
inductive BridgeProofError where
  | invalidParams (e : String)
  | txInfoExtractionError (tx : BridgeRelatedTx)
  | invalidMerkleProof (tx : BridgeRelatedTx)
  | chainStateMismatch
  | chainStateError (e : ChainStateError)
  | invalidWithdrawalData
  | invalidOperatorSignature
  | unsatisfiedStrataCredRule
  | invalidStrataProof
  | deadlineExceeded
  | invalidTxOrder (earlier later : BridgeRelatedTx)
  | insufficientBlocksAfterWithdrawalFulfillment (expected got : ℕ)
  | invalidHeader (e : L1VerificationError)
  deriving DecidableEq, Repr

/-! ### Checkpoints -/

section Checkpoint

variable (env : ProofEnv) (rollupParams : RollupParams)

/-- The checks on a signed checkpoint that was found (`tx_info.rs`, lines 27–54). -/
def validChainstate (signed : SignedCheckpoint) : Outcome Unit BridgeProofError Chainstate :=
  if env.verifySignedCheckpointSig signed rollupParams = false then
    .err () .unsatisfiedStrataCredRule
  else
    match env.decodeChainstate signed.checkpoint.sidecar with
    | none => .panic "invalid chainstate"
    | some chainstate =>
      if env.computeStateRoot chainstate ≠ signed.checkpoint.postStateRoot then
        .err () .chainStateMismatch
      else if env.verifyRollupProof signed.checkpoint.receipt rollupParams = false then
        .err () .invalidStrataProof
      else .ok () chainstate

def findChainstate (filterConfig : TxFilterConfig) :
    List TxIn → Outcome Unit BridgeProofError Chainstate
  | [] => .err () (.txInfoExtractionError .strataCheckpoint)
  | input :: inputs =>
    match envelopeCheckpoint env.toEnv filterConfig input with
    | some signed => validChainstate env rollupParams signed
    | none => findChainstate filterConfig inputs

/-- `extract_valid_chainstate_from_checkpoint` (`tx_info.rs`, lines 12–61). -/
def extractValidChainstateFromCheckpoint (tx : Transaction) :
    Outcome Unit BridgeProofError Chainstate :=
  match env.deriveFilterConfig rollupParams with
  | .error e => .err () (.invalidParams e)
  | .ok filterConfig => findChainstate env rollupParams filterConfig tx.input

end Checkpoint

/-! ### Withdrawals -/

/-- `WithdrawalInfo` (`tx_info.rs`, lines 63–71). -/
structure WithdrawalInfo where
  tag : Tag
  operatorIdx : OperatorIdx
  depositIdx : ℕ
  depositTxid : Txid
  withdrawalAddress : ScriptBuf
  withdrawalAmount : ℕ
  deriving DecidableEq, Repr

def opReturnInstructionSize : ℕ := 2

def metadataScriptSize : ℕ := opReturnInstructionSize + tagSize + 4 + 4 + 32

def slice (script : ScriptBuf) (offset n : ℕ) : Bytes := (script.drop offset).take n

/-- `Tag::try_from` on a slice of the right length. -/
def Tag.ofSlice (b : Bytes) (h : b.length = tagSize) : Tag := ⟨b, h⟩

theorem length_slice_tag (h : script.length = metadataScriptSize) :
    (slice script opReturnInstructionSize tagSize).length = tagSize := by
  simp [slice, h, metadataScriptSize, opReturnInstructionSize, tagSize]

/-- `extract_withdrawal_info` (`tx_info.rs`, lines 74–172). Once the length of the script is
checked the slices have the lengths that the conversions ask for. -/
def extractWithdrawalInfo (tx : Transaction) (expectedTag : Tag) :
    Outcome Unit BridgeProofError WithdrawalInfo :=
  match tx.output with
  | fulfillment :: metadata :: _ =>
    let script := metadata.scriptPubkey
    if h : script.length = metadataScriptSize then
      let tag := Tag.ofSlice (slice script opReturnInstructionSize tagSize) (length_slice_tag h)
      if tag ≠ expectedTag then
        .err () (.txInfoExtractionError (.withdrawalFulfillment (.tagMismatch expectedTag tag)))
      else
        .ok ()
          { tag := tag
            operatorIdx := ofBeBytes (slice script (opReturnInstructionSize + tagSize) 4)
            depositIdx := ofBeBytes (slice script (opReturnInstructionSize + tagSize + 4) 4)
            depositTxid := .ofBytes (slice script (opReturnInstructionSize + tagSize + 4 + 4) 32)
            withdrawalAddress := fulfillment.scriptPubkey
            withdrawalAmount := fulfillment.value }
    else
      .err () (.txInfoExtractionError
        (.withdrawalFulfillment (.metadataScriptSize metadataScriptSize script.length)))
  | outputs =>
    .err () (.txInfoExtractionError (.withdrawalFulfillment (.outputsLessThanTwo outputs.length)))

def WithdrawalInfo.metadata (info : WithdrawalInfo) : WithdrawalMetadata :=
  ⟨info.tag, info.operatorIdx, info.depositIdx, info.depositTxid⟩

section

variable (h : script.length = metadataScriptSize)
include h

private theorem drop_eq_slices :
    script.drop opReturnInstructionSize =
      slice script opReturnInstructionSize tagSize ++
        slice script (opReturnInstructionSize + tagSize) 4 ++
        slice script (opReturnInstructionSize + tagSize + 4) 4 ++
        slice script (opReturnInstructionSize + tagSize + 4 + 4) 32 := by
  have hsplit (l : Bytes) (n m : ℕ) : l.drop n = slice l n m ++ l.drop (n + m) := by
    rw [slice, ← drop_drop, take_append_drop]
  have hend : script.drop (opReturnInstructionSize + tagSize + 4 + 4 + 32) = [] :=
    drop_eq_nil_of_le h.le
  rw [hsplit _ opReturnInstructionSize tagSize, hsplit _ (opReturnInstructionSize + tagSize) 4,
    hsplit _ (opReturnInstructionSize + tagSize + 4) 4,
    hsplit _ (opReturnInstructionSize + tagSize + 4 + 4) 32, hend, append_nil,
    append_assoc, append_assoc]

private theorem length_slice :
    (slice script (opReturnInstructionSize + tagSize) 4).length = 4 ∧
    (slice script (opReturnInstructionSize + tagSize + 4) 4).length = 4 ∧
    (slice script (opReturnInstructionSize + tagSize + 4 + 4) 32).length = 32 := by
  simp [slice, h, metadataScriptSize, tagSize]

theorem drop_eq_opReturnData_iff (m : WithdrawalMetadata) :
    script.drop opReturnInstructionSize = m.opReturnData ↔
      slice script opReturnInstructionSize tagSize = m.tag.bytes ∧
      slice script (opReturnInstructionSize + tagSize) 4 = toBeBytes 4 m.operatorIdx ∧
      slice script (opReturnInstructionSize + tagSize + 4) 4 = toBeBytes 4 m.depositIdx ∧
      slice script (opReturnInstructionSize + tagSize + 4 + 4) 32 = m.depositTxid.toBytes := by
  obtain ⟨hop, hdep, htxid⟩ := length_slice h
  rw [drop_eq_slices h, WithdrawalMetadata.opReturnData]
  constructor
  · intro heq
    obtain ⟨heq, h4⟩ := append_inj' heq (by simp [htxid])
    obtain ⟨heq, h3⟩ := append_inj' heq (by simp [hdep])
    obtain ⟨h1, h2⟩ := append_inj' heq (by simp [hop])
    exact ⟨h1, h2, h3, h4⟩
  · rintro ⟨h1, h2, h3, h4⟩
    rw [h1, h2, h3, h4]

end

theorem length_of_drop_eq {m : WithdrawalMetadata}
    (h : script.drop opReturnInstructionSize = m.opReturnData) :
    script.length = metadataScriptSize := by
  have hlen := congrArg length h
  rw [length_drop, m.length_opReturnData] at hlen
  simp only [metadataScriptSize, tagSize] at hlen ⊢
  omega

theorem eq_toBeBytes_iff {b : Bytes} (hlen : b.length = 4) (x : ℕ) :
    ofBeBytes b = x ↔ x < 2 ^ 32 ∧ b = toBeBytes 4 x := by
  constructor
  · rintro rfl
    have hlt := ofBeBytes_lt b
    rw [hlen] at hlt
    exact ⟨by simpa using hlt, (toBeBytes_ofBeBytes hlen).symm⟩
  · rintro ⟨hx, rfl⟩
    rw [ofBeBytes_toBeBytes, Nat.mod_eq_of_lt (by simpa using hx)]

/-- **When the data of a withdrawal is read.** The second output has a script that ends in the
written data after two bytes, and the first output is the payment. -/
theorem extractWithdrawalInfo_ok_iff {tx : Transaction} {expectedTag : Tag}
    {info : WithdrawalInfo} :
    extractWithdrawalInfo tx expectedTag = .ok () info ↔
      info.tag = expectedTag ∧ info.operatorIdx < 2 ^ 32 ∧ info.depositIdx < 2 ^ 32 ∧
      ∃ fulfillment metadata rest, tx.output = fulfillment :: metadata :: rest ∧
        metadata.scriptPubkey.drop opReturnInstructionSize = info.metadata.opReturnData ∧
        fulfillment.scriptPubkey = info.withdrawalAddress ∧
        fulfillment.value = info.withdrawalAmount := by
  obtain ⟨version, lockTime, input, output⟩ := tx
  match output with
  | [] | [_] => simp [extractWithdrawalInfo]
  | fulfillment :: metadata :: rest =>
    by_cases h : metadata.scriptPubkey.length = metadataScriptSize
    · obtain ⟨hop, hdep, htxid⟩ := length_slice h
      rw [extractWithdrawalInfo]
      simp only [dif_pos h]
      constructor
      · intro heq
        split at heq
        · cases heq
        next htag =>
        obtain rfl := Outcome.ok.inj heq |>.2
        refine ⟨not_not.mp htag, ((eq_toBeBytes_iff hop _).mp rfl).1,
          ((eq_toBeBytes_iff hdep _).mp rfl).1, fulfillment, metadata, rest, rfl, ?_, rfl, rfl⟩
        refine (drop_eq_opReturnData_iff h _).mpr ⟨rfl, ?_, ?_, (Txid.toBytes_ofBytes htxid).symm⟩
        · exact (toBeBytes_ofBeBytes hop).symm
        · exact (toBeBytes_ofBeBytes hdep).symm
      · rintro ⟨rfl, hopLt, hdepLt, fulfillment', metadata', rest', heq, hdata, haddress, hamount⟩
        obtain ⟨rfl, hrest⟩ := cons.inj heq
        cases hrest
        obtain ⟨h1, h2, h3, h4⟩ := (drop_eq_opReturnData_iff h info.metadata).mp hdata
        have htag : Tag.ofSlice (slice metadata.scriptPubkey opReturnInstructionSize tagSize)
            (length_slice_tag h) = info.tag := Tag.mk.injEq .. |>.mpr h1
        rw [if_neg (not_not.mpr htag), (eq_toBeBytes_iff hop info.operatorIdx).mpr ⟨hopLt, h2⟩,
          (eq_toBeBytes_iff hdep info.depositIdx).mpr ⟨hdepLt, h3⟩, h4, Txid.ofBytes_toBytes, htag,
          haddress, hamount]
        rfl
    · rw [extractWithdrawalInfo]
      simp only [dif_neg h]
      refine iff_of_false (by simp) ?_
      rintro ⟨-, -, -, fulfillment', metadata', rest', heq, hdata, -⟩
      obtain ⟨rfl, hrest⟩ := cons.inj heq
      cases hrest
      exact h (length_of_drop_eq hdata)

end StrataBridge
