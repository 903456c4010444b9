import StrataBridge.Instance.LinearProof

/-!
# What an accepted bridge proof shows

An accepted proof shows that a transaction in the chain of headers fulfills a withdrawal that the
chain state dispatches, and the same transaction shows it for one deposit only. It shows less about
time than it is meant to. The first header is that of the block after the last one that the chain
state has verified, but the height of the fulfillment is counted as if it were that of the last
verified block, so a fulfillment one block after its deadline passes. The headers after the
fulfillment are counted together with the one of its own block.

## References

* `crates/bridge-proof/protocol/src/statement.rs`
-/

namespace StrataBridge

open Rust Linear List

variable {env : ProofEnv} {rollupParams : RollupParams} {params : PegOutGraphParams}
  {input : BridgeProofInput} {headers : List Header} {output : BridgeProofPublicOutput}

theorem lt_length_of_checkFulfillment {checked : Chainstate × WithdrawalInfo × DispatchedState}
    (h : checkFulfillment env rollupParams params input headers = .ok () checked) :
    input.withdrawalFulfillmentTx.2 < headers.length := by
  obtain ⟨-, -, -, ⟨header, hheader, -⟩, -⟩ := checkFulfillment_ok_iff.mp h
  exact (List.getElem?_eq_some_iff.mp hheader).1

/-! ### Fulfillments -/

def Transaction.withoutWitnesses (tx : Transaction) : Transaction :=
  { tx with input := tx.input.map fun input => { input with witness := [] } }

def Env.CollisionFree (env : Env) (txs : Set Transaction) : Prop :=
  ∀ tx ∈ txs, ∀ tx' ∈ txs, env.computeTxid tx = env.computeTxid tx' →
    tx.withoutWitnesses = tx'.withoutWitnesses

/-- What an accepted proof shows, of the entry of the deposits table that it is about: the headers
continue the chain state; one commits to the checkpoint, and one that is not before it commits to
the fulfillment; the entry is dispatched, and the fulfillment makes the payment that it asks for
and names it. -/
structure Attested (env : ProofEnv) (wtxid : Transaction → BitVec 256)
    (Includes : BitVec 256 → BitVec 256 → Prop) (rollupParams : RollupParams)
    (params : PegOutGraphParams) (input : BridgeProofInput) (headers : List Header)
    (output : BridgeProofPublicOutput) (chainstate : Chainstate) (entry : DepositEntry)
    (dispatched : DispatchedState) (withdrawal : WithdrawOutput) : Prop where
  checkpoint : extractValidChainstateFromCheckpoint env rollupParams
    input.strataCheckpointTx.1.transaction = .ok () chainstate
  chain : ∃ headerVs, verifyHeaders env rollupParams chainstate.headerVs headers = .ok headerVs
  order : input.strataCheckpointTx.2 ≤ input.withdrawalFulfillmentTx.2
  checkpointIncluded : ∃ header, headers[input.strataCheckpointTx.2]? = some header ∧
    header.CommitsWtxid env wtxid Includes input.strataCheckpointTx.1.transaction
  fulfillmentIncluded : ∃ header, headers[input.withdrawalFulfillmentTx.2]? = some header ∧
    input.withdrawalFulfillmentTx.1.CommittedBy env wtxid Includes header
  txid : env.computeTxid input.withdrawalFulfillmentTx.1.transaction =
    output.withdrawalFulfillmentTxid
  inTable : chainstate.getDeposit entry.idx = some entry
  depositTxid : entry.output.txid = output.depositTxid
  depositState : entry.depositState = .dispatched dispatched
  firstOutput : dispatched.withdrawOutputs.head? = some withdrawal
  bounds : dispatched.assignee < 2 ^ 32 ∧ entry.idx < 2 ^ 32
  payment : ∃ payment metadata rest,
    input.withdrawalFulfillmentTx.1.transaction.output = payment :: metadata :: rest ∧
    metadata.scriptPubkey.drop opReturnInstructionSize =
      (WithdrawalMetadata.mk params.tag dispatched.assignee entry.idx
        output.depositTxid).opReturnData ∧
    payment.scriptPubkey = env.toScript withdrawal.destination ∧
    entry.amt = payment.value + params.operatorFee
  signed : ∃ operatorPubKey, chainstate.walletPk dispatched.assignee = some operatorPubKey ∧
    env.verifySchnorrSig input.opSignature output.withdrawalFulfillmentTxid operatorPubKey = true

variable {Includes : BitVec 256 → BitVec 256 → Prop} {wtxid : Transaction → BitVec 256}

private theorem exists_attested (hmerkle : env.MerkleSound wtxid Includes)
    (h : processBridgeProof env rollupParams params input headers = .ok () output) :
    ∃ chainstate entry dispatched withdrawal, Attested env wtxid Includes rollupParams params input
      headers output chainstate entry dispatched withdrawal := by
  obtain ⟨chainstate, info, dispatched, hcheck, -, hrest⟩ := processBridgeProof_ok_iff.mp h
  obtain ⟨⟨key, hkey, hsig⟩, horder, hchain, -, rfl⟩ := checkSignatureAndHeaders_ok_iff.mp hrest
  obtain ⟨hextract, ⟨header, hheader, hwitness, hverify⟩, hinfo, ⟨header', hheader', hverify'⟩,
    hwithdrawal⟩ := checkFulfillment_ok_iff.mp hcheck
  obtain ⟨entry, withdrawal, hentry, htxid, hstate, hfirst, hassignee, hdestination, hamount⟩ :=
    checkWithdrawal_ok_iff.mp hwithdrawal
  obtain ⟨htag, hop, hdep, payment, metadata, rest, hout, hdata, haddress, hvalue⟩ :=
    extractWithdrawalInfo_ok_iff.mp hinfo
  have hidx : entry.idx = info.depositIdx := by simpa using find?_some hentry
  have hcommits := L1TxWithProofBundle.commits_of_verify hmerkle hverify
  obtain ⟨witness, hsome⟩ := Option.isSome_iff_exists.mp hwitness
  rw [L1TxWithProofBundle.CommittedBy, hsome] at hcommits
  refine ⟨chainstate, entry, dispatched, withdrawal,
    { checkpoint := hextract
      chain := hchain
      order := horder
      checkpointIncluded := ⟨header, hheader, hcommits⟩
      fulfillmentIncluded :=
        ⟨header', hheader', L1TxWithProofBundle.commits_of_verify hmerkle hverify'⟩
      txid := rfl
      inTable := hidx ▸ hentry
      depositTxid := htxid
      depositState := hstate
      firstOutput := hfirst
      bounds := ⟨hassignee ▸ hop, hidx ▸ hdep⟩
      payment := ⟨payment, metadata, rest, hout, ?_, haddress.trans hdestination, ?_⟩
      signed := ⟨key, hassignee ▸ hkey, hsig⟩ }⟩
  · rw [hdata, WithdrawalInfo.metadata, htag, hassignee, hidx]
  · rw [← hamount, hvalue]

private theorem extract_depositTxid_eq {tx tx' : Transaction} {tag tag' : Tag}
    {info info' : WithdrawalInfo} (hout : tx.output = tx'.output)
    (h : extractWithdrawalInfo tx tag = .ok () info)
    (h' : extractWithdrawalInfo tx' tag' = .ok () info') :
    info.depositTxid = info'.depositTxid := by
  obtain ⟨-, -, -, payment, metadata, rest, heq, hdata, -⟩ := extractWithdrawalInfo_ok_iff.mp h
  obtain ⟨-, -, -, payment', metadata', rest', heq', hdata', -⟩ :=
    extractWithdrawalInfo_ok_iff.mp h'
  obtain ⟨-, hcons⟩ := cons.inj (heq.symm.trans (hout.trans heq'))
  cases hcons
  rw [hdata] at hdata'
  obtain ⟨-, hbytes⟩ := append_inj' hdata' (by simp)
  have htxid := congrArg Txid.ofBytes hbytes
  rwa [Txid.ofBytes_toBytes, Txid.ofBytes_toBytes] at htxid

private theorem collisionFree_linear (chainstate : Bytes → Option Chainstate) :
    (proofEnv chainstate).CollisionFree {fulfillment 0 0 1, fulfillment 0 0 2} := by
  have hne : computeTxid (fulfillment 0 0 1) ≠ computeTxid (fulfillment 0 0 2) := by decide +kernel
  rintro tx (rfl | rfl) tx' (rfl | rfl) heq
  · rfl
  · exact absurd heq hne
  · exact absurd heq.symm hne
  · rfl

private theorem lt_iff_of_mod_le {a b w : ℕ} (h : a % w ≤ b % w) :
    a < b ↔ a / w ≤ b / w ∧ a ≠ b := by
  refine ⟨fun hlt => ⟨Nat.div_le_div_right hlt.le, hlt.ne⟩, fun ⟨hdiv, hne⟩ => ?_⟩
  refine lt_of_le_of_ne ?_ hne
  calc a = w * (a / w) + a % w := (Nat.div_add_mod a w).symm
    _ ≤ w * (b / w) + b % w := Nat.add_le_add (Nat.mul_le_mul_left w hdiv) h
    _ = b := Nat.div_add_mod b w

private theorem not_lt_iff_of_lt_mod {a b w : ℕ} (h : b % w < a % w) :
    ¬a < b ↔ b / w ≤ a / w := by
  refine ⟨fun hle => Nat.div_le_div_right (not_lt.mp hle), fun hdiv => not_lt.mpr ?_⟩
  calc b = w * (b / w) + b % w := (Nat.div_add_mod b w).symm
    _ ≤ w * (a / w) + a % w := Nat.add_le_add (Nat.mul_le_mul_left w hdiv) h.le
    _ = a := Nat.div_add_mod a w

/-- **When an accepted fulfillment is in time.** The block of an accepted fulfillment is not above
the deadline, unless the last verified block and the position of the header add up to the deadline.
A proof that is rejected for its lateness is late. The quotients are zero when the heights fit into
`usize`. -/
theorem fulfilled_in_time_iff (hcontinues : env.Continues) (rollupParams : RollupParams)
    (params : PegOutGraphParams) (input : BridgeProofInput) (headers : List Header) :
    let idx := input.withdrawalFulfillmentTx.2
    let size := 2 ^ env.usizeBits
    (∀ output, processBridgeProof env rollupParams params input headers = .ok () output →
      ∃ chainstate info dispatched headerVs,
        checkFulfillment env rollupParams params input headers =
          .ok () (chainstate, info, dispatched) ∧
        verifyHeaders env rollupParams chainstate.headerVs (headers.take (idx + 1)) = .ok headerVs ∧
        (headerVs.lastVerifiedHeight ≤ dispatched.execDeadline ↔
          (chainstate.headerVs.lastVerifiedHeight + idx) / size ≤ dispatched.execDeadline / size ∧
          chainstate.headerVs.lastVerifiedHeight + idx ≠ dispatched.execDeadline)) ∧
    ∀ chainstate info dispatched,
      checkFulfillment env rollupParams params input headers =
        .ok () (chainstate, info, dispatched) →
      processBridgeProof env rollupParams params input headers = .err () .deadlineExceeded →
        (¬chainstate.headerVs.lastVerifiedHeight + 1 + idx ≤ dispatched.execDeadline ↔
          dispatched.execDeadline / size ≤
            (chainstate.headerVs.lastVerifiedHeight + idx) / size) := by
  intro idx size
  constructor
  · intro output h
    obtain ⟨chainstate, info, dispatched, hcheck, hdeadline, hrest⟩ :=
      processBridgeProof_ok_iff.mp h
    obtain ⟨-, -, ⟨_, hheaders⟩, -⟩ := checkSignatureAndHeaders_ok_iff.mp hrest
    obtain ⟨headerVs, htake⟩ := verifyHeaders_take hheaders (idx + 1)
    refine ⟨chainstate, info, dispatched, headerVs, hcheck, htake, ?_⟩
    have hheight := verifyHeaders_height hcontinues htake
    rw [length_take_of_le (lt_length_of_checkFulfillment hcheck)] at hheight
    rw [withdrawalFulfillmentHeight_eq] at hdeadline
    rw [hheight]
    exact lt_iff_of_mod_le hdeadline
  · intro chainstate info dispatched hcheck h
    obtain ⟨_, _, _, hcheck', hlate⟩ := processBridgeProof_deadlineExceeded_iff.mp h
    obtain ⟨⟩ := (Outcome.ok.inj (hcheck.symm.trans hcheck')).2
    rw [withdrawalFulfillmentHeight_eq] at hlate
    rw [Nat.add_right_comm]
    exact not_lt_iff_of_lt_mod hlate

theorem fulfilled_in_time_at_deadline :
    ∃ chainstate info dispatched headerVs,
      checkFulfillment (proofEnvUntil 1 102) Linear.rollupParams graphParams
        (proofInput (fulfillment 0 0 1) 1)
        (Linear.headers (fulfillment 0 0 1) 1 11) = .ok () (chainstate, info, dispatched) ∧
      verifyHeaders (proofEnvUntil 1 102) Linear.rollupParams chainstate.headerVs
        ((Linear.headers (fulfillment 0 0 1) 1 11).take 2) = .ok headerVs ∧
      (headerVs.lastVerifiedHeight ≤ dispatched.execDeadline ↔
        (chainstate.headerVs.lastVerifiedHeight + 1) / 2 ^ 64 ≤ dispatched.execDeadline / 2 ^ 64 ∧
        chainstate.headerVs.lastVerifiedHeight + 1 ≠ dispatched.execDeadline) :=
  (fulfilled_in_time_iff (continues _) Linear.rollupParams graphParams
    (proofInput (fulfillment 0 0 1) 1)
    (Linear.headers (fulfillment 0 0 1) 1 11)).1 _
    (by decide +kernel : prove 102 1 11 =
      .ok () ⟨Linear.depositTxid 1, computeTxid (fulfillment 0 0 1)⟩)

/-- **A late fulfillment is accepted.** The deadline is block 101, the last verified block is
block 100, and the fulfillment is in the block of the second header, which has height 102. -/
theorem late_fulfillment_accepted :
    prove 101 1 11 = .ok () ⟨Linear.depositTxid 1, computeTxid (fulfillment 0 0 1)⟩ ∧
    (checkFulfillment (proofEnvUntil 1 101) Linear.rollupParams graphParams
      (proofInput (fulfillment 0 0 1) 1)
      (Linear.headers (fulfillment 0 0 1) 1 11)).map (fun checked =>
        (checked.1, checked.2.2)) =
      .ok () (dispatchedUntil 1 101, ⟨[⟨⟨50⟩, 900⟩], 0, 101⟩) ∧
    verifyHeaders (proofEnvUntil 1 101) Linear.rollupParams (dispatchedUntil 1 101).headerVs
      ((Linear.headers (fulfillment 0 0 1) 1 11).take 2) = .ok ⟨102, 2⟩ := by
  decide +kernel

/-! ### Headers -/

/-- **When there are headers enough after an accepted fulfillment.** The required number of headers
comes after the one of the fulfillment, unless the required number is that of the headers from this
one on. -/
theorem headers_after_fulfillment_iff
    (h : processBridgeProof env rollupParams params input headers = .ok () output) :
    requiredNumOfHeadersAfterWithdrawalFulfillmentTx ≤
        (headers.drop (input.withdrawalFulfillmentTx.2 + 1)).length ↔
      headers.length ≠
        input.withdrawalFulfillmentTx.2 + requiredNumOfHeadersAfterWithdrawalFulfillmentTx := by
  obtain ⟨chainstate, info, dispatched, hcheck, -, hrest⟩ := processBridgeProof_ok_iff.mp h
  obtain ⟨-, -, -, hcount, -⟩ := checkSignatureAndHeaders_ok_iff.mp hrest
  have hidx := lt_length_of_checkFulfillment hcheck
  rw [length_drop]
  omega

theorem headers_after_fulfillment_linear :
    requiredNumOfHeadersAfterWithdrawalFulfillmentTx ≤
        ((Linear.headers (fulfillment 0 0 1) 1 12).drop 2).length ↔
      (Linear.headers (fulfillment 0 0 1) 1 12).length ≠ 11 :=
  headers_after_fulfillment_iff
    (by decide +kernel : prove 102 1 12 =
      .ok () ⟨Linear.depositTxid 1, computeTxid (fulfillment 0 0 1)⟩)

/-- **Nine headers after the fulfillment are enough.** -/
theorem nine_headers_accepted :
    prove 102 1 11 = .ok () ⟨Linear.depositTxid 1, computeTxid (fulfillment 0 0 1)⟩ ∧
    ((Linear.headers (fulfillment 0 0 1) 1 11).drop 2).length = 9 ∧
    9 < requiredNumOfHeadersAfterWithdrawalFulfillmentTx := by
  decide +kernel

end StrataBridge
