import StrataBridge.BridgeProof.TxInfo

/-!
# The statement of the bridge proof

An operator that has paid a withdrawal proves it to the others. The statement is checked on a chain
of headers that continues the view of Bitcoin in a checkpoint of the sidesystem: the transaction of
the checkpoint and the one that fulfills the withdrawal are in blocks of the chain, the chain state
dispatches the withdrawal to the operator, the operator signed the fulfillment, and there are
headers enough after it.

## References

* `crates/bridge-proof/protocol/src/statement.rs`, `crates/bridge-proof/protocol/src/lib.rs`
-/

namespace StrataBridge

open Rust Outcome

variable {headers : List Header} {input : BridgeProofInput}

variable {chainstate : Chainstate} {info : WithdrawalInfo}

/-! ### Definitions -/

def requiredNumOfHeadersAfterWithdrawalFulfillmentTx : ℕ := 10

/-- `BridgeProofInputBorsh` (`lib.rs`, lines 60–66): two transactions, each with the position of its
block in the chain of headers, and the signature of the operator. -/
structure BridgeProofInput where
  strataCheckpointTx : L1TxWithProofBundle × ℕ
  withdrawalFulfillmentTx : L1TxWithProofBundle × ℕ
  opSignature : Buf64
  deriving DecidableEq, Repr

/-- `BridgeProofPublicOutput` (`lib.rs`, lines 78–90). -/
structure BridgeProofPublicOutput where
  depositTxid : Txid
  withdrawalFulfillmentTxid : Txid
  deriving DecidableEq, Repr

section Statement

variable (env : ProofEnv) (rollupParams : RollupParams) (params : PegOutGraphParams)

/-- `verify_tx_inclusion` (`statement.rs`, lines 48–65). -/
def verifyTxInclusion (tx : L1TxWithProofBundle) (txMarker : BridgeRelatedTx) (header : Header)
    (expectWitness : Bool) : Outcome Unit BridgeProofError Unit :=
  if expectWitness && tx.witnessTx.isNone then .err () (.invalidMerkleProof txMarker)
  else if tx.verify env header = false then .err () (.invalidMerkleProof txMarker)
  else .ok () ()

def headerAt (headers : List Header) (idx : ℕ) : Outcome Unit BridgeProofError Header :=
  match headers[idx]? with
  | some header => .ok () header
  | none => .panic "index out of bounds"

/-- The data of a withdrawal against the deposits table (`statement.rs`, lines 126–154, steps 3c
and 3d). -/
def checkWithdrawal (chainstate : Chainstate) (info : WithdrawalInfo) :
    Outcome Unit BridgeProofError DispatchedState :=
  match chainstate.getDeposit info.depositIdx with
  | none => .err () (.chainStateError (.depositNotFound info.depositIdx))
  | some entry =>
    if entry.output.txid ≠ info.depositTxid then
      .err () (.chainStateError (.mismatchedDepositTxid entry.output.txid info.depositTxid))
    else
      match entry.depositState with
      | .dispatched dispatched =>
        match dispatched.withdrawOutputs.head? with
        | none => .panic "called Option::unwrap() on a None value"
        | some withdrawal =>
          if info.operatorIdx ≠ dispatched.assignee ∨
              info.withdrawalAddress ≠ env.toScript withdrawal.destination ∨
              info.withdrawalAmount + params.operatorFee ≠ entry.amt then
            .err () .invalidWithdrawalData
          else .ok () dispatched
      | _ => .err () (.chainStateError .invalidDepositState)

/-- The checks up to the data of the withdrawal (`statement.rs`, lines 86–154): the chain state of
the checkpoint, the data of the fulfillment, and the withdrawal that is dispatched. -/
def checkFulfillment (input : BridgeProofInput) (headers : List Header) :
    Outcome Unit BridgeProofError (Chainstate × WithdrawalInfo × DispatchedState) :=
  let (strataCheckpointTx, strataCheckpointIdx) := input.strataCheckpointTx
  let (withdrawalFulfillmentTx, withdrawalFulfillmentIdx) := input.withdrawalFulfillmentTx
  (extractValidChainstateFromCheckpoint env rollupParams strataCheckpointTx.transaction).bind
    fun _ chainstate =>
  (headerAt headers strataCheckpointIdx).bind fun _ header =>
  (verifyTxInclusion env strataCheckpointTx .strataCheckpoint header true).bind fun _ _ =>
  (extractWithdrawalInfo withdrawalFulfillmentTx.transaction params.tag).bind fun _ info =>
  (headerAt headers withdrawalFulfillmentIdx).bind fun _ header =>
  (verifyTxInclusion env withdrawalFulfillmentTx (.withdrawalFulfillment .inclusion) header
    false).bind fun _ _ =>
  (checkWithdrawal env params chainstate info).map fun dispatched => (chainstate, info, dispatched)

/-- `HeaderVerificationState::check_and_update_continuity` for one header after the other. -/
def verifyHeaders (headerVs : HeaderVerificationState) :
    List Header → Except L1VerificationError HeaderVerificationState
  | [] => .ok headerVs
  | header :: headers =>
    match env.checkAndUpdateContinuity headerVs header rollupParams with
    | .error e => .error e
    | .ok headerVs => verifyHeaders headerVs headers

/-- The height that the fulfillment is taken to have (`statement.rs`, lines 157–158), in `usize`. -/
def withdrawalFulfillmentHeight (headerVs : HeaderVerificationState) (idx : ℕ) : ℕ :=
  (headerVs.lastVerifiedHeight % 2 ^ env.usizeBits + idx) % 2 ^ env.usizeBits

/-- The checks after that of the deadline (`statement.rs`, lines 163–216): the signature of the
operator, the order of the transactions, and the headers. -/
def checkSignatureAndHeaders (input : BridgeProofInput) (headers : List Header)
    (chainstate : Chainstate) (info : WithdrawalInfo) :
    Outcome Unit BridgeProofError BridgeProofPublicOutput :=
  let (withdrawalFulfillmentTx, withdrawalFulfillmentIdx) := input.withdrawalFulfillmentTx
  match chainstate.walletPk info.operatorIdx with
  | none => .panic "called Option::unwrap() on a None value"
  | some operatorPubKey =>
    let withdrawalFulfillmentTxid := env.computeTxid withdrawalFulfillmentTx.transaction
    if env.verifySchnorrSig input.opSignature withdrawalFulfillmentTxid operatorPubKey = false then
      .err () .invalidOperatorSignature
    else if input.strataCheckpointTx.2 > withdrawalFulfillmentIdx then
      .err () (.invalidTxOrder .strataCheckpoint (.withdrawalFulfillment .inclusion))
    else
      match verifyHeaders env rollupParams chainstate.headerVs headers with
      | .error e => .err () (.invalidHeader e)
      | .ok _ =>
        let headersAfterWithdrawalFulfillmentTx := headers.length - withdrawalFulfillmentIdx
        if headersAfterWithdrawalFulfillmentTx <
            requiredNumOfHeadersAfterWithdrawalFulfillmentTx then
          .err () (.insufficientBlocksAfterWithdrawalFulfillment
            requiredNumOfHeadersAfterWithdrawalFulfillmentTx headersAfterWithdrawalFulfillmentTx)
        else
          .ok () ⟨info.depositTxid, withdrawalFulfillmentTxid⟩

/-- `process_bridge_proof` (`statement.rs`, lines 80–217). -/
def processBridgeProof (input : BridgeProofInput) (headers : List Header) :
    Outcome Unit BridgeProofError BridgeProofPublicOutput :=
  (checkFulfillment env rollupParams params input headers).bind
    fun _ (chainstate, info, dispatched) =>
  if withdrawalFulfillmentHeight env chainstate.headerVs input.withdrawalFulfillmentTx.2 >
      dispatched.execDeadline % 2 ^ env.usizeBits then
    .err () .deadlineExceeded
  else checkSignatureAndHeaders env rollupParams input headers chainstate info

end Statement

section Specifications

variable {env : ProofEnv} {rollupParams : RollupParams} {params : PegOutGraphParams}

/-! ### The withdrawal -/

theorem verifyTxInclusion_ok_iff {tx : L1TxWithProofBundle} {txMarker : BridgeRelatedTx}
    {header : Header} {expectWitness : Bool} :
    verifyTxInclusion env tx txMarker header expectWitness = .ok () () ↔
      (expectWitness = true → tx.witnessTx.isSome = true) ∧ tx.verify env header = true := by
  rw [verifyTxInclusion]
  cases expectWitness <;> cases tx.witnessTx <;> simp

theorem headerAt_ok_iff {idx : ℕ} {header : Header} :
    headerAt headers idx = .ok () header ↔ headers[idx]? = some header := by
  rw [headerAt]
  cases headers[idx]? <;> simp

/-- The data of a fulfillment matches an entry of the deposits table: the entry is dispatched, and
the payment is the one it asks for. -/
structure Matches (env : Env) (params : PegOutGraphParams) (info : WithdrawalInfo)
    (entry : DepositEntry) (dispatched : DispatchedState) (withdrawal : WithdrawOutput) : Prop where
  depositTxid : entry.output.txid = info.depositTxid
  depositState : entry.depositState = .dispatched dispatched
  firstOutput : dispatched.withdrawOutputs.head? = some withdrawal
  assignee : info.operatorIdx = dispatched.assignee
  destination : info.withdrawalAddress = env.toScript withdrawal.destination
  amount : info.withdrawalAmount + params.operatorFee = entry.amt

theorem checkWithdrawal_ok_iff {dispatched : DispatchedState} :
    checkWithdrawal env params chainstate info = .ok () dispatched ↔
      ∃ entry withdrawal, chainstate.getDeposit info.depositIdx = some entry ∧
        Matches env.toEnv params info entry dispatched withdrawal := by
  rw [checkWithdrawal]
  constructor
  · intro h
    split at h
    · cases h
    next entry hentry =>
    split_ifs at h with htxid
    split at h
    next d hstate =>
      split at h
      · cases h
      next withdrawal hwithdrawal =>
      split_ifs at h with hdata
      obtain rfl := (ok.inj h).2
      obtain ⟨hassignee, hdestination, hamount⟩ : _ ∧ _ ∧ _ := by simpa using hdata
      exact ⟨entry, withdrawal, hentry, not_not.mp htxid, hstate, hwithdrawal, hassignee,
        hdestination, hamount⟩
    · cases h
  · rintro ⟨entry, withdrawal, hentry, htxid, hstate, hwithdrawal, hassignee, hdestination, hamount⟩
    simp [hentry, htxid, hstate, hwithdrawal, hassignee, hdestination, hamount]

/-- **What passes the checks up to the data of the withdrawal.** -/
theorem checkFulfillment_ok_iff {dispatched : DispatchedState} :
    checkFulfillment env rollupParams params input headers = .ok () (chainstate, info, dispatched) ↔
      extractValidChainstateFromCheckpoint env rollupParams
        input.strataCheckpointTx.1.transaction = .ok () chainstate ∧
      (∃ header, headers[input.strataCheckpointTx.2]? = some header ∧
        input.strataCheckpointTx.1.witnessTx.isSome = true ∧
        input.strataCheckpointTx.1.verify env header = true) ∧
      extractWithdrawalInfo input.withdrawalFulfillmentTx.1.transaction params.tag = .ok () info ∧
      (∃ header, headers[input.withdrawalFulfillmentTx.2]? = some header ∧
        input.withdrawalFulfillmentTx.1.verify env header = true) ∧
      checkWithdrawal env params chainstate info = .ok () dispatched := by
  simp only [checkFulfillment]
  constructor
  · intro h
    obtain ⟨_, cs, hextract, h⟩ := bind_eq_ok.mp h
    obtain ⟨_, header, hheader, h⟩ := bind_eq_ok.mp h
    obtain ⟨_, _, hincluded, h⟩ := bind_eq_ok.mp h
    obtain ⟨_, info', hinfo, h⟩ := bind_eq_ok.mp h
    obtain ⟨_, header', hheader', h⟩ := bind_eq_ok.mp h
    obtain ⟨_, _, hincluded', h⟩ := bind_eq_ok.mp h
    obtain ⟨d, hchecked, ⟨⟩⟩ := map_eq_ok.mp h
    obtain ⟨hwitness, hverify⟩ := verifyTxInclusion_ok_iff.mp hincluded
    exact ⟨hextract, ⟨header, headerAt_ok_iff.mp hheader, hwitness rfl, hverify⟩, hinfo,
      ⟨header', headerAt_ok_iff.mp hheader', (verifyTxInclusion_ok_iff.mp hincluded').2⟩, hchecked⟩
  · rintro ⟨hextract, ⟨header, hheader, hwitness, hverify⟩, hinfo, ⟨header', hheader', hverify'⟩,
      hchecked⟩
    rw [hextract, bind_ok, headerAt_ok_iff.mpr hheader, bind_ok,
      verifyTxInclusion_ok_iff.mpr ⟨fun _ => hwitness, hverify⟩, bind_ok, hinfo,
      bind_ok, headerAt_ok_iff.mpr hheader', bind_ok,
      verifyTxInclusion_ok_iff.mpr ⟨by simp, hverify'⟩, bind_ok, hchecked, map_ok]

/-! ### Lateness -/

theorem withdrawalFulfillmentHeight_eq (headerVs : HeaderVerificationState) (idx : ℕ) :
    withdrawalFulfillmentHeight env headerVs idx =
      (headerVs.lastVerifiedHeight + idx) % 2 ^ env.usizeBits :=
  Nat.mod_add_mod _ _ _

private theorem validChainstate_raises (signed : SignedCheckpoint) :
    (validChainstate env rollupParams signed).Raises (· ≠ .deadlineExceeded) := by
  rw [validChainstate]
  split
  · simp
  · split
    · simp
    · split_ifs <;> simp

private theorem findChainstate_raises (filterConfig : TxFilterConfig) (inputs : List TxIn) :
    (findChainstate env rollupParams filterConfig inputs).Raises (· ≠ .deadlineExceeded) := by
  induction inputs with
  | nil => simp [findChainstate]
  | cons input inputs ih =>
    rw [findChainstate]
    split
    · exact validChainstate_raises _
    · exact ih

private theorem extractValidChainstate_raises (tx : Transaction) :
    (extractValidChainstateFromCheckpoint env rollupParams tx).Raises (· ≠ .deadlineExceeded) := by
  rw [extractValidChainstateFromCheckpoint]
  split
  · simp
  · exact findChainstate_raises _ _

private theorem extractWithdrawalInfo_raises (tx : Transaction) (tag : Tag) :
    (extractWithdrawalInfo tx tag).Raises (· ≠ .deadlineExceeded) := by
  rw [extractWithdrawalInfo]
  split
  · simp only
    split_ifs <;> simp
  · simp

theorem verifyTxInclusion_raises (tx : L1TxWithProofBundle) (txMarker : BridgeRelatedTx)
    (header : Header) (expectWitness : Bool) :
    (verifyTxInclusion env tx txMarker header expectWitness).Raises (· ≠ .deadlineExceeded) := by
  rw [verifyTxInclusion]
  split_ifs <;> simp

theorem headerAt_raises (headers : List Header) (idx : ℕ) :
    (headerAt headers idx).Raises (· ≠ .deadlineExceeded) := by
  rw [headerAt]
  split <;> simp

private theorem checkWithdrawal_raises (chainstate : Chainstate) (info : WithdrawalInfo) :
    (checkWithdrawal env params chainstate info).Raises (· ≠ .deadlineExceeded) := by
  rw [checkWithdrawal]
  split
  · simp
  split_ifs
  · simp
  split
  · split
    · simp
    · split_ifs <;> simp
  · simp

private theorem checkFulfillment_raises (input : BridgeProofInput) (headers : List Header) :
    (checkFulfillment env rollupParams params input headers).Raises (· ≠ .deadlineExceeded) := by
  refine (extractValidChainstate_raises _).bind fun _ chainstate => ?_
  refine (headerAt_raises _ _).bind fun _ header => ?_
  refine (verifyTxInclusion_raises _ _ _ _).bind fun _ _ => ?_
  refine (extractWithdrawalInfo_raises _ _).bind fun _ info => ?_
  refine (headerAt_raises _ _).bind fun _ header => ?_
  refine (verifyTxInclusion_raises _ _ _ _).bind fun _ _ => ?_
  exact raises_map.mpr (checkWithdrawal_raises chainstate info)

private theorem checkSignatureAndHeaders_raises (input : BridgeProofInput) (headers : List Header)
    (chainstate : Chainstate) (info : WithdrawalInfo) :
    (checkSignatureAndHeaders env rollupParams input headers chainstate info).Raises
      (· ≠ .deadlineExceeded) := by
  rw [checkSignatureAndHeaders]
  cases chainstate.walletPk info.operatorIdx with
  | none => simp
  | some operatorPubKey =>
    cases verifyHeaders env rollupParams chainstate.headerVs headers <;>
    · simp only
      split_ifs <;> simp

/-- **What is rejected for its lateness.** -/
theorem processBridgeProof_deadlineExceeded_iff :
    processBridgeProof env rollupParams params input headers = .err () .deadlineExceeded ↔
      ∃ chainstate info dispatched,
        checkFulfillment env rollupParams params input headers =
          .ok () (chainstate, info, dispatched) ∧
        dispatched.execDeadline % 2 ^ env.usizeBits <
          withdrawalFulfillmentHeight env chainstate.headerVs input.withdrawalFulfillmentTx.2 := by
  have hbefore : (checkFulfillment env rollupParams params input headers).Raises
      (· ≠ .deadlineExceeded) := checkFulfillment_raises input headers
  rw [processBridgeProof]
  cases hcheck : checkFulfillment env rollupParams params input headers with
  | err _ e =>
    rw [hcheck] at hbefore
    simpa using hbefore
  | panic msg => simp
  | ok _ checked =>
    obtain ⟨chainstate, info, dispatched⟩ := checked
    simp only [bind_ok]
    constructor
    · intro h
      split_ifs at h with hlate
      · exact ⟨chainstate, info, dispatched, rfl, hlate⟩
      · have hafter : (checkSignatureAndHeaders env rollupParams input headers chainstate
            info).Raises (· ≠ .deadlineExceeded) := checkSignatureAndHeaders_raises _ _ _ _
        rw [h] at hafter
        exact absurd rfl hafter
    · rintro ⟨_, _, _, ⟨⟩, hlate⟩
      exact if_pos hlate

/-! ### Acceptance -/

theorem checkSignatureAndHeaders_ok_iff {output : BridgeProofPublicOutput} :
    checkSignatureAndHeaders env rollupParams input headers chainstate info = .ok () output ↔
      (∃ operatorPubKey, chainstate.walletPk info.operatorIdx = some operatorPubKey ∧
        env.verifySchnorrSig input.opSignature
          (env.computeTxid input.withdrawalFulfillmentTx.1.transaction) operatorPubKey = true) ∧
      input.strataCheckpointTx.2 ≤ input.withdrawalFulfillmentTx.2 ∧
      (∃ headerVs, verifyHeaders env rollupParams chainstate.headerVs headers = .ok headerVs) ∧
      requiredNumOfHeadersAfterWithdrawalFulfillmentTx ≤
        headers.length - input.withdrawalFulfillmentTx.2 ∧
      output = ⟨info.depositTxid, env.computeTxid input.withdrawalFulfillmentTx.1.transaction⟩ := by
  simp only [checkSignatureAndHeaders]
  constructor
  · intro h
    split at h
    · cases h
    next operatorPubKey hkey =>
    split at h
    · cases h
    next hsig =>
    split at h
    · cases h
    next horder =>
    split at h
    · cases h
    next headerVs hheaders =>
    split at h
    · cases h
    next hcount =>
    cases h
    exact ⟨⟨operatorPubKey, hkey, by simpa using hsig⟩, not_lt.mp horder, ⟨headerVs, hheaders⟩,
      not_lt.mp hcount, rfl⟩
  · rintro ⟨⟨operatorPubKey, hkey, hsig⟩, horder, ⟨headerVs, hheaders⟩, hcount, rfl⟩
    simp [hkey, hsig, if_neg (not_lt.mpr horder), hheaders, if_neg (not_lt.mpr hcount)]

/-- **What is accepted.** -/
theorem processBridgeProof_ok_iff {output : BridgeProofPublicOutput} :
    processBridgeProof env rollupParams params input headers = .ok () output ↔
      ∃ chainstate info dispatched,
        checkFulfillment env rollupParams params input headers =
          .ok () (chainstate, info, dispatched) ∧
        withdrawalFulfillmentHeight env chainstate.headerVs input.withdrawalFulfillmentTx.2 ≤
          dispatched.execDeadline % 2 ^ env.usizeBits ∧
        checkSignatureAndHeaders env rollupParams input headers chainstate info =
          .ok () output := by
  rw [processBridgeProof]
  constructor
  · intro h
    obtain ⟨_, ⟨chainstate, info, dispatched⟩, hcheck, h⟩ := bind_eq_ok.mp h
    simp only at h
    split_ifs at h with hlate
    exact ⟨chainstate, info, dispatched, hcheck, not_lt.mp hlate, h⟩
  · rintro ⟨chainstate, info, dispatched, hcheck, hlate, h⟩
    rw [hcheck]
    exact (if_neg (not_lt.mpr hlate)).trans h

/-! ### Headers -/

/-- What is assumed of the continuity of headers: an accepted header is that of the next block. -/
def ProofEnv.Continues (env : ProofEnv) : Prop :=
  ∀ headerVs header rollupParams headerVs',
    env.checkAndUpdateContinuity headerVs header rollupParams = .ok headerVs' →
      headerVs'.lastVerifiedHeight = headerVs.lastVerifiedHeight + 1

theorem verifyHeaders_take {headerVs headerVs' : HeaderVerificationState}
    (h : verifyHeaders env rollupParams headerVs headers = .ok headerVs') (n : ℕ) :
    ∃ headerVs'', verifyHeaders env rollupParams headerVs (headers.take n) = .ok headerVs'' := by
  induction headers generalizing headerVs n with
  | nil => exact ⟨headerVs, by simp [verifyHeaders]⟩
  | cons header headers ih =>
    cases n with
    | zero => exact ⟨headerVs, rfl⟩
    | succ n =>
      rw [verifyHeaders] at h
      split at h
      · cases h
      next next hnext =>
      obtain ⟨headerVs'', hrest⟩ := ih h n
      exact ⟨headerVs'', by rw [List.take_succ_cons, verifyHeaders, hnext]; exact hrest⟩

/-- **The heights of accepted headers.** The last header of an accepted chain is as many blocks
above the block the chain starts from as the chain is long. -/
theorem verifyHeaders_height (hcontinues : env.Continues)
    {headerVs headerVs' : HeaderVerificationState}
    (h : verifyHeaders env rollupParams headerVs headers = .ok headerVs') :
    headerVs'.lastVerifiedHeight = headerVs.lastVerifiedHeight + headers.length := by
  induction headers generalizing headerVs with
  | nil =>
    cases h
    rfl
  | cons header headers ih =>
    rw [verifyHeaders] at h
    split at h
    · cases h
    next next hnext =>
    rw [ih h, hcontinues _ _ _ _ hnext]
    exact Nat.add_right_comm _ 1 _

end Specifications

end StrataBridge
