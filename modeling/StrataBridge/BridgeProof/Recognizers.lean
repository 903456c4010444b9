import StrataBridge.Instance.LinearProof

/-!
# Two recognizers of one transaction

A node acts on a checkpoint and on a withdrawal fulfillment as the predicates of the duty tracker
recognise them; what it then has to prove is recognised by the statement of the bridge proof. The
two recognizers of a fulfillment agree on scripts that push the data of the withdrawal and nothing
else, and disagree on others: the node reads the first push and does not ask what follows the
data, the statement reads at fixed offsets and does not ask what comes before it. The two
recognizers of a checkpoint agree when the first input of the transaction carries a checkpoint
that is valid throughout.

## Main results

* `isFulfillmentTx_iff_extract_iff`: when fulfillments are recognised alike
* `WithdrawalFulfillment.recognised_iff`: when its own kind is
* `checkpoints_agree_iff`: when checkpoints are

## References

* `crates/duty-tracker/src/predicates.rs`, lines 22–35, 117–215;
  `crates/bridge-proof/protocol/src/tx_info.rs`
-/

namespace StrataBridge

open Rust Linear List WithdrawalMetadata

/-! ### Reading pushes -/

variable {data : Bytes}

theorem takePush_eq_some {n : ℕ} {rest rest' : Bytes}
    (h : Script.takePush n rest = some (.pushBytes data, rest')) :
    n ≤ rest.length ∧ data = rest.take n := by
  rw [Script.takePush] at h
  split at h
  · cases h
  next hn =>
    obtain ⟨hdata, -⟩ := Prod.mk.inj (Option.some.inj h)
    exact ⟨Nat.le_of_not_lt hn, (Instruction.pushBytes.inj hdata).symm⟩

private theorem takePushData_eq_some {w : ℕ} {rest rest' : Bytes} (hw : 0 < w)
    (h : Script.takePushData w rest = some (.pushBytes data, rest')) :
    data.length < rest.length := by
  rw [Script.takePushData] at h
  split at h
  · cases h
  next hlen =>
    obtain ⟨hle, rfl⟩ := takePush_eq_some h
    rw [length_take, length_drop]
    omega

/-- A push is one byte longer than its data only when that byte is the length of the data. -/
theorem Script.next_pushBytes {b : UInt8} {rest rest' : Bytes}
    (h : Script.next (b :: rest) = some (.pushBytes data, rest')) :
    data.length ≤ rest.length ∧
      (rest.length = data.length → b.toNat = data.length ∧ rest = data) := by
  rw [Script.next] at h
  split_ifs at h with h1 h2 h3 h4
  · obtain ⟨hle, rfl⟩ := takePush_eq_some h
    rw [length_take, Nat.min_eq_left hle]
    exact ⟨hle, fun heq => ⟨rfl, (take_of_length_le heq.le).symm⟩⟩
  all_goals first
    | have hlt := takePushData_eq_some (by decide) h
      exact ⟨hlt.le, fun heq => absurd heq hlt.ne'⟩
    | cases Option.some.inj h

theorem takePush_ne_op {n : ℕ} {rest rest' : Bytes} {op : UInt8} :
    Script.takePush n rest ≠ some (.op op, rest') := by
  rw [Script.takePush]
  split <;> simp

theorem takePushData_ne_op {w : ℕ} {rest rest' : Bytes} {op : UInt8} :
    Script.takePushData w rest ≠ some (.op op, rest') := by
  rw [Script.takePushData]
  split
  · simp
  · exact takePush_ne_op

theorem Script.next_op {script rest : Bytes} {op : UInt8}
    (h : Script.next script = some (.op op, rest)) : script = op :: rest := by
  cases script with
  | nil => cases h
  | cons b bytes =>
    rw [Script.next] at h
    split_ifs at h with h1 h2 h3 h4
    · exact absurd h takePush_ne_op
    · exact absurd h takePushData_ne_op
    · exact absurd h takePushData_ne_op
    · exact absurd h takePushData_ne_op
    · obtain ⟨hop, rfl⟩ := Prod.mk.inj (Option.some.inj h)
      rw [Instruction.op.inj hop]

/-- A script has at least two bytes besides its data, and two only when they are `OP_RETURN` and the
length of the data. -/
theorem opReturnData_eq_some {script : ScriptBuf} (h : opReturnData script = some data) :
    data.length + 2 ≤ script.length ∧
      (script.length = data.length + 2 → script = opReturn :: UInt8.ofNat data.length :: data) := by
  rw [opReturnData] at h
  split at h
  next op rest hnext =>
    split at h
    next hop =>
      split at h
      next bytes rest' hpush =>
        cases h
        obtain rfl := Script.next_op hnext
        cases rest with
        | nil => cases hpush
        | cons b rest =>
          obtain ⟨hle, heq⟩ := Script.next_pushBytes hpush
          refine ⟨by simpa using hle, fun hlen => ?_⟩
          obtain ⟨hb, rfl⟩ := heq (by simpa using hlen)
          rw [hop, ← hb, UInt8.ofNat_toNat]
      · cases h
    · cases h
  · cases h

theorem opReturnData_push (h : data.length ≤ 0x4b) :
    opReturnData (opReturn :: UInt8.ofNat data.length :: data) = some data := by
  have hn : (UInt8.ofNat data.length).toNat = data.length := by
    rw [UInt8.toNat_ofNat']
    omega
  have hreturn : Script.next (opReturn :: UInt8.ofNat data.length :: data) =
      some (.op opReturn, UInt8.ofNat data.length :: data) := rfl
  have hpush : Script.next (UInt8.ofNat data.length :: data) = some (.pushBytes data, []) := by
    rw [Script.next, if_pos (hn.le.trans h), hn, Script.takePush, if_neg (lt_irrefl _),
      take_length, drop_length]
  rw [opReturnData, hreturn]
  simp [hpush]

/-! ### Fulfillments -/

section Fulfillment

variable {env : Env} {network : Network} {params : PegOutGraphParams} {tx : Transaction}
  {recipient : Descriptor} {data : Bytes}

theorem getRange_eq_some_iff {b : Bytes} {start n : ℕ} (hb : b.length = n) (hn : 0 < n) :
    getRange data start (start + n) = some b ↔ b <+: data.drop start := by
  rw [getRange, Nat.add_sub_cancel_left, prefix_iff_eq_take, hb]
  split
  · rw [Option.some.injEq, eq_comm]
  next hlen =>
    refine iff_of_false (by simp) fun heq => ?_
    have hlen' := congrArg length heq
    rw [length_take, length_drop] at hlen'
    omega

theorem append_prefix_iff {a b l : Bytes} :
    a ++ b <+: l ↔ a <+: l ∧ b <+: l.drop a.length := by
  constructor
  · rintro ⟨t, rfl⟩
    refine ⟨⟨b ++ t, by simp⟩, ⟨t, by simp⟩⟩
  · rintro ⟨⟨t, rfl⟩, h⟩
    rw [drop_left] at h
    exact prefix_append_right_inj a |>.mpr h

theorem carriesMetadata_iff {m : WithdrawalMetadata} (hm : m.tag = params.tag) :
    carriesMetadata params m.operatorIdx m.depositIdx m.depositTxid tx = true ↔
      ∃ out data, tx.output[1]? = some out ∧ opReturnData out.scriptPubkey = some data ∧
        m.opReturnData <+: data := by
  rw [carriesMetadata]
  cases hout : tx.output[1]? with
  | none => simp
  | some out =>
    cases hdata : opReturnData out.scriptPubkey with
    | none => simp [hdata]
    | some data =>
      simp only [Option.bind_some, hdata, Bool.and_eq_true, decide_eq_true_eq, Option.some.injEq,
        exists_and_left, exists_eq_left']
      rw [WithdrawalMetadata.opReturnData, append_prefix_iff, append_prefix_iff, append_prefix_iff,
        getRange_eq_some_iff (by simp) (by decide), getRange_eq_some_iff (by simp) (by decide),
        getRange_eq_some_iff (by simp) (by decide), hm]
      simp

variable (m : WithdrawalMetadata)

def WithdrawalMetadata.script : ScriptBuf :=
  opReturn :: UInt8.ofNat m.opReturnData.length :: m.opReturnData

theorem opReturnNonce_opReturnData : opReturnNonce m.opReturnData = m.script := by
  simp [opReturnNonce, pushSlice, script]

/-- A transaction ties its payment to a withdrawal in a way that both recognizers read alike: where
the data stands after two bytes, these are `OP_RETURN` and the push of the data, and where a push
starts with the data, the script ends with it. -/
def TiesAlike (tx : Transaction) : Prop :=
  ∀ out, tx.output[1]? = some out →
    (out.scriptPubkey.drop opReturnInstructionSize = m.opReturnData →
      out.scriptPubkey.take opReturnInstructionSize =
        [opReturn, UInt8.ofNat m.opReturnData.length]) ∧
    ∀ data, opReturnData out.scriptPubkey = some data → m.opReturnData <+: data →
      out.scriptPubkey.length = metadataScriptSize

theorem eq_script_of_pushed {m : WithdrawalMetadata} {script : ScriptBuf}
    (hdata : opReturnData script = some data) (hm : m.opReturnData <+: data)
    (hlen : script.length = metadataScriptSize) : script = m.script := by
  obtain ⟨hle, heq⟩ := opReturnData_eq_some hdata
  have hmlen := hm.length_le
  rw [m.length_opReturnData] at hmlen
  rw [hlen, metadataScriptSize, opReturnInstructionSize, tagSize] at hle heq
  have hdlen : data.length = m.opReturnData.length := by
    rw [m.length_opReturnData]
    omega
  obtain rfl := hm.eq_of_length hdlen.symm
  exact heq (by rw [m.length_opReturnData])

theorem opReturnData_script : opReturnData m.script = some m.opReturnData :=
  opReturnData_push (by rw [m.length_opReturnData]; decide)

/-- Where they are read alike, the two ways to tie a payment are one. -/
private theorem carries_iff_drop_iff {m : WithdrawalMetadata} {script : ScriptBuf} :
    ((∃ data, opReturnData script = some data ∧ m.opReturnData <+: data) ↔
      script.drop opReturnInstructionSize = m.opReturnData) ↔
    (script.drop opReturnInstructionSize = m.opReturnData →
      script.take opReturnInstructionSize = [opReturn, UInt8.ofNat m.opReturnData.length]) ∧
    ∀ data, opReturnData script = some data → m.opReturnData <+: data →
      script.length = metadataScriptSize := by
  constructor
  · refine fun h => ⟨fun hdrop => ?_, fun data hdata hm =>
      length_of_drop_eq (h.mp ⟨data, hdata, hm⟩)⟩
    obtain ⟨data, hdata, hm⟩ := h.mpr hdrop
    rw [eq_script_of_pushed hdata hm (length_of_drop_eq hdrop)]
    rfl
  · rintro ⟨htake, hlen⟩
    constructor
    · rintro ⟨data, hdata, hm⟩
      rw [eq_script_of_pushed hdata hm (hlen data hdata hm)]
      rfl
    · intro hdrop
      have hscript : script = m.script := by
        rw [← take_append_drop opReturnInstructionSize script, htake hdrop, hdrop]
        rfl
      exact ⟨m.opReturnData, hscript ▸ opReturnData_script m, prefix_refl _⟩

theorem paysRecipient_iff
    (haddress : env.toScriptPubkey recipient network = some (env.toScript recipient)) :
    paysRecipient env network params recipient tx = true ↔ ∃ out, tx.output.head? = some out ∧
      out.scriptPubkey = env.toScript recipient ∧
      out.value = params.depositAmount - params.operatorFee := by
  rw [paysRecipient, haddress]
  cases tx.output.head? with
  | none => simp
  | some out => simp

theorem extract_iff_pays
    (haddress : env.toScriptPubkey recipient network = some (env.toScript recipient))
    {operatorIdx depositIdx : UInt32} {depositTxid : Txid} :
    extractWithdrawalInfo tx params.tag = .ok ()
        { tag := params.tag
          operatorIdx := operatorIdx.toNat
          depositIdx := depositIdx.toNat
          depositTxid := depositTxid
          withdrawalAddress := env.toScript recipient
          withdrawalAmount := params.depositAmount - params.operatorFee } ↔
      paysRecipient env network params recipient tx = true ∧
      ∃ out, tx.output[1]? = some out ∧ out.scriptPubkey.drop opReturnInstructionSize =
        (mk params.tag operatorIdx.toNat depositIdx.toNat depositTxid).opReturnData := by
  rw [extractWithdrawalInfo_ok_iff, paysRecipient_iff haddress]
  constructor
  · rintro ⟨-, -, -, fulfillment, metadata, rest, hout, hdata, hscript, hvalue⟩
    rw [hout]
    exact ⟨⟨fulfillment, rfl, hscript, hvalue⟩, metadata, rfl, hdata⟩
  · rintro ⟨⟨fulfillment, hhead, hscript, hvalue⟩, metadata, hout, hdata⟩
    refine ⟨rfl, operatorIdx.toNat_lt, depositIdx.toNat_lt, fulfillment, metadata,
      tx.output.drop 2, ?_, hdata, hscript, hvalue⟩
    match houtput : tx.output with
    | [] => rw [houtput] at hhead; cases hhead
    | [_] => rw [houtput] at hout; cases hout
    | _ :: _ :: rest =>
      rw [houtput] at hhead hout
      rw [Option.some.inj hhead, Option.some.inj hout]
      rfl

/-- **When the recognizers of a fulfillment agree.** For a transaction that pays the recipient, the
node recognises the fulfillment of a withdrawal exactly when the statement reads the data of that
withdrawal, if and only if the transaction ties the payment to it in a way both read alike; other
transactions neither of them accepts. -/
theorem isFulfillmentTx_iff_extract_iff (recipient : Descriptor)
    (haddress : env.toScriptPubkey recipient network = some (env.toScript recipient))
    (operatorIdx depositIdx : UInt32) (depositTxid : Txid) (tx : Transaction) :
    (isFulfillmentTx env network params operatorIdx.toNat depositIdx.toNat depositTxid recipient
        tx = true ↔
      extractWithdrawalInfo tx params.tag = .ok ()
        { tag := params.tag
          operatorIdx := operatorIdx.toNat
          depositIdx := depositIdx.toNat
          depositTxid := depositTxid
          withdrawalAddress := env.toScript recipient
          withdrawalAmount := params.depositAmount - params.operatorFee }) ↔
    (paysRecipient env network params recipient tx = true →
      TiesAlike ⟨params.tag, operatorIdx.toNat, depositIdx.toNat, depositTxid⟩ tx) := by
  rw [extract_iff_pays haddress, isFulfillmentTx, Bool.and_eq_true, and_congr_right_iff]
  refine imp_congr_right fun _ => ?_
  rw [carriesMetadata_iff (m := ⟨params.tag, operatorIdx.toNat, depositIdx.toNat, depositTxid⟩) rfl,
    TiesAlike]
  cases tx.output[1]? with
  | none => simp
  | some out => simpa using carries_iff_drop_iff

theorem fulfillment_recognised_linear :
    (isFulfillmentTx plain .regtest graphParams 0 0 (Linear.depositTxid 1) ⟨50⟩
        (fulfillment 0 0 1) = true ↔
      extractWithdrawalInfo (fulfillment 0 0 1) graphParams.tag = .ok ()
        { tag := graphParams.tag
          operatorIdx := 0
          depositIdx := 0
          depositTxid := Linear.depositTxid 1
          withdrawalAddress := toBeBytes 4 50
          withdrawalAmount := 900 }) ↔
    (paysRecipient plain .regtest graphParams ⟨50⟩ (fulfillment 0 0 1) = true →
      TiesAlike ⟨graphParams.tag, 0, 0, Linear.depositTxid 1⟩ (fulfillment 0 0 1)) :=
  isFulfillmentTx_iff_extract_iff ⟨50⟩ rfl 0 0 (Linear.depositTxid 1) (fulfillment 0 0 1)

/-- **The recognizers of a fulfillment disagree.** The node accepts a push that goes on after the
data, which the statement finds too long, and the statement reads the data behind any two bytes,
where the node finds no `OP_RETURN`. -/
theorem fulfillment_recognizers_disagree :
    let payment (script : ScriptBuf) : Transaction :=
      { fulfillment 0 0 1 with
        output := createTxOuts [(toBeBytes 4 50, 900), (script, 0)] }
    let data := (mk graphParams.tag 0 0 (Linear.depositTxid 1)).opReturnData
    let longer := payment (opReturn :: 45 :: data ++ [0])
    let other := payment (0 :: 0 :: data)
    (isFulfillmentTx plain .regtest graphParams 0 0 (Linear.depositTxid 1) ⟨50⟩ longer = true ∧
      extractWithdrawalInfo longer graphParams.tag = .err () (.txInfoExtractionError
        (.withdrawalFulfillment (.metadataScriptSize 46 47)))) ∧
    (isFulfillmentTx plain .regtest graphParams 0 0 (Linear.depositTxid 1) ⟨50⟩ other = false ∧
      extractWithdrawalInfo other graphParams.tag = .ok ()
        { tag := graphParams.tag
          operatorIdx := 0
          depositIdx := 0
          depositTxid := Linear.depositTxid 1
          withdrawalAddress := toBeBytes 4 50
          withdrawalAmount := 900 }) := by
  decide +kernel

/-- **The payments a node makes are recognised by both.** -/
theorem WithdrawalFulfillment.recognised (recipient : Descriptor)
    (haddress : env.toScriptPubkey recipient network = some (env.toScript recipient))
    (operatorIdx depositIdx : UInt32) (depositTxid : Txid) (senderOutpoints : List OutPoint)
    (change : Option TxOut) :
    let payment := WithdrawalFulfillment.new env
      ⟨params.tag, operatorIdx.toNat, depositIdx.toNat, depositTxid⟩ senderOutpoints
      (params.depositAmount - params.operatorFee) change recipient
    isFulfillmentTx env network params operatorIdx.toNat depositIdx.toNat depositTxid recipient
      payment = true ∧
    extractWithdrawalInfo payment params.tag = .ok ()
      { tag := params.tag
        operatorIdx := operatorIdx.toNat
        depositIdx := depositIdx.toNat
        depositTxid := depositTxid
        withdrawalAddress := env.toScript recipient
        withdrawalAmount := params.depositAmount - params.operatorFee } := by
  intro payment
  let m : WithdrawalMetadata := ⟨params.tag, operatorIdx.toNat, depositIdx.toNat, depositTxid⟩
  have hpays : paysRecipient env network params recipient payment = true :=
    (paysRecipient_iff haddress).mpr ⟨_, rfl, rfl, rfl⟩
  have hout : payment.output[1]? = some ⟨0, m.script⟩ := by
    rw [← opReturnNonce_opReturnData]
    rfl
  refine ⟨?_, (extract_iff_pays haddress).mpr ⟨hpays, _, hout, rfl⟩⟩
  rw [isFulfillmentTx, hpays]
  exact (carriesMetadata_iff (m := m) rfl).mpr ⟨_, _, hout, opReturnData_script m, prefix_refl _⟩

/-! ### One payment for one withdrawal -/

theorem toBeBytes_toNat_inj {i j : UInt32} (h : toBeBytes 4 i.toNat = toBeBytes 4 j.toNat) :
    i = j := by
  have hread := congrArg ofBeBytes h
  rw [ofBeBytes_toBeBytes, ofBeBytes_toBeBytes, show (256 : ℕ) ^ 4 = 2 ^ 32 by norm_num,
    Nat.mod_eq_of_lt i.toNat_lt, Nat.mod_eq_of_lt j.toNat_lt] at hread
  exact UInt32.toNat_inj.mp hread

/-- The data of a withdrawal determines the tag, the indices and the deposit: every field has a
fixed width. -/
theorem WithdrawalMetadata.opReturnData_inj {tag tag' : Tag}
    {operatorIdx depositIdx operatorIdx' depositIdx' : UInt32} {depositTxid depositTxid' : Txid}
    (h : (mk tag operatorIdx.toNat depositIdx.toNat depositTxid).opReturnData =
      (mk tag' operatorIdx'.toNat depositIdx'.toNat depositTxid').opReturnData) :
    tag = tag' ∧ operatorIdx = operatorIdx' ∧ depositIdx = depositIdx' ∧
      depositTxid = depositTxid' := by
  obtain ⟨h, htxid⟩ := append_inj' h (by simp)
  obtain ⟨h, hdeposit⟩ := append_inj' h (by simp)
  obtain ⟨htag, hoperator⟩ := append_inj' h (by simp)
  refine ⟨Tag.mk.injEq .. |>.mpr htag, toBeBytes_toNat_inj hoperator,
    toBeBytes_toNat_inj hdeposit, ?_⟩
  rw [← Txid.ofBytes_toBytes depositTxid, htxid, Txid.ofBytes_toBytes]

/-- **A payment fulfills one withdrawal of one operator.** The node recognises the payment it makes
for a withdrawal as the fulfillment of that withdrawal by that operator, and of no other, under the
tag that the payment carries; and the statement reads back the data, the script and the amount that
the payment was made with. -/
theorem WithdrawalFulfillment.recognised_iff (tag : Tag) (recipient : Descriptor)
    (haddress : env.toScriptPubkey recipient network = some (env.toScript recipient))
    (operatorIdx depositIdx : UInt32) (depositTxid : Txid) (senderOutpoints : List OutPoint)
    (change : Option TxOut) :
    let payment := WithdrawalFulfillment.new env
      ⟨tag, operatorIdx.toNat, depositIdx.toNat, depositTxid⟩ senderOutpoints
      (params.depositAmount - params.operatorFee) change recipient
    (∀ (operatorIdx' depositIdx' : UInt32) (depositTxid' : Txid),
      isFulfillmentTx env network params operatorIdx'.toNat depositIdx'.toNat depositTxid' recipient
        payment = true ↔
      tag = params.tag ∧ operatorIdx' = operatorIdx ∧ depositIdx' = depositIdx ∧
        depositTxid' = depositTxid) ∧
    extractWithdrawalInfo payment tag = .ok ()
      { tag := tag
        operatorIdx := operatorIdx.toNat
        depositIdx := depositIdx.toNat
        depositTxid := depositTxid
        withdrawalAddress := env.toScript recipient
        withdrawalAmount := params.depositAmount - params.operatorFee } := by
  refine ⟨fun operatorIdx' depositIdx' depositTxid' => ⟨fun h => ?_, ?_⟩, ?_⟩
  · rw [isFulfillmentTx, Bool.and_eq_true] at h
    obtain ⟨out, data, hout, hdata, hcarried⟩ := (carriesMetadata_iff
      (m := ⟨params.tag, operatorIdx'.toNat, depositIdx'.toNat, depositTxid'⟩) rfl).mp h.2
    -- the data that was pushed is the data that is read, and has the length of what is looked for
    have hscript : opReturnData out.scriptPubkey = some (mk tag operatorIdx.toNat
        depositIdx.toNat depositTxid).opReturnData := by
      rw [← opReturnData_script, ← opReturnNonce_opReturnData, ← Option.some.inj hout]
    obtain rfl := Option.some.inj (hscript.symm.trans hdata)
    have heq := hcarried.eq_of_length (by simp)
    obtain ⟨htag, hoperator, hdeposit, htxid⟩ := opReturnData_inj heq
    exact ⟨htag.symm, hoperator, hdeposit, htxid⟩
  · rintro ⟨rfl, rfl, rfl, rfl⟩
    exact (recognised recipient haddress operatorIdx' depositIdx' depositTxid' senderOutpoints
      change).1
  · exact (@recognised env network { params with tag := tag } recipient haddress operatorIdx
      depositIdx depositTxid senderOutpoints change).2

theorem WithdrawalFulfillment.recognised_iff_linear :
    let payment := WithdrawalFulfillment.new plain
      ⟨graphParams.tag, 0, 0, Linear.depositTxid 1⟩ [] 900 none ⟨50⟩
    (∀ (operatorIdx' depositIdx' : UInt32) (depositTxid' : Txid),
      isFulfillmentTx plain .regtest graphParams operatorIdx'.toNat depositIdx'.toNat
        depositTxid' ⟨50⟩ payment = true ↔
      graphParams.tag = graphParams.tag ∧ operatorIdx' = 0 ∧ depositIdx' = 0 ∧
        depositTxid' = Linear.depositTxid 1) ∧
    extractWithdrawalInfo payment graphParams.tag = .ok ()
      { tag := graphParams.tag
        operatorIdx := 0
        depositIdx := 0
        depositTxid := Linear.depositTxid 1
        withdrawalAddress := toBeBytes 4 50
        withdrawalAmount := 900 } :=
  @recognised_iff plain .regtest graphParams graphParams.tag ⟨50⟩ rfl 0 0
    (Linear.depositTxid 1) [] none

end Fulfillment

/-! ### Checkpoints -/

section Checkpoint

variable {env : ProofEnv} {rollupParams : RollupParams} {tx : Transaction}

/-- The proof of a checkpoint leads to a chain state: the chain state has the root that the proof
is about, and the proof verifies. -/
def ProofEnv.Proves (env : ProofEnv) (rollupParams : RollupParams) (checkpoint : Checkpoint)
    (chainstate : Chainstate) : Prop :=
  env.computeStateRoot chainstate = checkpoint.postStateRoot ∧
    env.verifyRollupProof checkpoint.receipt rollupParams = true

def SignedCheckpoint.Carries (env : ProofEnv) (rollupParams : RollupParams)
    (signed : SignedCheckpoint) (chainstate : Chainstate) : Prop :=
  env.verifySignedCheckpointSig signed rollupParams = true ∧
    env.decodeChainstate signed.checkpoint.sidecar = some chainstate ∧
    env.Proves rollupParams signed.checkpoint chainstate

variable {chainstate : Chainstate} {input : TxIn}

theorem validChainstate_ok_iff {signed : SignedCheckpoint} :
    validChainstate env rollupParams signed = .ok () chainstate ↔
      signed.Carries env rollupParams chainstate := by
  rw [validChainstate, SignedCheckpoint.Carries, ProofEnv.Proves]
  split
  next hsig => simp [hsig]
  next hsig =>
  rw [Bool.not_eq_false] at hsig
  split
  next hdecode => simp [hdecode]
  next chainstate' hdecode =>
  rw [hsig, hdecode, Option.some.injEq, eq_self, true_and]
  split
  next hroot =>
    refine iff_of_false (by simp) ?_
    rintro ⟨rfl, hroot', -⟩
    exact hroot hroot'
  next hroot =>
  split
  next hproof => simp [hproof]
  next hproof =>
    rw [Bool.not_eq_false] at hproof
    constructor
    · intro heq
      obtain rfl := (Outcome.ok.inj heq).2
      exact ⟨rfl, not_not.mp hroot, hproof⟩
    · rintro ⟨rfl, -⟩
      rfl

variable {inputs : List TxIn} {filterConfig : TxFilterConfig}

theorem findChainstate_ok_iff :
    findChainstate env rollupParams filterConfig inputs = .ok () chainstate ↔
      ∃ signed, inputs.findSome? (envelopeCheckpoint env.toEnv filterConfig) = some signed ∧
        signed.Carries env rollupParams chainstate := by
  induction inputs with
  | nil => simp [findChainstate]
  | cons input inputs ih =>
    rw [findChainstate, findSome?_cons]
    cases envelopeCheckpoint env.toEnv filterConfig input with
    | some signed => simp [validChainstate_ok_iff]
    | none => simpa using ih

theorem parseStrataCheckpoint_ok_iff {env : Env}
    (hconfig : env.deriveFilterConfig rollupParams = .ok filterConfig)
    (hinput : tx.input = input :: inputs) {checkpoint : Checkpoint} :
    parseStrataCheckpoint env rollupParams tx = .ok (some checkpoint) ↔
      ∃ signed, envelopeCheckpoint env filterConfig input = some signed ∧
        env.verifySignedCheckpointSig signed rollupParams = true ∧
        signed.checkpoint = checkpoint := by
  rw [parseStrataCheckpoint, hconfig, hinput]
  cases henvelope : envelopeCheckpoint env filterConfig input with
  | none => simp [henvelope]
  | some signed => simp [henvelope]

/-- The node and the statement read the same chain state from a transaction, or neither reads
one that the node acts on. -/
def CheckpointsAgree (env : ProofEnv) (rollupParams : RollupParams) (tx : Transaction) : Prop :=
  (∀ checkpoint chainstate,
    parseStrataCheckpoint env.toEnv rollupParams tx = .ok (some checkpoint) →
    env.decodeChainstate checkpoint.sidecar = some chainstate →
    extractValidChainstateFromCheckpoint env rollupParams tx = .ok () chainstate) ∧
  ∀ chainstate, extractValidChainstateFromCheckpoint env rollupParams tx = .ok () chainstate →
    ∃ checkpoint, parseStrataCheckpoint env.toEnv rollupParams tx = .ok (some checkpoint) ∧
      env.decodeChainstate checkpoint.sidecar = some chainstate

/-- **When the recognizers of a checkpoint agree.** The node looks at the first input only, and at
the signature only. So they agree exactly when the checkpoint in the first input, once it is signed
and has a chain state, also has a proof of it; and when the first checkpoint is not in a later
input, or is not valid throughout. -/
theorem checkpoints_agree_iff (hinput : tx.input = input :: inputs) :
    CheckpointsAgree env rollupParams tx ↔
      ∀ filterConfig, env.deriveFilterConfig rollupParams = .ok filterConfig →
        (∀ signed, envelopeCheckpoint env.toEnv filterConfig input = some signed →
          env.verifySignedCheckpointSig signed rollupParams = true →
          ∀ chainstate, env.decodeChainstate signed.checkpoint.sidecar = some chainstate →
            env.Proves rollupParams signed.checkpoint chainstate) ∧
        (envelopeCheckpoint env.toEnv filterConfig input = none →
          ∀ signed, inputs.findSome? (envelopeCheckpoint env.toEnv filterConfig) = some signed →
            ∀ chainstate, ¬signed.Carries env rollupParams chainstate) := by
  rw [CheckpointsAgree]
  cases hconfig : env.deriveFilterConfig rollupParams with
  | error e => simp [parseStrataCheckpoint, extractValidChainstateFromCheckpoint, hconfig]
  | ok filterConfig =>
    have hextract (chainstate : Chainstate) :
        extractValidChainstateFromCheckpoint env rollupParams tx = .ok () chainstate ↔
          ∃ signed, (input :: inputs).findSome? (envelopeCheckpoint env.toEnv filterConfig) =
            some signed ∧ signed.Carries env rollupParams chainstate := by
      rw [extractValidChainstateFromCheckpoint, hconfig, hinput]
      exact findChainstate_ok_iff
    simp only [parseStrataCheckpoint_ok_iff hconfig hinput, hextract, findSome?_cons,
      Except.ok.injEq, forall_eq']
    cases henvelope : envelopeCheckpoint env.toEnv filterConfig input with
    | none =>
      suffices hlater : (∀ chainstate signed,
          inputs.findSome? (envelopeCheckpoint env.toEnv filterConfig) = some signed →
            ¬signed.Carries env rollupParams chainstate) ↔
          ∀ signed, inputs.findSome? (envelopeCheckpoint env.toEnv filterConfig) = some signed →
            ∀ chainstate, ¬signed.Carries env rollupParams chainstate by simpa using hlater
      exact ⟨fun h signed hs cs => h cs signed hs, fun h cs signed hs => h signed hs cs⟩
    | some signed =>
      constructor
      · rintro ⟨hread, -⟩
        refine ⟨?_, by simp⟩
        rintro _ ⟨⟩ hsig chainstate hdecode
        obtain ⟨_, ⟨⟩, -, -, hproves⟩ := hread _ chainstate ⟨signed, rfl, hsig, rfl⟩ hdecode
        exact hproves
      · rintro ⟨hproves, -⟩
        constructor
        · rintro _ chainstate ⟨_, ⟨⟩, hsig, rfl⟩ hdecode
          exact ⟨signed, rfl, hsig, hdecode, hproves signed rfl hsig chainstate hdecode⟩
        · rintro chainstate ⟨_, ⟨⟩, hsig, hdecode, -⟩
          exact ⟨_, ⟨signed, rfl, hsig, rfl⟩, hdecode⟩

theorem checkpoints_agree_linear :
    CheckpointsAgree (proofEnvUntil 1 102) Linear.rollupParams (checkpointTx 0) := by
  refine (checkpoints_agree_iff rfl).mpr ?_
  rintro _ ⟨⟩
  refine ⟨?_, by rintro ⟨⟩⟩
  rintro signed ⟨⟩ - chainstate -
  exact ⟨rfl, rfl⟩

/-- **The recognizers of a checkpoint disagree.** The node acts on a checkpoint whose proof does not
verify, which the statement rejects, and the statement accepts a checkpoint in a second input,
which the node does not look at. -/
theorem checkpoint_recognizers_disagree :
    let env := proofEnvUntil 1 102
    let unproven := inscription [[1, 0, 0]]
    let second := inscription [[], [1, 0, 1]]
    (parseStrataCheckpoint env.toEnv Linear.rollupParams unproven = .ok (some ⟨[], ⟨0⟩, ⟨0⟩, 100⟩) ∧
      env.decodeChainstate [] = some (dispatchedUntil 1 102) ∧
      extractValidChainstateFromCheckpoint env Linear.rollupParams unproven =
        .err () .invalidStrataProof) ∧
    (parseStrataCheckpoint env.toEnv Linear.rollupParams second = .ok none ∧
      extractValidChainstateFromCheckpoint env Linear.rollupParams second =
        .ok () (dispatchedUntil 1 102)) := by
  decide +kernel

end Checkpoint

end StrataBridge
