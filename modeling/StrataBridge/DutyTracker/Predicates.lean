import StrataBridge.TxGraph.DepositTx

/-!
# Recognising transactions

Predicates that tell the transactions a contract waits for from the others, and the parser of
deposit requests. A withdrawal fulfillment is recognised by its first two outputs: the payment
to the recipient, and an `OP_RETURN` output with the tag, the operator index, the deposit index
and the deposit txid.

## References

* `crates/duty-tracker/src/predicates.rs`
-/

namespace StrataBridge

open Rust

/-- `CHALLENGE_VOUT`: the output of a claim that a challenge spends. -/
def challengeVout : ℕ := 1

def postAssertInputIndex : ℕ := 1

/-- `op_return_data` (lines 22–35): the script starts with `OP_RETURN` and a push. -/
def opReturnData (script : ScriptBuf) : Option Bytes :=
  match Script.next script with
  | some (.op op, rest) =>
    if op = opReturn then
      match Script.next rest with
      | some (.pushBytes bytes, _) => some bytes
      | _ => none
    else none
  | _ => none

/-- `magic_tagged_data` (lines 37–45). -/
def magicTaggedData (tag : Bytes) (script : ScriptBuf) : Option Bytes :=
  (opReturnData script).bind fun data =>
    if tag.isPrefixOf data then some (data.drop tag.length) else none

/-- `slice::get` on a range: the bytes from `start` to `stop`, when the slice has them. -/
def getRange (data : Bytes) (start stop : ℕ) : Option Bytes :=
  if stop ≤ data.length then some ((data.drop start).take (stop - start)) else none

/-- `is_challenge` (lines 98–106): the first input spends the challenge output of the claim, and
there is one output. -/
def isChallenge (claimTxid : Txid) (tx : Transaction) : Bool :=
  (match tx.input.head? with
    | some input => input.previousOutput = ⟨claimTxid, challengeVout⟩
    | none => false) &&
  tx.output.length = 1

/-- `is_disprove` (lines 108–117). -/
def isDisprove (postAssertTxid : Txid) (tx : Transaction) : Bool :=
  (match tx.input[postAssertInputIndex]? with
    | some input => input.previousOutput = ⟨postAssertTxid, 0⟩
    | none => false) &&
  tx.input.length = 2 && tx.output.length = 2

section Fulfillment

variable (env : Env) (network : Network) (params : PegOutGraphParams)

/-- The first output pays the recipient the deposit less the fee. The difference is exact
(`PegOutGraphParams.operatorFee_le`). -/
def paysRecipient (recipient : Descriptor) (tx : Transaction) : Bool :=
  match env.toScriptPubkey recipient network, tx.output.head? with
  | some script, some output =>
    output.scriptPubkey = script && output.value = params.depositAmount - params.operatorFee
  | _, _ => false

/-- The second output carries the tag, the operator index, the deposit index and the txid of
the deposit. -/
def carriesMetadata (operatorIdx depositIdx : ℕ) (depositTxid : Txid) (tx : Transaction) :
    Bool :=
  match tx.output[1]?.bind fun output => opReturnData output.scriptPubkey with
  | none => false
  | some metadata =>
    let operatorIdOffset := params.tag.bytes.length
    let depositIdOffset := operatorIdOffset + 4
    let depositTxidOffset := depositIdOffset + 4
    params.tag.bytes.isPrefixOf metadata &&
      getRange metadata operatorIdOffset (operatorIdOffset + 4) = some (toBeBytes 4 operatorIdx) &&
      getRange metadata depositIdOffset (depositIdOffset + 4) = some (toBeBytes 4 depositIdx) &&
      getRange metadata depositTxidOffset (depositTxidOffset + 32) = some depositTxid.toBytes

/-- `is_fulfillment_tx` (lines 119–185). -/
def isFulfillmentTx (operatorIdx depositIdx : ℕ) (depositTxid : Txid) (recipient : Descriptor)
    (tx : Transaction) : Bool :=
  paysRecipient env network params recipient tx &&
    carriesMetadata params operatorIdx depositIdx depositTxid tx

end Fulfillment

/-! ### Deposit requests -/

def schnorrPublicKeySize : ℕ := 32

/-- `deposit_request_info` (lines 47–96). The key in the metadata is parsed with an `expect`. -/
def depositRequestInfo (env : Env) (sidesystemParams : RollupParams) (params : PegOutGraphParams)
    (aggregated : XOnlyPublicKey) (network : Network) (stakeIndex : ℕ) (tx : Transaction) :
    MayPanic (Option DepositRequestData) :=
  match tx.output.head?, tx.output[1]? with
  | some request, some second =>
    if request.value ≤ params.depositAmount then .ok none
    else
      match magicTaggedData params.tag.bytes second.scriptPubkey with
      | none => .ok none
      | some metadata =>
        if metadata.length ≠ schnorrPublicKeySize + sidesystemParams.addressLength then .ok none
        else
          match env.parseXOnly (metadata.take schnorrPublicKeySize) with
          | none => .error "failed to parse XOnlyPublicKey"
          | some recoveryKey =>
            let data : DepositRequestData :=
              { depositRequestOutpoint := ⟨env.computeTxid tx, 0⟩
                stakeIndex := stakeIndex
                eeAddress := metadata.drop schnorrPublicKeySize
                totalAmount := request.value
                xOnlyPublicKey := recoveryKey
                originalScriptPubkey := request.scriptPubkey }
            .ok (if data.validate env aggregated network params.refundDelay then some data
              else none)
  | _, _ => .ok none

/-! ### Checkpoints -/

def envelopeCheckpoint (env : Env) (filterConfig : TxFilterConfig) (input : TxIn) :
    Option SignedCheckpoint :=
  (env.taprootLeafScript input.witness).bind fun script =>
    (env.parseEnvelopePayloads script filterConfig).bind fun payloads =>
      payloads.head?.bind env.decodeSignedCheckpoint

/-- `parse_strata_checkpoint` (lines 187–215): the first input is read without a check that there is
one. -/
def parseStrataCheckpoint (env : Env) (sidesystemParams : RollupParams) (tx : Transaction) :
    MayPanic (Option Checkpoint) :=
  match env.deriveFilterConfig sidesystemParams with
  | .error _ => .error "rollup params must be valid"
  | .ok filterConfig =>
    match tx.input with
    | [] => .error "index out of bounds"
    | input :: _ =>
      match envelopeCheckpoint env filterConfig input with
      | none => .ok none
      | some signed =>
        .ok (if env.verifySignedCheckpointSig signed sidesystemParams then some signed.checkpoint
          else none)

end StrataBridge
