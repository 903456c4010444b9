import StrataBridge.Bitcoin.BigEndian
import StrataBridge.TxGraph.PegOutGraph

/-!
# Withdrawal fulfillments

The transaction by which an operator pays the user who asked for a withdrawal. Its second output
ties the payment to the operator and to the deposit.

## References

* `crates/tx-graph/src/transactions/withdrawal_fulfillment.rs`
-/

namespace StrataBridge

/-- `WithdrawalMetadata` (lines 15–49): what a withdrawal fulfillment carries in its `OP_RETURN`
output. -/
structure WithdrawalMetadata where
  tag : Tag
  operatorIdx : OperatorIdx
  depositIdx : ℕ
  depositTxid : Txid
  deriving DecidableEq, Repr

/-- `WithdrawalMetadata::op_return_data` (lines 53–67). -/
def WithdrawalMetadata.opReturnData (m : WithdrawalMetadata) : Bytes :=
  m.tag.bytes ++ toBeBytes 4 m.operatorIdx ++ toBeBytes 4 m.depositIdx ++ m.depositTxid.toBytes

@[simp] theorem WithdrawalMetadata.length_opReturnData (m : WithdrawalMetadata) :
    m.opReturnData.length = 44 := by
  simp [opReturnData, m.tag.length_eq, tagSize]

/-- `op_return_nonce` (`crates/primitives/src/scripts/general.rs`, lines 55–66). -/
def opReturnNonce (data : Bytes) : ScriptBuf := opReturn :: pushSlice data

/-- `WithdrawalFulfillment::new` (lines 73–105). -/
def WithdrawalFulfillment.new (env : Env) (metadata : WithdrawalMetadata)
    (senderOutpoints : List OutPoint) (amount : ℕ) (change : Option TxOut)
    (recipientDesc : Descriptor) : Transaction :=
  createTx (createTxIns senderOutpoints) <| createTxOuts <|
    [(env.toScript recipientDesc, amount), (opReturnNonce metadata.opReturnData, 0)] ++
      (change.map fun out => (out.scriptPubkey, out.value)).toList

end StrataBridge
