import StrataBridge.Executors.Deposit

/-!
# Publishing the transactions of a graph

The executors of the duties of a fulfiller do not keep the graph. Each of them builds its
transaction anew, from the arguments of the duty and from what the secret service and the database
answer: the aggregated key in two ways, the one-time keys as they come over the wire, the hash of
the stake from the preimage or from a stored row.

Signatures, which go into the witnesses, are left out: a txid does not depend on them.

## References

* `crates/duty-tracker/src/executors/optimistic_withdrawal.rs`, lines 416–577
* `crates/duty-tracker/src/executors/contested_withdrawal.rs`, lines 38–368
-/

namespace StrataBridge

open Rust

/-! ### The executors -/

/-- `OperatorTable::aggregated_btc_key` (`operator_table.rs`, lines 152–156), the x-only key. -/
def OperatorTable.aggregatedBtcKey (env : Env) (table : OperatorTable) : XOnlyPublicKey :=
  env.aggregatedPubkey table.btcKeys

/-- `PAYOUT_VOUT` of a claim (`claim.rs`, line 37). -/
def claimPayoutVout : ℕ := 2

/-- The numbers of keys in the factories of `create_assert_data_connectors`. -/
def numKeys256 : ℕ := 3 * 5 + 0 * 0

def numKeysHash : ℕ := 33 * 10 + 3 * 11

def keyAt {T : Type} (keys : List T) (i : ℕ) : MayPanic T :=
  match keys[i]? with
  | some key => .ok key
  | none => .error "index out of bounds"

/-- `create_assert_data_connectors` (`contested_withdrawal.rs`, lines 337–368). -/
def createAssertDataConnectors (network : Network) (wotsPks : WotsPublicKeys) :
    MayPanic (ConnectorA256Factory × ConnectorAHashFactory) := do
  let publicKeys256 ← (List.range numKeys256).mapM fun
    | 0 => keyAt wotsPks.groth16.publicInputs 0
    | i + 1 => keyAt wotsPks.groth16.fqs i
  match Wots.sized numKeysHash wotsPks.groth16.hashes with
  | none => .error "must have the right size"
  | some hashes => pure (⟨network, publicKeys256⟩, ⟨network, hashes.toList⟩)

section Executors

variable (env : ExecutorEnv) (cfg : ExecutionConfig) (s2 : SecretService) (db : StakeDb)

/-- `handle_publish_claim` (`optimistic_withdrawal.rs`, lines 416–488). -/
def handlePublishClaim (stakeTxid depositTxid withdrawalFulfillmentTxid : Txid) :
    Except ExecutorErr (List Transaction) := do
  let withdrawalFulfillmentPk ← ask (getWithdrawalFulfillmentWotsPk s2.wots depositTxid)
  let agg := (cfg.operatorTable.txBuildContext cfg.network).aggregatedPubkey env.toEnv
  let cpfpKey ← ask s2.generalPubkey
  let claimTx ← orPanic <| ClaimTx.new env.toGraphEnv ⟨stakeTxid, withdrawalFulfillmentVout⟩
    ⟨cfg.network, withdrawalFulfillmentPk⟩
    ⟨agg, cfg.network, cfg.connectorParams.preAssertTimelock⟩
    ⟨agg, cfg.network, cfg.connectorParams.payoutOptimisticTimelock⟩
    ⟨agg, cfg.network⟩ ⟨cpfpKey, cfg.network⟩
  let _signature ← ask (s2.wots.get256Signature depositTxid depositVout withdrawalFulfillmentPkIdx
    withdrawalFulfillmentTxid.hash)
  pure [claimTx.tx.unsignedTx]

/-- `handle_publish_payout_optimistic` (`optimistic_withdrawal.rs`, lines 491–577). -/
def handlePublishPayoutOptimistic (depositTxid claimTxid stakeTxid : Txid) (stakeIndex : ℕ) :
    Except ExecutorErr (List Transaction) := do
  let operatorKey ← ask s2.generalPubkey
  let agg := (cfg.operatorTable.txBuildContext cfg.network).aggregatedPubkey env.toEnv
  match db.getPreStake cfg.operatorTable.povIdx with
  | none => throw (.stakeSetupDataNotFound cfg.operatorTable.povP2pKey)
  | some preStake =>
    let preimg ← ask (s2.getPreimg preStake.txid preStake.vout stakeIndex)
    let tx ← orPanic <| PayoutOptimisticTx.new env.toGraphEnv
      ⟨claimTxid, depositTxid, ⟨stakeTxid, stakePayoutVout⟩, cfg.pegOutGraphParams.depositAmount,
        operatorKey, cfg.network⟩
      ⟨agg, cfg.network, cfg.connectorParams.preAssertTimelock⟩
      ⟨agg, cfg.network, cfg.connectorParams.payoutOptimisticTimelock⟩
      ⟨agg, cfg.network⟩ ⟨agg, env.sha256 preimg, cfg.network⟩ ⟨operatorKey, cfg.network⟩
    pure [tx.unsignedTx]

/-- `handle_publish_pre_assert` (`contested_withdrawal.rs`, lines 38–95). -/
def handlePublishPreAssert (depositTxid claimTxid : Txid) :
    Except ExecutorErr (List Transaction) := do
  let agg := cfg.operatorTable.aggregatedBtcKey env.toEnv
  let operatorKey ← ask s2.generalPubkey
  let wotsPks ← ask (getWotsPks s2.wots depositTxid)
  let (a256, aHash) ← orPanic (createAssertDataConnectors cfg.network wotsPks)
  let tx ← orPanic <| PreAssertTx.new env.toGraphEnv claimTxid
    ⟨agg, cfg.network, cfg.connectorParams.preAssertTimelock⟩ ⟨operatorKey, cfg.network⟩ a256 aHash
  pure [tx.unsignedTx]

/-- `handle_publish_assert_data` (`contested_withdrawal.rs`, lines 97–202), for a node that is not
faulty on purpose. -/
def handlePublishAssertData (depositIdx : ℕ) (depositTxid : Txid) (input : AssertDataTxInput)
    (withdrawalFulfillmentTxid : Txid) (startHeight : BitcoinBlockHeight) :
    Except ExecutorErr (List Transaction) := do
  let assertions ← (env.generateAssertions withdrawalFulfillmentTxid startHeight
    depositIdx).mapError .proof
  let agg := cfg.operatorTable.aggregatedBtcKey env.toEnv
  let generalKey ← ask s2.generalPubkey
  let batch := AssertDataTxBatch.new env.toGraphEnv input ⟨agg, cfg.network⟩
    ⟨generalKey, cfg.network⟩
  let _signatures ← ask (signAssertions s2.wots depositTxid assertions).2
  let wotsPks ← ask (getWotsPks s2.wots depositTxid)
  let _connectors ← orPanic (createAssertDataConnectors cfg.network wotsPks)
  pure (batch.toList.map Psbt.unsignedTx)

/-- The connector of the post-assert, from the keys as they come over the wire; a wrong number of
keys is a panic. -/
def rebuiltConnectorA3 (depositTxid : Txid) (agg : XOnlyPublicKey) (wotsPks : WotsPublicKeys) :
    MayPanic ConnectorA3 :=
  match Wots.PublicKeys.tryFrom wotsPks with
  | .error _ => .error "must have the right size"
  | .ok keys => .ok ⟨cfg.network, depositTxid, agg, keys, cfg.connectorParams.payoutTimelock⟩

/-- `handle_publish_post_assert` (`contested_withdrawal.rs`, lines 204–257). -/
def handlePublishPostAssert (depositTxid : Txid) (assertDataTxids : Vector Txid numAssertDataTx) :
    Except ExecutorErr (List Transaction) := do
  let agg := cfg.operatorTable.aggregatedBtcKey env.toEnv
  let generalKey ← ask s2.generalPubkey
  let wotsPks ← ask (getWotsPks s2.wots depositTxid)
  let connectorA3 ← orPanic (rebuiltConnectorA3 cfg depositTxid agg wotsPks)
  let tx ← orPanic <| PostAssertTx.new env.toGraphEnv assertDataTxids.toList ⟨agg, cfg.network⟩
    connectorA3 ⟨generalKey, cfg.network⟩
  pure [tx.unsignedTx]

/-- `handle_publish_payout` (`contested_withdrawal.rs`, lines 260–335). -/
def handlePublishPayout (depositIdx : ℕ) (depositTxid stakeTxid claimTxid postAssertTxid : Txid) :
    Except ExecutorErr (List Transaction) := do
  let reimbursementKey ← ask s2.generalPubkey
  let agg := cfg.operatorTable.aggregatedBtcKey env.toEnv
  let wotsPks ← ask (getWotsPks s2.wots depositTxid)
  let connectorA3 ← orPanic (rebuiltConnectorA3 cfg depositTxid agg wotsPks)
  match db.getStakeData cfg.operatorTable.povIdx depositIdx with
  | none => throw (.stakeSetupDataNotFound cfg.operatorTable.povP2pKey)
  | some stakeData =>
    let tx ← orPanic <| PayoutTx.new env.toGraphEnv
      ⟨postAssertTxid, depositTxid, ⟨claimTxid, claimPayoutVout⟩, ⟨stakeTxid, stakePayoutVout⟩,
        cfg.pegOutGraphParams.depositAmount, reimbursementKey, cfg.network⟩
      connectorA3 ⟨agg, cfg.network⟩ ⟨agg, stakeData.hash, cfg.network⟩
      ⟨reimbursementKey, cfg.network⟩
    pure [tx.unsignedTx]

/-- `execute_duty` (`contract_manager.rs`, lines 1706–2010) for the duties of a fulfiller: the
transactions of the graph that are published. -/
def executeFulfillerDuty : FulfillerDuty → Except ExecutorErr (List Transaction)
  | .initStakeChain | .handleFulfillment .. => .ok []
  | .publishClaim withdrawalFulfillmentTxid stakeTxid depositTxid =>
    handlePublishClaim env cfg s2 stakeTxid depositTxid withdrawalFulfillmentTxid
  | .publishPayoutOptimistic depositTxid claimTxid stakeTxid stakeIndex _ =>
    handlePublishPayoutOptimistic env cfg s2 db depositTxid claimTxid stakeTxid stakeIndex
  | .publishPreAssert _ depositTxid claimTxid _ =>
    handlePublishPreAssert env cfg s2 depositTxid claimTxid
  | .publishAssertData withdrawalFulfillmentTxid startHeight depositIdx depositTxid preAssertTxid
      scripts =>
    handlePublishAssertData env cfg s2 depositIdx depositTxid ⟨preAssertTxid, scripts⟩
      withdrawalFulfillmentTxid startHeight
  | .publishPostAssertData depositTxid assertDataTxids _ =>
    handlePublishPostAssert env cfg s2 depositTxid assertDataTxids
  | .publishPayout depositIdx depositTxid postAssertTxid claimTxid stakeTxid _ =>
    handlePublishPayout env cfg s2 db depositIdx depositTxid stakeTxid claimTxid postAssertTxid

end Executors

end StrataBridge
