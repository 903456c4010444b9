import StrataBridge.TxGraph.Connectors
import StrataBridge.DutyTracker.Predicates

/-!
# The transactions of a peg-out graph

The constructors of the transactions by which an operator is reimbursed, and the generation of a
whole graph. Every constructor is given the identifiers of the transactions that it spends and the
connectors of their outputs; it computes the amounts and scripts of these outputs anew, by a
formula of its own, and records them as the outputs that its signatures commit to.

Amounts are subtracted with a check: an amount below zero is a panic.

## References

* `crates/tx-graph/src/transactions/`, `crates/tx-graph/src/peg_out_graph.rs`, lines 140–322
-/

namespace StrataBridge

open Rust

def Amount.sub (a b : ℕ) : MayPanic ℕ :=
  if b ≤ a then .ok (a - b) else .error "Amount subtraction error"

/-- An unsigned transaction with one input, and the output it records for that input. -/
structure Psbt where
  unsignedTx : Transaction
  prevout : TxOut
  deriving DecidableEq, Repr

def Transaction.version3 (tx : Transaction) : Transaction := { tx with version := 3 }

def waitFor (index blocks : ℕ) (inputs : List TxIn) : List TxIn :=
  inputs.modify index fun input => { input with sequence := sequenceFromHeight blocks }

def totalValue (outs : List TxOut) : ℕ := (outs.map TxOut.value).sum

section Build

variable (env : GraphEnv)

def dustOut (script : ScriptBuf) : TxOut := ⟨env.minimalNonDust script, script⟩

/-! ### Claim and challenge -/

structure ClaimPsbt where
  tx : ClaimTx
  prevout : TxOut
  deriving DecidableEq

/-- `ClaimTx::new` (`claim.rs`, lines 44–96). -/
def ClaimTx.new (stakeOutpoint : OutPoint) (connectorK : ConnectorK) (connectorC0 : ConnectorC0)
    (connectorC1 : ConnectorC1) (connectorNOfN : ConnectorNOfN) (connectorCpfp : ConnectorCpfp) :
    MayPanic ClaimPsbt := do
  let c1Out := connectorC1.generateLockingScript env
  let c2Out := connectorNOfN.lockingScript env
  let cpfpScript := connectorCpfp.generateLockingScript env
  let afterC1 ← Amount.sub fundingAmount (env.minimalNonDust c1Out)
  let afterC2 ← Amount.sub afterC1 (env.minimalNonDust c2Out)
  let c0Amt ← Amount.sub afterC2 (env.minimalNonDust cpfpScript)
  pure
    { tx :=
        { unsignedTx :=
            (createTx (createTxIns [stakeOutpoint])
              [⟨c0Amt, connectorC0.generateLockingScript env⟩, dustOut env c1Out,
                dustOut env c2Out, dustOut env cpfpScript]).version3
          hasInput := by simp [createTx, createTxIns, Transaction.version3] }
      prevout := ⟨fundingAmount, connectorK.lockingScript env⟩ }

/-- `SLASH_STAKE_VOUT` (`claim.rs`, line 40). -/
def slashStakeVout : ℕ := 2

/-- `ChallengeTxInput` (`challenge.rs`, lines 17–30). -/
structure ChallengeTxInput where
  claimOutpoint : OutPoint
  challengeAmt : ℕ
  operatorPubkey : XOnlyPublicKey
  network : Network
  deriving DecidableEq, Repr

/-- `ChallengeTx::new` (`challenge.rs`, lines 53–91). The address of the operator is that of a
tweaked key, as the one of a CPFP output is. -/
def ChallengeTx.new (input : ChallengeTxInput) (connector : ConnectorC1) : CovenantTx 1 where
  unsignedTx := createTx (createTxIns [input.claimOutpoint])
    [⟨input.challengeAmt, env.connectorCpfp input.operatorPubkey input.network⟩]
  prevouts := [dustOut env (connector.generateLockingScript env)]
  sighashTypes := #v[.singlePlusAnyoneCanPay]
  witnesses := #v[.tweaked (connector.generateMerkleRoot env)]

/-- `ChallengeTx::finalize_presigned` (`challenge.rs`, lines 101–119): the signature goes into the
witness of the first input. -/
def ChallengeTx.finalizePresigned (tx : CovenantTx 1) (signature : Bytes) : Transaction :=
  { tx.unsignedTx with
    input := tx.unsignedTx.input.modify 0 fun input => { input with witness := [signature] } }

/-! ### Payouts -/

/-- `PayoutOptimisticData` (`payout_optimistic.rs`, lines 22–45). -/
structure PayoutOptimisticData where
  claimTxid : Txid
  depositTxid : Txid
  stakeOutpoint : OutPoint
  depositAmount : ℕ
  operatorKey : XOnlyPublicKey
  network : Network
  deriving DecidableEq, Repr

/-- The value of the first output of a claim, as later transactions compute it
(`payout_optimistic.rs`, lines 78–83, and `pre_assert.rs`, lines 77–82). -/
def claimNetAmount : ℕ := fundingAmount - segwitMinAmount * 3

def payoutOutputs (prevouts : List TxOut) (operatorScript cpfpScript : ScriptBuf) :
    MayPanic (List TxOut) := do
  let payoutAmount ← Amount.sub (totalValue prevouts) (env.minimalNonDust cpfpScript)
  pure [⟨payoutAmount, operatorScript⟩, dustOut env cpfpScript]

/-- `PayoutOptimisticTx::new` (`payout_optimistic.rs`, lines 69–193). -/
def PayoutOptimisticTx.new (data : PayoutOptimisticData) (connectorC0 : ConnectorC0)
    (connectorC1 : ConnectorC1) (connectorNOfN : ConnectorNOfN) (connectorP : ConnectorP)
    (connectorCpfp : ConnectorCpfp) : MayPanic (CovenantTx numPayoutOptimisticInputs) := do
  let txIns := waitFor 2 connectorC1.payoutOptimisticTimelock <| createTxIns
    [⟨data.depositTxid, 0⟩, ⟨data.claimTxid, 0⟩, ⟨data.claimTxid, 1⟩, ⟨data.claimTxid, 2⟩,
      data.stakeOutpoint]
  let prevouts :=
    [⟨data.depositAmount, connectorNOfN.lockingScript env⟩,
      ⟨claimNetAmount, connectorC0.generateLockingScript env⟩,
      dustOut env (connectorC1.generateLockingScript env),
      dustOut env (connectorNOfN.lockingScript env), dustOut env (connectorP.lockingScript env)]
  let txOuts ← payoutOutputs env prevouts
    (createTaprootAddr env data.network (.keySpend data.operatorKey))
    (connectorCpfp.generateLockingScript env)
  let spendInfo := connectorC1.generateSpendInfo env
  pure
    { unsignedTx := (createTx txIns txOuts).version3
      prevouts := prevouts
      sighashTypes := .replicate _ .default
      witnesses := #v[.key, .tweaked (connectorC0.generateMerkleRoot env),
        .script spendInfo.1 spendInfo.2, .key, .tweaked (connectorP.generateMerkleRoot env)] }

/-- `PayoutData` (`payout.rs`, lines 22–49). -/
structure PayoutData where
  postAssertTxid : Txid
  depositTxid : Txid
  claimOutpoint : OutPoint
  stakeOutpoint : OutPoint
  depositAmount : ℕ
  operatorKey : XOnlyPublicKey
  network : Network
  deriving DecidableEq, Repr

/-- The value of the first output of a post-assert, as later transactions compute it
(`payout.rs`, line 74, and `disprove.rs`, line 65). -/
def postAssertNetAmount : ℕ := segwitMinAmount * (numAssertDataTx - 1)

/-- `PayoutTx::new` (`payout.rs`, lines 66–173). -/
def PayoutTx.new (data : PayoutData) (connectorA3 : ConnectorA3) (connectorNOfN : ConnectorNOfN)
    (connectorP : ConnectorP) (connectorCpfp : ConnectorCpfp) :
    MayPanic (CovenantTx numPayoutInputs) := do
  let txIns := waitFor 1 connectorA3.payoutTimelock <| createTxIns
    [⟨data.depositTxid, 0⟩, ⟨data.postAssertTxid, 0⟩, data.claimOutpoint, data.stakeOutpoint]
  let prevouts :=
    [⟨data.depositAmount, connectorNOfN.lockingScript env⟩,
      ⟨postAssertNetAmount, connectorA3.generateLockingScript env⟩,
      dustOut env (connectorNOfN.lockingScript env), dustOut env (connectorP.lockingScript env)]
  let txOuts ← payoutOutputs env prevouts
    (createTaprootAddr env data.network (.keySpend data.operatorKey))
    (connectorCpfp.generateLockingScript env)
  let spendInfo := connectorA3.payoutSpendInfo env
  pure
    { unsignedTx := (createTx txIns txOuts).version3
      prevouts := prevouts
      sighashTypes := .replicate _ .default
      witnesses := #v[.key, .script spendInfo.1 spendInfo.2, .key,
        .tweaked (connectorP.generateMerkleRoot env)] }

/-! ### The assert chain -/

def PreAssertTx.scripts (connectorA256 : ConnectorA256Factory)
    (connectorAHash : ConnectorAHashFactory) : List ScriptBuf :=
  connectorA256.lockingScripts env ++ connectorAHash.lockingScripts env

/-- The outputs of a pre-assert (`pre_assert.rs`, lines 95–151): twice the dust for every
connector, and a CPFP output. -/
def PreAssertTx.outputs (connectorCpfp : ConnectorCpfp) (connectorA256 : ConnectorA256Factory)
    (connectorAHash : ConnectorAHashFactory) : List TxOut :=
  ((PreAssertTx.scripts env connectorA256 connectorAHash).map fun script =>
    ⟨env.minimalNonDust script * 2, script⟩) ++
    [dustOut env (connectorCpfp.generateLockingScript env)]

/-- `PreAssertTx::new` (`pre_assert.rs`, lines 61–198). What remains of the input is computed and
only logged. The number of outputs, which the source asserts, is fixed by the constants. -/
def PreAssertTx.new (claimTxid : Txid) (connectorC0 : ConnectorC0) (connectorCpfp : ConnectorCpfp)
    (connectorA256 : ConnectorA256Factory) (connectorAHash : ConnectorAHashFactory) :
    MayPanic (CovenantTx 1) := do
  let txOuts := PreAssertTx.outputs env connectorCpfp connectorA256 connectorAHash
  let _netStake ← Amount.sub claimNetAmount (totalValue txOuts)
  let spendInfo := connectorC0.generateSpendInfo env
  pure
    { unsignedTx :=
        (createTx (waitFor 0 connectorC0.preAssertTimelock (createTxIns [⟨claimTxid, 0⟩]))
          txOuts).version3
      prevouts := [⟨claimNetAmount, connectorC0.generateLockingScript env⟩]
      sighashTypes := .singleton .default
      witnesses := #v[.script spendInfo.1 spendInfo.2] }

/-- `AssertDataTxInput` (`assert_data.rs`, lines 23–30). -/
structure AssertDataTxInput where
  preAssertTxid : Txid
  preAssertLockingScripts : Vector ScriptBuf numAssertDataTx
  deriving DecidableEq

/-- The assert-data transaction with an index (`assert_data.rs`, lines 50–88). -/
def AssertDataTxBatch.psbt (input : AssertDataTxInput) (connectorA2 : ConnectorNOfN)
    (connectorCpfp : ConnectorCpfp) (i : Fin numAssertDataTx) : Psbt where
  unsignedTx :=
    (createTx (createTxIns [⟨input.preAssertTxid, i⟩])
      [dustOut env (connectorA2.lockingScript env),
        dustOut env (connectorCpfp.generateLockingScript env)]).version3
  prevout := ⟨segwitMinAmount * 2, input.preAssertLockingScripts.get i⟩

/-- `AssertDataTxBatch::new` (`assert_data.rs`, lines 43–90). -/
def AssertDataTxBatch.new (input : AssertDataTxInput) (connectorA2 : ConnectorNOfN)
    (connectorCpfp : ConnectorCpfp) : Vector Psbt numAssertDataTx :=
  Vector.ofFn (AssertDataTxBatch.psbt env input connectorA2 connectorCpfp)

/-- `PostAssertTx::new` (`post_assert.rs`, lines 47–118). -/
def PostAssertTx.new (assertDataTxids : List Txid) (connectorA2 : ConnectorNOfN)
    (connectorA3 : ConnectorA3) (connectorCpfp : ConnectorCpfp) :
    MayPanic (CovenantTx numPostAssertInputs) := do
  let cpfpScript := connectorCpfp.generateLockingScript env
  let netAmount ← Amount.sub (segwitMinAmount * numAssertDataTx) (env.minimalNonDust cpfpScript)
  pure
    { unsignedTx :=
        (createTx (createTxIns (assertDataTxids.map fun txid => ⟨txid, 0⟩))
          [⟨netAmount, connectorA3.generateLockingScript env⟩, dustOut env cpfpScript]).version3
      prevouts := List.replicate numAssertDataTx (dustOut env (connectorA2.lockingScript env))
      sighashTypes := .replicate _ .default
      witnesses := .replicate _ .key }

/-- The transactions that publish a proof, with the outputs that the assert-data ones record. -/
structure AssertChainPsbts where
  preAssert : CovenantTx 1
  assertData : Vector Psbt numAssertDataTx
  postAssert : CovenantTx numPostAssertInputs
  deriving DecidableEq

/-- `AssertChain::new` (`assert_chain.rs`, lines 46–109). -/
def AssertChain.new (claimTxid : Txid) (connectorC0 : ConnectorC0) (connectorA2 : ConnectorNOfN)
    (connectorA3 : ConnectorA3) (connectorCpfp : ConnectorCpfp)
    (connectorAHash : ConnectorAHashFactory) (connectorA256 : ConnectorA256Factory) :
    MayPanic AssertChainPsbts := do
  let preAssert ← PreAssertTx.new env claimTxid connectorC0 connectorCpfp connectorA256
    connectorAHash
  match Wots.sized numAssertDataTx
      ((preAssert.unsignedTx.output.map TxOut.scriptPubkey).take numAssertDataTx) with
  | none => .error "pre-assert transaction must have the right number of outputs"
  | some scripts =>
    let assertData :=
      AssertDataTxBatch.new env ⟨preAssert.computeTxid env.toEnv, scripts⟩ connectorA2 connectorCpfp
    let postAssert ← PostAssertTx.new env
      (assertData.toList.map fun psbt => env.computeTxid psbt.unsignedTx) connectorA2 connectorA3
      connectorCpfp
    pure ⟨preAssert, assertData, postAssert⟩

/-! ### Slashing -/

def burnScript (network : Network) : ScriptBuf :=
  createTaprootAddr env network (.keySpend env.unspendablePublicKey)

/-- `DisproveTx::new` (`disprove.rs`, lines 53–116). -/
def DisproveTx.new (postAssertTxid : Txid) (stakeOutpoint : OutPoint) (network : Network)
    (stakeAmount burnAmount : ℕ) (connectorA3 : ConnectorA3) (connectorStake : ConnectorStake) :
    CovenantTx 1 where
  unsignedTx := createTx (createTxIns [stakeOutpoint, ⟨postAssertTxid, 0⟩])
    [⟨burnAmount, burnScript env network⟩]
  prevouts := [⟨stakeAmount, connectorStake.lockingScript env⟩,
    ⟨postAssertNetAmount, connectorA3.generateLockingScript env⟩]
  sighashTypes := #v[.single]
  witnesses := #v[.tweaked (connectorStake.generateMerkleRoot env)]

/-- `DisproveTx::finalize` (`disprove.rs`, lines 120–164), up to the check of the fees: the
presigned stake input gets its signature, the input of the post-assert reveals a leaf, and the
reward of the disprover goes behind the burn output. -/
def DisproveTx.finalize (tx : CovenantTx 1) (reward : TxOut) (signature : Bytes)
    (leafWitness : List Bytes) (leaf : ScriptBuf) (connectorA3 : ConnectorA3) : Transaction :=
  { tx.unsignedTx with
    input := (tx.unsignedTx.input.modify 0 fun input =>
      { input with witness := [signature] }).modify postAssertInputIndex fun input =>
        { input with witness := leafWitness ++ [leaf, connectorA3.controlBlock env leaf] }
    output := tx.unsignedTx.output ++ [reward] }

/-- `SlashStakeTx::new` (`slash_stake.rs`, lines 55–116). -/
def SlashStakeTx.new (stakeOutpoint claimOutpoint : OutPoint) (network : Network)
    (params : StakeChainParams) (claimOutConn : ConnectorNOfN) (stakeConn : ConnectorStake) :
    MayPanic (CovenantTx 2) := do
  let remaining ← Amount.sub params.burnAmount segwitMinAmount
  pure
    { unsignedTx := createTx (createTxIns [claimOutpoint, stakeOutpoint])
        [⟨segwitMinAmount, burnScript env network⟩, ⟨remaining, burnScript env network⟩]
      prevouts := [dustOut env (claimOutConn.lockingScript env),
        ⟨params.stakeAmount, stakeConn.lockingScript env⟩]
      sighashTypes := #v[.single, .single]
      witnesses := #v[.key, .tweaked (stakeConn.generateMerkleRoot env)] }

/-! ### The graph -/

/-- A generated graph, together with the outputs that the claim and the assert-data transactions
record, and the connectors. -/
structure GeneratedGraph where
  graph : PegOutGraph
  claimPrevout : TxOut
  assertDataPrevouts : Vector TxOut numAssertDataTx
  connectors : PegOutGraphConnectors
  deriving DecidableEq

def stakePayoutVout : ℕ := 1

/-- `PegOutGraph::generate` (lines 140–322). -/
def PegOutGraph.generate (input : PegOutGraphInput) (ctx : TxBuildContext) (depositTxid : Txid)
    (graphParams : PegOutGraphParams) (connectorParams : ConnectorParams)
    (stakeChainParams : StakeChainParams) (prevClaimTxids : List Txid) :
    MayPanic GeneratedGraph := do
  let connectors := PegOutGraphConnectors.new env ctx depositTxid connectorParams
    input.operatorPubkey input.stakeHash stakeChainParams.delta input.wotsPublicKeys
  let claim ← ClaimTx.new env input.withdrawalFulfillmentOutpoint connectors.kickoff
    connectors.claimOut0 connectors.claimOut1 connectors.nOfN connectors.connectorCpfp
  let claimTxid := claim.tx.computeTxid env.toEnv
  let challengeTx := ChallengeTx.new env
    ⟨⟨claimTxid, challengeVout⟩, graphParams.challengeCost, input.operatorPubkey, ctx.network⟩
    connectors.claimOut1
  let payoutOptimistic ← PayoutOptimisticTx.new env
    ⟨claimTxid, depositTxid, ⟨input.stakeOutpoint.txid, stakePayoutVout⟩, graphParams.depositAmount,
      input.operatorPubkey, ctx.network⟩
    connectors.claimOut0 connectors.claimOut1 connectors.nOfN connectors.hashlockPayout
    connectors.connectorCpfp
  let assertChain ← AssertChain.new env claimTxid connectors.claimOut0 connectors.nOfN
    connectors.postAssertOut0 connectors.connectorCpfp connectors.assertDataHashFactory
    connectors.assertData256Factory
  let postAssertTxid := assertChain.postAssert.computeTxid env.toEnv
  let payoutTx ← PayoutTx.new env
    ⟨postAssertTxid, depositTxid, ⟨claimTxid, slashStakeVout⟩,
      ⟨input.stakeOutpoint.txid, stakePayoutVout⟩, graphParams.depositAmount, input.operatorPubkey,
      ctx.network⟩
    connectors.postAssertOut0 connectors.nOfN connectors.hashlockPayout connectors.connectorCpfp
  let disproveTx := DisproveTx.new env postAssertTxid input.stakeOutpoint ctx.network
    stakeChainParams.stakeAmount stakeChainParams.burnAmount connectors.postAssertOut0
    connectors.stake
  let slashStakeTxs ← prevClaimTxids.mapM fun prevClaimTxid =>
    SlashStakeTx.new env input.stakeOutpoint ⟨prevClaimTxid, slashStakeVout⟩ ctx.network
      stakeChainParams connectors.nOfN connectors.stake
  pure
    { graph :=
        { claimTx := claim.tx
          challengeTx := challengeTx
          payoutOptimistic := payoutOptimistic
          assertChain := ⟨assertChain.preAssert, assertChain.assertData.map Psbt.unsignedTx,
            assertChain.postAssert⟩
          payoutTx := payoutTx
          disproveTx := disproveTx
          slashStakeTxs := slashStakeTxs }
      claimPrevout := claim.prevout
      assertDataPrevouts := assertChain.assertData.map Psbt.prevout
      connectors := connectors }

end Build

/-! ### The generator in use -/

namespace GraphEnv

/-- The graphs that contracts use are those of the generator. -/
def Generates (env : GraphEnv) : Prop :=
  ∀ {input ctx depositTxid graphParams connectorParams stakeChainParams prevClaimTxids g},
    PegOutGraph.generate env input ctx depositTxid graphParams connectorParams stakeChainParams
        prevClaimTxids = .ok g →
      env.generate input ctx depositTxid graphParams connectorParams stakeChainParams
        prevClaimTxids = g.graph

def withGenerate (env : GraphEnv)
    (generate : PegOutGraphInput → TxBuildContext → Txid → PegOutGraphParams → ConnectorParams →
      StakeChainParams → List Txid → PegOutGraph) : GraphEnv :=
  { env with generate := generate }

theorem generate_withGenerate (env : GraphEnv)
    (generate : PegOutGraphInput → TxBuildContext → Txid → PegOutGraphParams → ConnectorParams →
      StakeChainParams → List Txid → PegOutGraph) :
    PegOutGraph.generate (env.withGenerate generate) = PegOutGraph.generate env := rfl

end GraphEnv

end StrataBridge
