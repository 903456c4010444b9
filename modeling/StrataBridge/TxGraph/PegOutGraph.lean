import StrataBridge.Primitives.Sidesystem
import StrataBridge.Primitives.Wots
import StrataBridge.Rust.Outcome
import StrataBridge.TxGraph.PogMusigF

/-!
# Peg-out graphs

The transactions by which an operator is reimbursed for a withdrawal, as far as the contract of
a deposit looks at them: their identifiers, the inputs all operators sign, and the commitment
that a confirmed claim carries in its witness.

What the bridge takes from elsewhere is gathered in `Env`: hashing, the MuSig2 operations,
addresses of the connectors, and the parsers of envelopes and proofs. The generation of a graph
from its inputs is part of it too, as an arbitrary function of everything it reads.

## References

* `crates/tx-graph/src/peg_out_graph.rs`, `crates/tx-graph/src/transactions/covenant_tx.rs`,
  `crates/tx-graph/src/transactions/claim.rs`
-/

namespace StrataBridge

open Rust

/-! ### Graphs -/

/-- A transaction whose first `n` inputs are signed by all operators: the unsigned transaction,
the outputs it spends, and per signed input what the signature commits to and how it is spent. -/
structure CovenantTx (n : ℕ) where
  unsignedTx : Transaction
  prevouts : List TxOut
  sighashTypes : Vector TapSighashType n
  witnesses : Vector TaprootWitness n
  deriving DecidableEq

structure ClaimTx where
  unsignedTx : Transaction
  hasInput : unsignedTx.input ≠ []
  deriving DecidableEq

structure AssertChain where
  preAssert : CovenantTx 1
  assertData : Vector Transaction numAssertDataTx
  postAssert : CovenantTx numPostAssertInputs
  deriving DecidableEq

/-- `PegOutGraph` (`peg_out_graph.rs`, lines 88–115). -/
structure PegOutGraph where
  claimTx : ClaimTx
  challengeTx : CovenantTx 1
  payoutOptimistic : CovenantTx numPayoutOptimisticInputs
  assertChain : AssertChain
  payoutTx : CovenantTx numPayoutInputs
  disproveTx : CovenantTx 1
  slashStakeTxs : List (CovenantTx 2)
  deriving DecidableEq

/-- `PegOutGraphInput` (`peg_out_graph.rs`, lines 30–51): what an operator announces, from which
everyone generates that operator's graph. -/
structure PegOutGraphInput where
  stakeOutpoint : OutPoint
  withdrawalFulfillmentOutpoint : OutPoint
  stakeHash : Sha256Hash
  wotsPublicKeys : Wots.PublicKeys
  operatorPubkey : XOnlyPublicKey
  deriving DecidableEq

/-- `PegOutGraphSummary` (`peg_out_graph.rs`, lines 55–81): the identifiers by which the
transactions of a graph are recognised. -/
structure PegOutGraphSummary where
  stakeTxid : Txid
  claimTxid : Txid
  payoutOptimisticTxid : Txid
  preAssertTxid : Txid
  assertDataTxids : Vector Txid numAssertDataTx
  postAssertTxid : Txid
  payoutTxid : Txid
  slashStakeTxids : List Txid
  deriving DecidableEq

inductive TxErr where
  | witnessEmpty
  | txidSizeInvalid (len : ℕ)
  | assertData (code : ℕ)
  deriving DecidableEq, Repr

/-! ### What the bridge is built on -/

structure Env where
  /-- `Transaction::compute_txid`. -/
  computeTxid : Transaction → Txid
  /-- `create_message_hash`: the digest signed for an input. -/
  createMessageHash : Transaction → List TxOut → TaprootWitness → TapSighashType → ℕ → Message
  /-- `create_agg_ctx`: the tweaked aggregate of the keys, when they aggregate. -/
  createAggCtx : List PublicKey → TaprootWitness → Option KeyAggContext
  /-- `verify_partial`: a share is valid for its signer's key and nonce in a session. -/
  verifyPartial : KeyAggContext → PartialSignature → AggNonce → PublicKey → PubNonce →
    Message → Bool
  /-- `aggregate_partial_signatures`: the code of the joint signature, when it is valid. -/
  aggregatePartialSignatures : KeyAggContext → AggNonce → List PartialSignature → Message → Option ℕ
  /-- `get_aggregated_pubkey`. -/
  aggregatedPubkey : List PublicKey → XOnlyPublicKey
  /-- `PegOutGraph::generate`, the graph only. -/
  generate : PegOutGraphInput → TxBuildContext → Txid → PegOutGraphParams → ConnectorParams →
    StakeChainParams → List Txid → PegOutGraph
  /-- `AssertDataTxBatch::parse_witnesses`. -/
  parseWitnesses : List Transaction → Except TxErr Wots.Groth16Sigs
  /-- `Descriptor::to_address` and the script of the address. -/
  toScriptPubkey : Descriptor → Network → Option ScriptBuf
  /-- `Descriptor::to_script`. -/
  toScript : Descriptor → ScriptBuf
  /-- Whether graphs are generated on several threads (`MULTI_THREAD_GRAPH_GEN`). -/
  multiThreadGraphGen : Bool
  /-- The scripts of the outputs of a stake transaction. -/
  connectorK : Network → Wots256PublicKey → ScriptBuf
  connectorP : XOnlyPublicKey → Sha256Hash → Network → ScriptBuf
  connectorStake : XOnlyPublicKey → XOnlyPublicKey → Sha256Hash → ℕ → Network → ScriptBuf
  connectorCpfp : XOnlyPublicKey → Network → ScriptBuf
  /-- The leaf and control block that spend a stake output. -/
  connectorStakeSpendInfo : XOnlyPublicKey → XOnlyPublicKey → Sha256Hash → ℕ → Network →
    ScriptBuf × Bytes
  /-- `Script::minimal_non_dust`. -/
  minimalNonDust : ScriptBuf → ℕ
  /-- `XOnlyPublicKey::from_slice`. -/
  parseXOnly : Bytes → Option XOnlyPublicKey
  /-- `drt_take_back`: the leaf by which a user takes a deposit request back. -/
  drtTakeBack : XOnlyPublicKey → ℕ → ScriptBuf
  /-- `TapNodeHash::from_script`. -/
  tapNodeHash : ScriptBuf → BitVec 256
  /-- `create_taproot_addr` with a key path and the given leaves. -/
  taprootScriptPubkey : Network → XOnlyPublicKey → List ScriptBuf → ScriptBuf
  /-- `TxFilterConfig::derive_from`. -/
  deriveFilterConfig : RollupParams → Except String TxFilterConfig
  /-- `Witness::taproot_leaf_script`, the script only. -/
  taprootLeafScript : List Bytes → Option ScriptBuf
  /-- `parse_envelope_payloads`: the data of the payloads. -/
  parseEnvelopePayloads : ScriptBuf → TxFilterConfig → Option (List Bytes)
  /-- `borsh::from_slice::<SignedCheckpoint>`. -/
  decodeSignedCheckpoint : Bytes → Option SignedCheckpoint
  /-- `verify_signed_checkpoint_sig` under the credential rule of the parameters. -/
  verifySignedCheckpointSig : SignedCheckpoint → RollupParams → Bool
  /-- `borsh::from_slice::<Chainstate>`. -/
  decodeChainstate : Bytes → Option Chainstate

/-- What is assumed of MuSig2 for the keys of a group: the keys aggregate, and shares of all
signers that verify under the sum of their nonces join to a signature, in whatever order they
come. -/
structure Env.Musig2 (env : Env) (keys : List PublicKey) : Prop where
  context : ∀ witness, ∃ ctx, env.createAggCtx keys witness = some ctx
  aggregates : ∀ (witness : TaprootWitness) (ctx : KeyAggContext) (message : Message)
    (signers : List (PublicKey × PubNonce × PartialSignature)) (shares : List PartialSignature),
    env.createAggCtx keys witness = some ctx → signers.map Prod.fst = keys →
    shares.Perm (signers.map fun s => s.2.2) →
    (∀ s ∈ signers, env.verifyPartial ctx s.2.2 (AggNonce.sum (signers.map fun s => s.2.1)) s.1
      s.2.1 message = true) →
    ∃ sig, env.aggregatePartialSignatures ctx (AggNonce.sum (signers.map fun s => s.2.1)) shares
      message = some sig

/-- Different transactions among the given ones have different txids. -/
def Env.TxidsDistinct (env : Env) (txs : List Transaction) : Prop :=
  ∀ tx ∈ txs, ∀ tx' ∈ txs, env.computeTxid tx = env.computeTxid tx' →
    tx.withoutWitness = tx'.withoutWitness

instance (env : Env) (txs : List Transaction) : Decidable (env.TxidsDistinct txs) :=
  inferInstanceAs (Decidable (∀ tx ∈ txs, ∀ tx' ∈ txs, _ → _))

theorem Env.TxidsDistinct.same {env : Env} {txs : List Transaction} {tx tx' : Transaction}
    (h : env.TxidsDistinct txs) (htx : tx ∈ txs) (htx' : tx' ∈ txs)
    (heq : env.computeTxid tx = env.computeTxid tx') :
    tx.input.map TxIn.previousOutput = tx'.input.map TxIn.previousOutput ∧
      tx.output = tx'.output := by
  have hsame := h tx htx tx' htx' heq
  exact ⟨Transaction.map_input_eq_of_withoutWitness (fun _ => rfl) hsame,
    Transaction.output_eq_of_withoutWitness hsame⟩

def TxBuildContext.aggregatedPubkey (env : Env) (ctx : TxBuildContext) : XOnlyPublicKey :=
  env.aggregatedPubkey (ctx.pubkeyTable.map Prod.snd)

/-! ### The commitment in a claim -/

namespace ClaimTx

def totalDigitLen : ℕ := 68

/-- Read chain `i`: an element of 20 bytes and a digit, where an empty element is zero
(`claim.rs`, lines 173–188). -/
def parseChain (witness : List Bytes) (i : ℕ) : Outcome Unit TxErr Bytes :=
  match witness[2 * i]? with
  | none => .panic "index out of bounds"
  | some preimage =>
    if preimage.length = 20 then
      match witness[2 * i + 1]? with
      | none => .panic "index out of bounds"
      | some digit => .ok () (preimage ++ [digit.headD 0])
    else .err () (.txidSizeInvalid preimage.length)

def parseChains (witness : List Bytes) : List ℕ → Outcome Unit TxErr (List Bytes)
  | [] => .ok () []
  | i :: is => (parseChain witness i).bind fun _ chain =>
      (parseChains witness is).map (chain :: ·)

/-- `ClaimTx::parse_witness` (`claim.rs`, lines 156–194). -/
def parseWitness (tx : Transaction) : Outcome Unit TxErr Wots.Wots256Sig :=
  match tx.input with
  | [] => .panic "must have at least one input"
  | input :: _ =>
    if input.witness = [] then .err () .witnessEmpty
    else (parseChains input.witness (List.range totalDigitLen)).map Wots.Wots256Sig.mk

end ClaimTx

/-! ### Identifiers and signed inputs of a graph -/

section Graph

variable (env : Env)

/-- `CovenantTx::sighashes` (`covenant_tx.rs`, lines 51–76). -/
def CovenantTx.sighashes {n : ℕ} (tx : CovenantTx n) : Vector Message n :=
  Vector.ofFn fun i =>
    env.createMessageHash tx.unsignedTx tx.prevouts (tx.witnesses.get i) (tx.sighashTypes.get i) i

def CovenantTx.computeTxid {n : ℕ} (tx : CovenantTx n) : Txid := env.computeTxid tx.unsignedTx

def ClaimTx.computeTxid (tx : ClaimTx) : Txid := env.computeTxid tx.unsignedTx

namespace PegOutGraph

variable (g : PegOutGraph)

/-- `PegOutGraph::summarize` (`peg_out_graph.rs`, lines 328–346). -/
def summarize : PegOutGraphSummary where
  stakeTxid := (g.claimTx.unsignedTx.input.head g.claimTx.hasInput).previousOutput.txid
  claimTxid := g.claimTx.computeTxid env
  payoutOptimisticTxid := g.payoutOptimistic.computeTxid env
  preAssertTxid := g.assertChain.preAssert.computeTxid env
  assertDataTxids := g.assertChain.assertData.map env.computeTxid
  postAssertTxid := g.assertChain.postAssert.computeTxid env
  payoutTxid := g.payoutTx.computeTxid env
  slashStakeTxids := g.slashStakeTxs.map (CovenantTx.computeTxid env)

instance neZero_one : NeZero 1 := ⟨Nat.one_ne_zero⟩

/-- A value for every signed input, read off the transactions of the graph. -/
def musig {T : Type} (read : ∀ {n : ℕ}, CovenantTx n → Vector T n) (g : PegOutGraph) :
    PogMusigF T where
  challenge := (read g.challengeTx).get 0
  preAssert := (read g.assertChain.preAssert).get 0
  postAssert := read g.assertChain.postAssert
  payoutOptimistic := read g.payoutOptimistic
  payout := read g.payoutTx
  disprove := (read g.disproveTx).get 0
  slashStake := g.slashStakeTxs.map fun tx => ((read tx).get 0, (read tx).get 1)

/-- `PegOutGraph::musig_sighash_types`. -/
def musigSighashTypes : PogMusigF TapSighashType :=
  g.musig CovenantTx.sighashTypes

/-- `PegOutGraph::musig_sighashes`. -/
def musigSighashes : PogMusigF Message := g.musig (CovenantTx.sighashes env)

/-- `PegOutGraph::musig_inpoints`: the transaction itself, and the index of the input. -/
def musigInpoints : PogMusigF OutPoint :=
  g.musig fun tx => Vector.ofFn fun i => ⟨tx.computeTxid env, i⟩

/-- `PegOutGraph::musig_witnesses`. -/
def musigWitnesses : PogMusigF TaprootWitness := g.musig CovenantTx.witnesses

end PegOutGraph

end Graph

end StrataBridge
