import StrataBridge.StakeChain.StakeTx

/-!
# Connectors

The outputs by which the transactions of a peg-out graph hang together. A connector knows the
keys and scripts of its output: it gives the script that locks the output, and what a signature
has to be made for when the output is spent.

Addresses are functions of an internal key and the leaves of a script tree. What the scripts of
the leaves say is left to `GraphEnv`, with the data that they are made from.

## References

* `crates/connectors/src/`, `crates/primitives/src/scripts/taproot.rs`,
  `crates/primitives/src/constants.rs`, `crates/tx-graph/src/peg_out_graph.rs`, lines 478–618
-/

namespace StrataBridge

/-! ### What connectors are built on -/

structure GraphEnv extends Env where
  /-- `UNSPENDABLE_PUBLIC_KEY`: an internal key that nobody can sign with. -/
  unspendablePublicKey : XOnlyPublicKey
  /-- `TaprootSpendInfo::control_block` of a leaf, for an internal key and all leaves. -/
  controlBlock : XOnlyPublicKey → List ScriptBuf → ScriptBuf → Bytes
  nOfNWithTimelock : XOnlyPublicKey → ℕ → ScriptBuf
  /-- `ConnectorP::generate_script`. -/
  connectorPScript : Sha256Hash → ScriptBuf
  /-- `ConnectorA256::create_locking_script`. -/
  connectorA256Script : List Wots256PublicKey → ScriptBuf
  /-- `ConnectorAHash::create_locking_script`. -/
  connectorAHashScript : List Wots128PublicKey → ScriptBuf
  /-- The script of `ConnectorA3Leaf::DisprovePublicInputsCommitment`. -/
  disprovePublicInputsCommitment : Wots.PublicKeys → Txid → ScriptBuf
  /-- `api_generate_full_tapscripts`: the scripts that each disprove one step of a proof. -/
  fullTapscripts : Wots.Groth16PublicKeys → List ScriptBuf

/-- `TapSighashType::Single`: all inputs, and the output at the index of the input. -/
def TapSighashType.single : TapSighashType := ⟨3⟩

/-- `TapSighashType::SinglePlusAnyoneCanPay`: the input, and the output at its index. -/
def TapSighashType.singlePlusAnyoneCanPay : TapSighashType := ⟨0x83⟩

/-- `Sequence::from_height` of a number that is cut to 16 bits. -/
def sequenceFromHeight (blocks : ℕ) : ℕ := blocks % 2 ^ 16

/-- `SpendPath` (`taproot.rs`, lines 26–51). -/
inductive SpendPath where
  | keySpend (internalKey : XOnlyPublicKey)
  | scriptSpend (scripts : List ScriptBuf)
  | both (internalKey : XOnlyPublicKey) (scripts : List ScriptBuf)
  deriving DecidableEq, Repr

section Build

variable (env : GraphEnv)

/-- `create_taproot_addr` (`taproot.rs`, lines 53–75), the script of the address. The one error of
the source, a script path without scripts, does not occur: every connector has a script. -/
def createTaprootAddr (network : Network) : SpendPath → ScriptBuf
  | .keySpend internalKey => env.taprootScriptPubkey network internalKey []
  | .scriptSpend scripts => env.taprootScriptPubkey network env.unspendablePublicKey scripts
  | .both internalKey scripts => env.taprootScriptPubkey network internalKey scripts

/-! ### Outputs of the stake transaction -/

/-- `ConnectorK`: the output that a claim spends. -/
structure ConnectorK where
  network : Network
  claimBitcommitment : Wots256PublicKey
  deriving DecidableEq, Repr

/-- The script of `ConnectorK::create_taproot_address`. -/
def ConnectorK.lockingScript (c : ConnectorK) : ScriptBuf :=
  env.connectorK c.network c.claimBitcommitment

/-- `ConnectorP`: the output that a payout spends. -/
structure ConnectorP where
  nOfNAggPubkey : XOnlyPublicKey
  stakeHash : Sha256Hash
  network : Network
  deriving DecidableEq, Repr

/-- The script of `ConnectorP::generate_address`. -/
def ConnectorP.lockingScript (c : ConnectorP) : ScriptBuf :=
  env.connectorP c.nOfNAggPubkey c.stakeHash c.network

/-- `ConnectorP::generate_merkle_root`. -/
def ConnectorP.generateMerkleRoot (c : ConnectorP) : BitVec 256 :=
  env.tapNodeHash (env.connectorPScript c.stakeHash)

structure ConnectorStake where
  nOfNAggPubkey : XOnlyPublicKey
  operatorPubkey : XOnlyPublicKey
  stakeHash : Sha256Hash
  delta : ℕ
  network : Network
  deriving DecidableEq, Repr

/-- The script of `ConnectorStake::generate_address`. -/
def ConnectorStake.lockingScript (c : ConnectorStake) : ScriptBuf :=
  env.connectorStake c.nOfNAggPubkey c.operatorPubkey c.stakeHash c.delta c.network

/-- `ConnectorStake::generate_merkle_root`. -/
def ConnectorStake.generateMerkleRoot (c : ConnectorStake) : BitVec 256 :=
  env.tapNodeHash (env.connectorStakeSpendInfo c.nOfNAggPubkey c.operatorPubkey c.stakeHash c.delta
    c.network).1

/-! ### Outputs of the claim -/

/-- `ConnectorC0`: the output that goes to an optimistic payout or to the assertion. -/
structure ConnectorC0 where
  nOfNAggPubkey : XOnlyPublicKey
  network : Network
  preAssertTimelock : ℕ
  deriving DecidableEq, Repr

namespace ConnectorC0

variable (c : ConnectorC0)

/-- `ConnectorC0::generate_payout_script`. -/
def generatePayoutScript : ScriptBuf := env.nOfNWithTimelock c.nOfNAggPubkey c.preAssertTimelock

/-- `ConnectorC0::generate_locking_script`. -/
def generateLockingScript : ScriptBuf :=
  createTaprootAddr env c.network (.both c.nOfNAggPubkey [c.generatePayoutScript env])

/-- `ConnectorC0::generate_spend_info`. -/
def generateSpendInfo : ScriptBuf × Bytes :=
  (c.generatePayoutScript env,
    env.controlBlock c.nOfNAggPubkey [c.generatePayoutScript env] (c.generatePayoutScript env))

/-- `ConnectorC0::generate_merkle_root`. -/
def generateMerkleRoot : BitVec 256 := env.tapNodeHash (c.generatePayoutScript env)

end ConnectorC0

/-- `ConnectorC1`: the output that a challenge or an optimistic payout spends. -/
structure ConnectorC1 where
  nOfNAggPubkey : XOnlyPublicKey
  network : Network
  payoutOptimisticTimelock : ℕ
  deriving DecidableEq, Repr

namespace ConnectorC1

variable (c : ConnectorC1)

/-- `ConnectorC1::generate_payout_script`. -/
def generatePayoutScript : ScriptBuf :=
  env.nOfNWithTimelock c.nOfNAggPubkey c.payoutOptimisticTimelock

/-- `ConnectorC1::generate_locking_script`. -/
def generateLockingScript : ScriptBuf :=
  createTaprootAddr env c.network (.both c.nOfNAggPubkey [c.generatePayoutScript env])

/-- `ConnectorC1::generate_spend_info`. -/
def generateSpendInfo : ScriptBuf × Bytes :=
  (c.generatePayoutScript env,
    env.controlBlock c.nOfNAggPubkey [c.generatePayoutScript env] (c.generatePayoutScript env))

/-- `ConnectorC1::generate_merkle_root`. -/
def generateMerkleRoot : BitVec 256 := env.tapNodeHash (c.generatePayoutScript env)

end ConnectorC1

/-- `ConnectorNOfN`: an output that all operators spend together. -/
structure ConnectorNOfN where
  nOfNAggPubkey : XOnlyPublicKey
  network : Network
  deriving DecidableEq, Repr

/-- The script of `ConnectorNOfN::create_taproot_address`. -/
def ConnectorNOfN.lockingScript (c : ConnectorNOfN) : ScriptBuf :=
  createTaprootAddr env c.network (.keySpend c.nOfNAggPubkey)

/-- `ConnectorCpfp`: the output by which an operator pays the fees. -/
structure ConnectorCpfp where
  publicKey : XOnlyPublicKey
  network : Network
  deriving DecidableEq, Repr

/-- `ConnectorCpfp::generate_locking_script`. -/
def ConnectorCpfp.generateLockingScript (c : ConnectorCpfp) : ScriptBuf :=
  env.connectorCpfp c.publicKey c.network

/-! ### Outputs of the pre-assert -/

/-- The numbers of connectors, and of the elements that each commits to (`constants.rs`,
lines 48–70). -/
def numFieldElemsPerConnectorBatch1 : ℕ := 5

def numFieldConnectorsBatch1 : ℕ := 3

def numFieldElemsPerConnectorBatch2 : ℕ := 0

def numFieldConnectorsBatch2 : ℕ := 0

def numHashElemsPerConnectorBatch1 : ℕ := 10

def numHashConnectorsBatch1 : ℕ := 33

def numHashElemsPerConnectorBatch2 : ℕ := 11

def numHashConnectorsBatch2 : ℕ := 3

def keyBatch {T : Type} (keys : List T) (offset size count : ℕ) : List (List T) :=
  (List.range count).map fun i => (keys.drop (offset + i * size)).take size

/-- `ConnectorA256Factory`: the keys that commit to field elements. -/
structure ConnectorA256Factory where
  network : Network
  publicKeys : List Wots256PublicKey
  deriving DecidableEq, Repr

/-- The scripts of the connectors of `ConnectorA256Factory::create_connectors`
(`connectors_a.rs`, lines 46–78), in order. -/
def ConnectorA256Factory.lockingScripts (f : ConnectorA256Factory) : List ScriptBuf :=
  (keyBatch f.publicKeys 0 numFieldElemsPerConnectorBatch1 numFieldConnectorsBatch1 ++
    keyBatch f.publicKeys (numFieldConnectorsBatch1 * numFieldElemsPerConnectorBatch1)
      numFieldElemsPerConnectorBatch2 numFieldConnectorsBatch2).map fun keys =>
    createTaprootAddr env f.network (.scriptSpend [env.connectorA256Script keys])

structure ConnectorAHashFactory where
  network : Network
  publicKeys : List Wots128PublicKey
  deriving DecidableEq, Repr

/-- The scripts of the connectors of `ConnectorAHashFactory::create_connectors`
(`connectors_a.rs`, lines 190–215), in order. -/
def ConnectorAHashFactory.lockingScripts (f : ConnectorAHashFactory) : List ScriptBuf :=
  (keyBatch f.publicKeys 0 numHashElemsPerConnectorBatch1 numHashConnectorsBatch1 ++
    keyBatch f.publicKeys (numHashConnectorsBatch1 * numHashElemsPerConnectorBatch1)
      numHashElemsPerConnectorBatch2 numHashConnectorsBatch2).map fun keys =>
    createTaprootAddr env f.network (.scriptSpend [env.connectorAHashScript keys])

/-! ### The output of the post-assert -/

/-- `ConnectorA3`: the output that a payout or a disprove transaction spends. -/
structure ConnectorA3 where
  network : Network
  depositTxid : Txid
  nOfNAggPubkey : XOnlyPublicKey
  wotsPublicKeys : Wots.PublicKeys
  payoutTimelock : ℕ
  deriving DecidableEq

namespace ConnectorA3

variable (c : ConnectorA3)

/-- The script of `ConnectorA3Leaf::Payout`. -/
def payoutLeaf : ScriptBuf := env.nOfNWithTimelock c.nOfNAggPubkey c.payoutTimelock

/-- The scripts of the leaves by which anyone disproves a claim: the wrong commitment to the
public inputs, and every wrong step of the proof. -/
def disproveLeaves : List ScriptBuf :=
  env.disprovePublicInputsCommitment c.wotsPublicKeys c.depositTxid ::
    env.fullTapscripts c.wotsPublicKeys.groth16

/-- All leaves (`connector_a3.rs`, lines 338–368). -/
def leaves : List ScriptBuf := c.payoutLeaf env :: c.disproveLeaves env

/-- `ConnectorA3::generate_locking_script`. -/
def generateLockingScript : ScriptBuf :=
  createTaprootAddr env c.network (.scriptSpend (c.leaves env))

def controlBlock (leaf : ScriptBuf) : Bytes :=
  env.controlBlock env.unspendablePublicKey (c.leaves env) leaf

/-- `ConnectorA3::generate_spend_info` of the payout leaf. -/
def payoutSpendInfo : ScriptBuf × Bytes := (c.payoutLeaf env, c.controlBlock env (c.payoutLeaf env))

end ConnectorA3

/-! ### The connectors of a graph -/

/-- `PegOutGraphConnectors` (`peg_out_graph.rs`, lines 478–518). -/
structure PegOutGraphConnectors where
  kickoff : ConnectorK
  claimOut0 : ConnectorC0
  claimOut1 : ConnectorC1
  nOfN : ConnectorNOfN
  connectorCpfp : ConnectorCpfp
  postAssertOut0 : ConnectorA3
  assertDataHashFactory : ConnectorAHashFactory
  assertData256Factory : ConnectorA256Factory
  stake : ConnectorStake
  hashlockPayout : ConnectorP
  deriving DecidableEq

def Wots.Groth16PublicKeys.keys256 (keys : Wots.Groth16PublicKeys) : List Wots256PublicKey :=
  keys.publicInputs.get ⟨0, numPubs_pos⟩ :: keys.fqs.toList

/-- `PegOutGraphConnectors::new` (`peg_out_graph.rs`, lines 542–618). -/
def PegOutGraphConnectors.new (ctx : TxBuildContext) (depositTxid : Txid) (params : ConnectorParams)
    (operatorPubkey : XOnlyPublicKey) (stakeHash : Sha256Hash) (delta : ℕ)
    (wotsPublicKeys : Wots.PublicKeys) : PegOutGraphConnectors :=
  let agg := ctx.aggregatedPubkey env.toEnv
  { kickoff := ⟨ctx.network, wotsPublicKeys.withdrawalFulfillment⟩
    claimOut0 := ⟨agg, ctx.network, params.preAssertTimelock⟩
    claimOut1 := ⟨agg, ctx.network, params.payoutOptimisticTimelock⟩
    nOfN := ⟨agg, ctx.network⟩
    connectorCpfp := ⟨operatorPubkey, ctx.network⟩
    postAssertOut0 := ⟨ctx.network, depositTxid, agg, wotsPublicKeys, params.payoutTimelock⟩
    assertDataHashFactory := ⟨ctx.network, wotsPublicKeys.groth16.hashes.toList⟩
    assertData256Factory := ⟨ctx.network, wotsPublicKeys.groth16.keys256⟩
    stake := ⟨agg, operatorPubkey, stakeHash, delta, ctx.network⟩
    hashlockPayout := ⟨agg, stakeHash, ctx.network⟩ }

end Build

/-! ### Taproot outputs -/

/-- A pay-to-taproot script: version 1 and a key of 32 bytes. -/
def isP2tr (script : ScriptBuf) : Bool :=
  script.length = 34 && script.take 2 = [0x51, 0x20]

/-- What is assumed of taproot outputs: addresses give pay-to-taproot scripts, and these have the
least amount of segwit outputs. -/
structure GraphEnv.Taproot (env : GraphEnv) : Prop where
  taproot : ∀ network key leaves, isP2tr (env.taprootScriptPubkey network key leaves) = true
  tweaked : ∀ key network, isP2tr (env.connectorCpfp key network) = true
  nonDust : ∀ script, isP2tr script = true → env.minimalNonDust script = segwitMinAmount

namespace GraphEnv.Taproot

variable {env : GraphEnv} (h : env.Taproot)

include h

theorem isP2tr_createTaprootAddr (network : Network) (path : SpendPath) :
    isP2tr (createTaprootAddr env network path) = true := by
  cases path with
  | keySpend key => exact h.taproot network key []
  | scriptSpend scripts => exact h.taproot network _ scripts
  | both key scripts => exact h.taproot network key scripts

theorem nonDust_createTaprootAddr (network : Network) (path : SpendPath) :
    env.minimalNonDust (createTaprootAddr env network path) = segwitMinAmount :=
  h.nonDust _ (h.isP2tr_createTaprootAddr network path)

theorem nonDust_c1 (c : ConnectorC1) :
    env.minimalNonDust (c.generateLockingScript env) = segwitMinAmount :=
  h.nonDust_createTaprootAddr _ _

theorem nonDust_nOfN (c : ConnectorNOfN) :
    env.minimalNonDust (c.lockingScript env) = segwitMinAmount :=
  h.nonDust_createTaprootAddr _ _

theorem nonDust_cpfp (c : ConnectorCpfp) :
    env.minimalNonDust (c.generateLockingScript env) = segwitMinAmount :=
  h.nonDust _ (h.tweaked _ _)

end GraphEnv.Taproot

end StrataBridge
