import StrataBridge.Instance.Linear
import StrataBridge.TxGraph.Transactions

/-!
# Graphs of the linear instance

The linear instance with real graphs: taproot outputs are scripts of the right form that commit to
a key and the leaves, and the transactions of a graph are those that the generator of the source
builds.
-/

namespace StrataBridge.Linear

open Rust

/-! ### The environment -/

def p2tr (l : List ℕ) : ScriptBuf := 0x51 :: 0x20 :: toBeBytes 32 (digest l)

def graphBase : GraphEnv where
  toEnv :=
    { plain with
      connectorCpfp := fun key _ => p2tr [0, key.code]
      taprootScriptPubkey := fun _ key leaves => p2tr (1 :: key.code :: leaves.flatMap ofBytes) }
  unspendablePublicKey := ⟨0⟩
  controlBlock key leaves leaf := toBeBytes 4 key.code ++ leaves.flatten ++ leaf
  nOfNWithTimelock key timelock := toBeBytes 4 timelock ++ toBeBytes 4 key.code
  connectorPScript hash := toBeBytes 4 hash.code
  connectorA256Script keys := keys.flatMap fun key => toBeBytes 4 key.code
  connectorAHashScript keys := keys.flatMap fun key => toBeBytes 4 key.code
  disprovePublicInputsCommitment keys deposit :=
    toBeBytes 4 keys.withdrawalFulfillment.code ++ deposit.toBytes
  fullTapscripts _ := [[1], [2]]

def graphEnv : GraphEnv :=
  graphBase.withGenerate fun input ctx deposit params connectorParams stakeParams prevClaims =>
    match PegOutGraph.generate graphBase input ctx deposit params connectorParams stakeParams
        prevClaims with
    | .ok g => g.graph
    | .error _ => generate input deposit

theorem generates : graphEnv.Generates := by
  intro input ctx deposit params connectorParams stakeParams prevClaims g h
  rw [graphEnv, GraphEnv.generate_withGenerate] at h
  simp only [graphEnv, GraphEnv.withGenerate, h]

theorem isP2tr_p2tr (l : List ℕ) : isP2tr (p2tr l) = true := by
  simp [isP2tr, p2tr]

theorem taproot : graphEnv.Taproot where
  taproot _ _ _ := isP2tr_p2tr _
  tweaked _ _ := isP2tr_p2tr _
  nonDust _ _ := rfl

/-! ### A deposit and a graph -/

def graphCtx : TxBuildContext := twoOperators.txBuildContext .regtest

def slashParams : StakeChainParams := { stakeParams with burnAmount := 400 }

def requestData : DepositRequestData where
  depositRequestOutpoint := ⟨⟨77⟩, 0⟩
  stakeIndex := 0
  eeAddress := List.replicate 20 0
  totalAmount := 1100
  xOnlyPublicKey := ⟨5⟩
  originalScriptPubkey := graphEnv.taprootScriptPubkey .regtest
    (graphCtx.aggregatedPubkey graphEnv.toEnv) [graphEnv.drtTakeBack ⟨5⟩ graphParams.refundDelay]

def graphDeposit : DepositTx where
  tx :=
    { unsignedTx := DepositTx.unsigned graphEnv.toEnv requestData graphCtx graphParams
      prevouts := [⟨requestData.totalAmount, requestData.originalScriptPubkey⟩]
      sighashTypes := .singleton .default
      witnesses := #v[.tweaked (DepositTx.takebackHash graphEnv.toEnv requestData graphParams)] }
  hasInput := by simp [DepositTx.unsigned, createTx, createTxIns]

theorem new_requestData :
    DepositTx.new graphEnv.toEnv requestData graphCtx graphParams ⟨20, 0⟩ = .ok graphDeposit := by
  have hvalid : requestData.validate graphEnv.toEnv (graphCtx.aggregatedPubkey graphEnv.toEnv)
      graphCtx.network graphParams.refundDelay = true := decide_eq_true rfl
  rw [DepositTx.new, if_pos hvalid]
  rfl

def graphStake : StakeTx :=
  .newHead graphEnv.toEnv graphCtx slashParams ⟨40⟩ ⟨0⟩ ⟨⟨78⟩, 0⟩ ⟨⟨79⟩, 0⟩ ⟨30⟩

def graphInput : PegOutGraphInput where
  stakeOutpoint := ⟨graphStake.computeTxid graphEnv.toEnv, stakeVout⟩
  withdrawalFulfillmentOutpoint :=
    ⟨graphStake.computeTxid graphEnv.toEnv, withdrawalFulfillmentVout⟩
  stakeHash := ⟨40⟩
  wotsPublicKeys := wotsKeys 0
  operatorPubkey := ⟨30⟩

/-! ### A withdrawal -/

def announced (i stake : ℕ) : PegOutGraphInput where
  stakeOutpoint := ⟨stakeTxid stake, stakeVout⟩
  withdrawalFulfillmentOutpoint := ⟨stakeTxid stake, withdrawalFulfillmentVout⟩
  stakeHash := ⟨40 + i⟩
  wotsPublicKeys := wotsKeys i
  operatorPubkey := ⟨30 + i⟩

def builtGraph (i stake : ℕ) : PegOutGraph :=
  (cfg twoOperators 0 1).buildGraph graphEnv.toEnv (announced i stake)

def committed (tx : Transaction) : Transaction :=
  let chains := (List.range ClaimTx.totalDigitLen).flatMap fun _ => [List.replicate 20 0, [1]]
  { tx with input := tx.input.map fun input => { input with witness := chains } }

/-- A withdrawal that operator 1 serves, as operator 0 sees it, up to the claim. -/
def claimedEvents : List ContractEvent :=
  [setup 0 2, setup 1 3, .depositConfirmation (depositTx 1).tx.unsignedTx, assignment 1 0 1,
    .pegOutGraphConfirmation (fulfillment 1 0 1) 101,
    .pegOutGraphConfirmation (committed (builtGraph 1 3).claimTx.unsignedTx) 102]

def assertedEvents : List ContractEvent :=
  let chain := (builtGraph 1 3).assertChain
  .pegOutGraphConfirmation chain.preAssert.unsignedTx 103 ::
    (chain.assertData.toList.map fun tx => .pegOutGraphConfirmation tx 104) ++
    [.pegOutGraphConfirmation chain.postAssert.unsignedTx 105]

end StrataBridge.Linear
