import StrataBridge.DutyTracker.ContractManager
import StrataBridge.Instance.Linear

/-!
# A manager in the linear instance

Deposit requests, announcements and checkpoints with which a manager can be run in the linear
instance.
-/

namespace StrataBridge.Linear

open Rust

variable (table : OperatorTable) (i : ℕ)

def executionConfig : ExecutionConfig where
  network := .regtest
  connectorParams := connectorParams
  pegOutGraphParams := graphParams
  stakeChainParams := stakeParams
  sidesystemParams := ⟨20, 0⟩
  operatorTable := table

def manager : ContractManagerCtx := .new (executionConfig table)

/-! ### Deposit requests -/

def recoveryKey : Bytes := List.replicate 32 9

def eeAddress : Bytes := List.replicate 20 8

def requestScript : ScriptBuf :=
  plain.taprootScriptPubkey .regtest ((manager table).txBuildContext.aggregatedPubkey plain)
    [plain.drtTakeBack ⟨digest (ofBytes recoveryKey)⟩ graphParams.refundDelay]

def requestTx (n : ℕ) : Transaction :=
  createTx (createTxIns [⟨stakeTxid n, 0⟩]) <| createTxOuts
    [(requestScript table, 2000),
      (opReturn :: pushSlice (graphParams.tag.bytes ++ recoveryKey ++ eeAddress), 0)]

def depositOf (n idx : ℕ) : Transaction :=
  DepositTx.unsigned plain
    { depositRequestOutpoint := ⟨computeTxid (requestTx table n), 0⟩
      stakeIndex := idx
      eeAddress := eeAddress
      totalAmount := 2000
      xOnlyPublicKey := ⟨digest (ofBytes recoveryKey)⟩
      originalScriptPubkey := requestScript table }
    (manager table).txBuildContext graphParams

def depositTxidOf (n idx : ℕ) : Txid := computeTxid (depositOf table n idx)

/-- Deposit request number `n`, where the environment makes the taproot output that it pays to. -/
def requestTxIn (env : Env) (table : OperatorTable) (n : ℕ) : Transaction :=
  let request := requestTx table n
  { request with
    output := request.output.modifyHead fun out =>
      { out with
        scriptPubkey := env.taprootScriptPubkey .regtest
          ((manager table).txBuildContext.aggregatedPubkey env)
          [env.drtTakeBack ⟨digest (ofBytes recoveryKey)⟩ graphParams.refundDelay] } }

def depositTxidIn (env : Env) (table : OperatorTable) (n idx : ℕ) : Txid :=
  match (manager table).requestIn env idx (requestTxIn env table n) with
  | .ok (some data) => env.computeTxid
      (DepositTx.unsigned env data (manager table).txBuildContext graphParams)
  | _ => stakeTxid n

def block (height : ℕ) (txs : List Transaction) : ContractManagerCtx.Input :=
  .block ⟨some height, txs⟩

/-! ### Messages -/

def exchange : ContractManagerCtx.Input :=
  .message ⟨10 + i⟩ (.stakeChainExchange (stakeTxid (70 + i)) 0)

def wireKeys (code : ℕ) (complete : Bool) : WotsPublicKeys where
  withdrawalFulfillment := ⟨code⟩
  groth16 :=
    if complete then
      ⟨.replicate numPubs ⟨code⟩, .replicate numU256 ⟨code⟩, .replicate numHash ⟨code⟩⟩
    else ⟨[], [], []⟩

/-- The data of operator `i` for a deposit: the index of the stake transaction, the hash of the
stake, and the one-time keys. -/
def depositSetup (index hash : ℕ) (complete : Bool) : DepositSetup where
  index := index
  hash := ⟨hash⟩
  fundingOutpoint := ⟨stakeTxid (80 + i), index⟩
  operatorPk := ⟨30 + i⟩
  wotsPks := wireKeys i complete

def announce (scope : Txid) (index hash : ℕ) (complete : Bool) : ContractManagerCtx.Input :=
  .message ⟨10 + i⟩ (.depositSetup scope (depositSetup i index hash complete))

/-- The txid of the stake transaction that the first announcement of operator `i` leads to. -/
def announcedStakeTxid (setup : DepositSetup) : Txid :=
  let stakeChains := (manager table).stakeChains.processExchange ⟨10 + i⟩ ⟨stakeTxid (70 + i), 0⟩
  match stakeChains.processSetup plain ⟨10 + i⟩ setup with
  | .ok _ (some txid) => txid
  | _ => stakeTxid 0

def announcedGraph (scope : Txid) (hash : ℕ) : PegOutGraph :=
  let txid := announcedStakeTxid table i (depositSetup i 0 hash true)
  generate
    { stakeOutpoint := ⟨txid, stakeVout⟩
      withdrawalFulfillmentOutpoint := ⟨txid, withdrawalFulfillmentVout⟩
      stakeHash := ⟨hash⟩
      wotsPublicKeys := wotsKeys i
      operatorPubkey := ⟨30 + i⟩ }
    scope

def sendNonces (graph : PegOutGraph) (code : ℕ) : ContractManagerCtx.Input :=
  .message ⟨10 + i⟩
    (.musig2NoncesExchange (graph.claimTx.computeTxid plain) (List.replicate 51 ⟨code⟩))

def sendShares (codes : List ℕ) (i : ℕ) (graph : PegOutGraph) : ContractManagerCtx.Input :=
  .message ⟨10 + i⟩
    (.musig2SignaturesExchange (graph.claimTx.computeTxid plain) (shares table codes i graph))

/-! ### Checkpoints -/

def checkpointTx (n : ℕ) : Transaction where
  version := 1
  lockTime := n
  input := (createTxIns [⟨stakeTxid n, 0⟩]).map fun input => { input with witness := [[1, 0, 1]] }
  output := []

def dispatched (deposit : Txid) : Chainstate where
  depositsTable :=
    [{ idx := 0
       output := ⟨deposit, 0⟩
       amt := 1000
       depositState := .dispatched ⟨[⟨⟨50⟩, 900⟩], 0, 2000⟩
       withdrawalRequestTxid := some ⟨60⟩ }]
  operatorTable := [(0, ⟨70⟩)]
  headerVs := ⟨100, 0⟩

def withCheckpoints (deposit : Txid) : Env := env fun _ => some (dispatched deposit)

end StrataBridge.Linear
