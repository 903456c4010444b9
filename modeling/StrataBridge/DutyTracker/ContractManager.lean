import StrataBridge.Bitcoin.Block
import StrataBridge.DutyTracker.ContractPersister
import StrataBridge.DutyTracker.Requests
import StrataBridge.DutyTracker.StakeChainSM

/-!
# The contract manager

The manager owns the contracts of all deposits and the stake chains of all operators. It turns
blocks, messages and requests of peers into events of contracts, collects the duties they hand
out, creates a contract for every deposit request, and commits contracts to disk.

Every duty is returned together with what it answers: the event that a contract was given, or
something else. The source returns the duties alone, in the same order.

## References

* `crates/duty-tracker/src/contract_manager.rs`, lines 555–1476
-/

namespace StrataBridge

open Rust

/-- `ExecutionConfig` (lines 564–579), the part that the state depends on. -/
structure ExecutionConfig where
  network : Network
  connectorParams : ConnectorParams
  pegOutGraphParams : PegOutGraphParams
  stakeChainParams : StakeChainParams
  sidesystemParams : RollupParams
  operatorTable : OperatorTable

/-- The messages that operators send each other. Scopes and session ids are 32 bytes, which are
read as txids. -/
inductive UnsignedGossipsubMsg where
  | stakeChainExchange (preStakeTxid : Txid) (preStakeVout : ℕ)
  | depositSetup (scope : Txid) (setup : DepositSetup)
  | musig2NoncesExchange (sessionId : Txid) (nonces : List PubNonce)
  | musig2SignaturesExchange (sessionId : Txid) (signatures : List PartialSignature)
  deriving DecidableEq, Repr

inductive GetMessageRequest where
  | stakeChainExchange
  | depositSetup (scope : Txid)
  | musig2NoncesExchange (sessionId : Txid)
  | musig2SignaturesExchange (sessionId : Txid)
  deriving DecidableEq, Repr

/-- `ContractManagerErr` (`errors.rs`, lines 18–66), the errors of the three entry points. -/
inductive ContractManagerErr where
  | transition (e : TransitionErr)
  | stakeChain (e : StakeChainErr)
  | invalidP2PMessage (msg : UnsignedGossipsubMsg)
  | invalidP2PRequest (req : GetMessageRequest)

inductive Origin where
  | event (deposit : Txid) (ev : ContractEvent)
  | depositRequest (requestTxid : Txid)
  | request

structure Emission where
  origin : Origin
  duty : OperatorDuty

/-- `ContractManagerCtx` (lines 582–591), with the fields of `ExecutionState`. -/
structure ContractManagerCtx where
  cfg : ExecutionConfig
  activeContracts : BTreeMap Txid ContractSM
  claimTxids : BTreeMap Txid Txid
  stakeChains : StakeChainSM
  contractPersister : ContractPersister

namespace ContractManagerCtx

abbrev Reply : Type := Outcome ContractManagerCtx ContractManagerErr (List Emission)

def new (cfg : ExecutionConfig) : ContractManagerCtx where
  cfg := cfg
  activeContracts := ∅
  claimTxids := ∅
  stakeChains := .new cfg.network cfg.operatorTable cfg.stakeChainParams
  contractPersister := ⟨[]⟩

def putContract (ctx : ContractManagerCtx) (deposit : Txid) (sm : ContractSM) :
    ContractManagerCtx :=
  { ctx with activeContracts := ctx.activeContracts.insert deposit sm }

def commit (ctx : ContractManagerCtx) (key deposit : Txid) : ContractManagerCtx :=
  match ctx.activeContracts[deposit]? with
  | none => ctx
  | some sm => { ctx with contractPersister := ctx.contractPersister.commit key (.of sm) }

def commitAll (ctx : ContractManagerCtx) : ContractManagerCtx :=
  { ctx with contractPersister := ctx.contractPersister.commitAll ctx.activeContracts }

section Process

variable (env : Env) (ctx : ContractManagerCtx)

def deliver (deposit : Txid) (sm : ContractSM) (ev : ContractEvent) : ContractManagerCtx.Reply :=
  ((sm.processContractEvent env ev).embed (ctx.putContract deposit) .transition).map
    (List.map (Emission.mk (.event deposit ev)))

/-! ### Assignments -/

/-- Assign the withdrawal of an entry (lines 807–841): without the stake transaction of this
operator nothing is done. -/
def assignEntry (l1StartHeight : BitcoinBlockHeight) (entry : DepositEntry) :
    ContractManagerCtx.Reply :=
  match ctx.activeContracts[entry.output.txid]? with
  | none => .panic "withdrawal info must be for an active contract"
  | some sm =>
    match ctx.stakeChains.stakeTx env ctx.cfg.operatorTable.povP2pKey entry.idx with
    | .ok (some stakeTx) =>
      ctx.deliver env entry.output.txid sm (.assignment entry stakeTx l1StartHeight)
    | _ => .ok ctx []

/-- `process_assignments` (lines 779–849). -/
def processAssignments (tx : Transaction) : ContractManagerCtx.Reply :=
  match parseStrataCheckpoint env ctx.cfg.sidesystemParams tx with
  | .error msg => .panic msg
  | .ok none => .ok ctx []
  | .ok (some checkpoint) =>
    match env.decodeChainstate checkpoint.sidecar with
    | none => .ok ctx []
    | some chainstate =>
      Outcome.forEach (fun ctx entry => ctx.assignEntry env (checkpoint.l1EndHeight + 1) entry) ctx
        (chainstate.depositsTable.filter DepositEntry.isDispatched)

/-! ### Blocks -/

/-- The index of the next deposit (lines 612–619). -/
def depositIdxOffset : ℕ :=
  ((BTreeMap.vals ctx.activeContracts).map fun sm => sm.cfg.depositIdx + 1).foldl max 0

def contractCfg (depositIdx : ℕ) (depositTx : DepositTx) : ContractCfg where
  network := ctx.cfg.network
  operatorTable := ctx.cfg.operatorTable
  connectorParams := ctx.cfg.connectorParams
  pegOutGraphParams := ctx.cfg.pegOutGraphParams
  sidesystemParams := ctx.cfg.sidesystemParams
  stakeChainParams := ctx.cfg.stakeChainParams
  depositIdx := depositIdx
  depositTx := depositTx

def txBuildContext : TxBuildContext := ctx.cfg.operatorTable.txBuildContext ctx.cfg.network

def requestIn (depositIdx : ℕ) (tx : Transaction) : MayPanic (Option DepositRequestData) :=
  depositRequestInfo env ctx.cfg.sidesystemParams ctx.cfg.pegOutGraphParams
    (ctx.txBuildContext.aggregatedPubkey env) ctx.cfg.network depositIdx tx

def depositFor (data : DepositRequestData) : Except DepositTransactionError DepositTx :=
  DepositTx.new env data ctx.txBuildContext ctx.cfg.pegOutGraphParams ctx.cfg.sidesystemParams

structure BlockProgress where
  ctx : ContractManagerCtx
  newContracts : List ContractSM

/-- Create a contract for a deposit request, unless its deposit has one already (lines 640–702). -/
def createContract (p : BlockProgress) (height : BitcoinBlockHeight) (depositIdx : ℕ)
    (data : DepositRequestData) : Outcome BlockProgress ContractManagerErr (List Emission) :=
  match p.ctx.depositFor env data with
  | .error _ => .ok p []
  | .ok depositTx =>
    if depositTx.tx.computeTxid env ∈ p.ctx.activeContracts then .ok p []
    else
      match p.ctx.stakeChains.stakeChains[p.ctx.cfg.operatorTable.povP2pKey]? with
      | none => .panic "this operator's p2p key must exist in the operator table"
      | some inputs =>
        .ok
          { p with
            newContracts := p.newContracts ++
              [ContractSM.new (p.ctx.contractCfg depositIdx depositTx) height
                (height + p.ctx.cfg.pegOutGraphParams.refundDelay)] }
          [⟨.depositRequest depositTx.requestTxid,
            .publishDepositSetup (depositTx.tx.computeTxid env) depositIdx inputs⟩]

/-- A deposit is confirmed; that the contract rejects it is only logged (lines 704–717). -/
def confirmDeposit (height : BitcoinBlockHeight) (sm : ContractSM) (tx : Transaction) :
    ContractManagerCtx.Reply :=
  if sm.state.blockHeight ≥ height then .ok ctx []
  else
    match ctx.deliver env (env.computeTxid tx) sm (.depositConfirmation tx) with
    | .ok ctx duties => .ok ctx duties
    | .err ctx _ => .ok ctx []
    | .panic msg => .panic msg

/-- Give a transaction to a contract that has not seen the block and wants it (lines 721–741). -/
def confirmFor (height : BitcoinBlockHeight) (tx : Transaction) (e : Txid × ContractSM) :
    ContractManagerCtx.Reply :=
  if e.2.state.blockHeight ≥ height then .ok ctx []
  else if e.2.transactionFilter env tx then
    ctx.deliver env e.1 e.2 (.pegOutGraphConfirmation tx height)
  else .ok ctx []

/-- A transaction that is neither a deposit request nor a deposit goes to every contract that
wants it. -/
def confirmPegOutGraphTx (height : BitcoinBlockHeight) (tx : Transaction) :
    ContractManagerCtx.Reply :=
  Outcome.forEach (fun ctx e => ctx.confirmFor env height tx e) ctx ctx.activeContracts.toList

/-- A transaction that assigns no withdrawal (lines 637–742). -/
def processOther (p : BlockProgress) (height : BitcoinBlockHeight) (depositIdx : ℕ)
    (tx : Transaction) : Outcome BlockProgress ContractManagerErr (List Emission) :=
  match p.ctx.requestIn env depositIdx tx with
  | .error msg => .panic msg
  | .ok (some data) => createContract env p height depositIdx data
  | .ok none =>
    match p.ctx.activeContracts[env.computeTxid tx]? with
    | some sm =>
      (p.ctx.confirmDeposit env height sm tx).embed (BlockProgress.mk · p.newContracts) id
    | none =>
      (p.ctx.confirmPegOutGraphTx env height tx).embed (BlockProgress.mk · p.newContracts) id

/-- A transaction of a block (lines 621–743). -/
def processTx (height : BitcoinBlockHeight) (offset : ℕ) (p : BlockProgress) (tx : Transaction) :
    Outcome BlockProgress ContractManagerErr (List Emission) :=
  ((p.ctx.processAssignments env tx).embed (BlockProgress.mk · p.newContracts) id).bind
    fun p duties =>
      if duties.isEmpty then processOther env p height (offset + p.newContracts.length) tx
      else .ok p duties

/-- Tell every contract about the new block (lines 746–750). -/
def notifyContracts (height : BitcoinBlockHeight) : ContractManagerCtx.Reply :=
  Outcome.forEach (fun ctx e => ctx.deliver env e.1 e.2 (.block height)) ctx
    ctx.activeContracts.toList

def addContracts (sms : List ContractSM) : ContractManagerCtx :=
  sms.foldl (fun ctx sm => ctx.putContract (sm.depositTxid env) sm) ctx

/-- `process_block` (lines 594–774): the transactions, then the new height, then the new contracts,
and all contracts are committed. -/
def processBlock (block : Block) : ContractManagerCtx.Reply :=
  match Outcome.forEach (processTx env block.height ctx.depositIdxOffset) ⟨ctx, []⟩
    block.txdata with
  | .panic msg => .panic msg
  | .err p e => .err p.ctx e
  | .ok p duties =>
    (p.ctx.notifyContracts env block.height).bind fun ctx blockDuties =>
      .ok (ctx.addContracts env p.newContracts).commitAll (duties ++ blockDuties)

/-! ### Messages -/

def findByClaim (claim : Txid) : Option (Txid × ContractSM) :=
  ctx.claimTxids[claim]?.bind fun deposit => ctx.activeContracts[deposit]?.map (deposit, ·)

def findByRequest (requestTxid : Txid) : Option (Txid × ContractSM) :=
  ctx.activeContracts.toList.find? fun e => e.2.cfg.depositRequestTxid = requestTxid

/-- Enter the claims of duties to publish nonces in the index of claims (lines 988–994). -/
def indexClaims (deposit : Txid) (duties : List Emission) : ContractManagerCtx :=
  { ctx with
    claimTxids := duties.foldl (fun claimTxids e =>
      match e.duty with
      | .publishGraphNonces claim .. => claimTxids.insert claim deposit
      | _ => claimTxids) ctx.claimTxids }

/-- The event for an announcement, once the stake chain has taken it (lines 957–1012). -/
def setupContract (key : P2POperatorPubKey) (scope : Txid) (sm : ContractSM)
    (setup : DepositSetup) : ContractManagerCtx.Reply :=
  match ctx.stakeChains.stakeTx env key sm.cfg.depositIdx with
  | .error e => .err ctx (.stakeChain e)
  | .ok none => .err ctx (.stakeChain (.stakeTxNotFound key sm.cfg.depositIdx))
  | .ok (some stakeTx) =>
    match Wots.PublicKeys.tryFrom setup.wotsPks with
    | .error _ => .err ctx (.invalidP2PMessage (.depositSetup scope setup))
    | .ok wotsKeys =>
      (ctx.deliver env scope sm (.depositSetup key setup.operatorPk setup.hash
        (stakeTx.computeTxid env) wotsKeys)).bind fun ctx duties =>
          let ctx := ctx.indexClaims scope duties
          .ok (if duties.isEmpty then ctx else ctx.commit scope scope) duties

/-- An announcement of an operator (lines 915–1019). -/
def processDepositSetup (key : P2POperatorPubKey) (scope : Txid) (setup : DepositSetup) :
    ContractManagerCtx.Reply :=
  match ctx.activeContracts[scope]? with
  | none => .ok ctx []
  | some sm =>
    match ctx.stakeChains.processSetup env key setup with
    | .panic msg => .panic msg
    | .err stakeChains e => .err { ctx with stakeChains } (.stakeChain e)
    | .ok stakeChains none => .ok { ctx with stakeChains } []
    | .ok stakeChains (some _) => setupContract env { ctx with stakeChains } key scope sm setup

/-- Nonces of an operator, for a graph or for a deposit (lines 1020–1058). -/
def processNonces (key : P2POperatorPubKey) (sessionId : Txid) (nonces : List PubNonce) :
    ContractManagerCtx.Reply :=
  match ctx.findByClaim sessionId with
  | some (deposit, sm) => ctx.deliver env deposit sm (.graphNonces key sessionId nonces)
  | none =>
    match ctx.findByRequest sessionId with
    | none => .ok ctx []
    | some (deposit, sm) =>
      match nonces.getLast? with
      | none => .err ctx (.invalidP2PMessage (.musig2NoncesExchange sessionId nonces))
      | some nonce =>
        if nonces.dropLast.isEmpty then ctx.deliver env deposit sm (.rootNonce key nonce)
        else .err ctx (.invalidP2PMessage (.musig2NoncesExchange sessionId nonces.dropLast))

/-- Partial signatures of an operator, for a graph or for a deposit. Once those of all graphs are
there the contract is committed, with the claim as key (lines 1059–1118). -/
def processSignatures (key : P2POperatorPubKey) (sessionId : Txid)
    (signatures : List PartialSignature) : ContractManagerCtx.Reply :=
  match ctx.findByClaim sessionId with
  | some (deposit, sm) =>
    (ctx.deliver env deposit sm (.graphSigs key sessionId signatures)).bind fun ctx duties =>
      .ok (if duties.isEmpty then ctx else ctx.commit sessionId deposit) duties
  | none =>
    match ctx.findByRequest sessionId with
    | none => .ok ctx []
    | some (deposit, sm) =>
      match signatures with
      | [sig] => ctx.deliver env deposit sm (.rootSig key sig)
      | _ => .err ctx (.invalidP2PMessage (.musig2SignaturesExchange sessionId signatures))

/-- `process_unsigned_gossip_msg` (lines 889–1121). -/
def processUnsignedGossipMsg (key : P2POperatorPubKey) :
    UnsignedGossipsubMsg → ContractManagerCtx.Reply
  | .stakeChainExchange preStakeTxid preStakeVout =>
    .ok { ctx with
      stakeChains := ctx.stakeChains.processExchange key ⟨preStakeTxid, preStakeVout⟩ } []
  | .depositSetup scope setup => ctx.processDepositSetup env key scope setup
  | .musig2NoncesExchange sessionId nonces => ctx.processNonces env key sessionId nonces
  | .musig2SignaturesExchange sessionId signatures =>
    ctx.processSignatures env key sessionId signatures

/-- `process_p2p_message` (lines 851–887): the sender has to be an operator. -/
def processP2pMessage (key : P2POperatorPubKey) (msg : UnsignedGossipsubMsg) :
    ContractManagerCtx.Reply :=
  match ctx.cfg.operatorTable.p2pKeyToIdx key with
  | none => .panic "sender must be in the operator table"
  | some _ => ctx.processUnsignedGossipMsg env key msg

/-! ### Requests -/

/-- `process_deposit_setup_request` (lines 1190–1225). -/
def processDepositSetupRequest (scope : Txid) :
    Outcome ContractManagerCtx ContractManagerErr (Option OperatorDuty) :=
  match ctx.stakeChains.stakeChains[ctx.cfg.operatorTable.povP2pKey]? with
  | none => .panic "our p2p key must exist in the operator table"
  | some inputs =>
    match ctx.activeContracts[scope]? with
    | none => .err ctx (.invalidP2PRequest (.depositSetup scope))
    | some sm => .ok ctx (some (.publishDepositSetup scope sm.cfg.depositIdx inputs))

def answerSession (sessionId : Txid)
    (ofClaim ofRequest : ContractSM → MayPanic (Option OperatorDuty)) :
    Outcome ContractManagerCtx ContractManagerErr (Option OperatorDuty) :=
  let answer : MayPanic (Option OperatorDuty) :=
    match ctx.findByClaim sessionId with
    | some (_, sm) => ofClaim sm
    | none =>
      match ctx.findByRequest sessionId with
      | some (_, sm) => ofRequest sm
      | none => .ok none
  match answer with
  | .error msg => .panic msg
  | .ok duty => .ok ctx duty

/-- `process_p2p_request` (lines 1162–1180). -/
def processP2pRequest :
    GetMessageRequest → Outcome ContractManagerCtx ContractManagerErr (Option OperatorDuty)
  | .stakeChainExchange => .ok ctx (some .publishStakeChainExchange)
  | .depositSetup scope => ctx.processDepositSetupRequest scope
  | .musig2NoncesExchange sessionId => ctx.answerSession sessionId
      (fun sm => sm.processGraphNoncesRequest env sessionId)
      (fun sm => .ok (sm.processRootNoncesRequest sessionId))
  | .musig2SignaturesExchange sessionId => ctx.answerSession sessionId
      (fun sm => sm.processGraphSignaturesRequest env ctx.cfg.operatorTable.povP2pKey sessionId)
      (fun sm => sm.processRootSignaturesRequest env sessionId)

/-! ### Runs -/

inductive Input where
  | block (b : Block)
  | message (key : P2POperatorPubKey) (msg : UnsignedGossipsubMsg)
  | request (req : GetMessageRequest)

/-- The manager under an input. After an error it is taken to go on with what the failed call
left, which covers a manager that stops as well. -/
def serve : Input → Option (ContractManagerCtx × List Emission)
  | .block b => (ctx.processBlock env b).next
  | .message key msg => (ctx.processP2pMessage env key msg).next
  | .request req =>
    ((ctx.processP2pRequest env req).map fun duty =>
      duty.toList.map (Emission.mk .request)).next

end Process

end ContractManagerCtx

end StrataBridge
