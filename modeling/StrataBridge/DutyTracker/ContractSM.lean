import StrataBridge.DutyTracker.Requested

/-!
# The contract state machine

`ContractSM.processContractEvent` hands an event to the handler of its kind; every handler looks
at the phase of the contract first. The handlers of the requested phase are those of
`Requested`; the phases after the deposit follow the transactions of the active graph on chain.

## References

* `crates/duty-tracker/src/contract_state_machine.rs`, lines 1258–3283
-/

namespace StrataBridge

open Rust

/-- `MachineState`: the last block seen, and the phase. -/
structure MachineState where
  blockHeight : BitcoinBlockHeight
  state : ContractState

structure ContractSM where
  cfg : ContractCfg
  state : MachineState
  pog : PogCache

namespace ContractSM

abbrev Reply : Type := Outcome ContractSM TransitionErr (List OperatorDuty)

/-- `ContractSM::new`. -/
def new (cfg : ContractCfg) (blockHeight abortDeadline : BitcoinBlockHeight) : ContractSM where
  cfg := cfg
  state := ⟨blockHeight, .new cfg.depositRequestTxid abortDeadline⟩
  pog := ∅

/-- `ContractSM::restore`: a contract read back from the database. -/
def restore (cfg : ContractCfg) (state : MachineState) : ContractSM := ⟨cfg, state, ∅⟩

variable (sm : ContractSM)

def setState (s : ContractState) : ContractSM :=
  { sm with state := { sm.state with state := s } }

@[simp] theorem setState_cfg (s : ContractState) :
    (sm.setState s).cfg = sm.cfg := rfl

@[simp] theorem setState_state (s : ContractState) :
    (sm.setState s).state = ⟨sm.state.blockHeight, s⟩ := rfl

@[simp] theorem setState_pog (s : ContractState) :
    (sm.setState s).pog = sm.pog := rfl

def putRequested (p : Requested × PogCache) : ContractSM :=
  { sm.setState (.requested p.1) with pog := p.2 }

@[simp] theorem putRequested_cfg (p : Requested × PogCache) :
    (sm.putRequested p).cfg = sm.cfg := rfl

@[simp] theorem putRequested_state (p : Requested × PogCache) :
    (sm.putRequested p).state = ⟨sm.state.blockHeight, .requested p.1⟩ := rfl

@[simp] theorem putRequested_pog (p : Requested × PogCache) :
    (sm.putRequested p).pog = p.2 := rfl

section Handlers

variable (env : Env) (sm : ContractSM)

/-- `ContractSM::deposit_txid`. -/
def depositTxid : Txid := sm.cfg.depositTxid env

def isPov (fulfiller : OperatorIdx) : Bool := fulfiller = sm.cfg.operatorTable.povIdx

def unexpected (handler : Handler) : ContractSM.Reply :=
  .err sm (.unexpectedState handler sm.state.state)

def invalidTx (handler : Handler) (tx : Transaction) : ContractSM.Reply :=
  .err sm (.invalidTx handler (env.computeTxid tx))

def inRequested (f : Requested → Requested.Reply) (other : ContractSM.Reply) : ContractSM.Reply :=
  match sm.state.state with
  | .requested r => (f r).embed sm.putRequested id
  | _ => other

/-! ### Setting up the graphs and the deposit -/

def processDepositSetup (signer : P2POperatorPubKey) (operatorPubkey : XOnlyPublicKey)
    (stakeHash : Sha256Hash) (stakeTxid : Txid) (wotsKeys : Wots.PublicKeys) : ContractSM.Reply :=
  sm.inRequested
    (fun r => r.processDepositSetup env sm.cfg sm.pog signer operatorPubkey stakeHash stakeTxid
      wotsKeys)
    (match sm.state.state with
      | .aborted => .ok sm []
      | _ => sm.unexpected .depositSetup)

def processGraphNonces (signer : P2POperatorPubKey) (claim : Txid) (nonces : List PubNonce) :
    ContractSM.Reply :=
  sm.inRequested (fun r => r.processGraphNonces env sm.cfg sm.pog signer claim nonces)
    (sm.unexpected .graphNonces)

/-- `process_graph_signatures`: the vector is unpacked whatever the phase. -/
def processGraphSignatures (signer : P2POperatorPubKey) (claim : Txid)
    (signatures : List PartialSignature) : ContractSM.Reply :=
  match PogMusigF.unpack signatures with
  | none => .err sm .unpackSigs
  | some partials =>
    sm.inRequested (fun r => r.processGraphSignatures env sm.cfg sm.pog signer claim partials)
      (sm.unexpected .graphSignatures)

def processAggregateSigs (sigs : BTreeMap Txid (PogMusigF TaprootSignature)) : ContractSM.Reply :=
  sm.inRequested (fun r => r.processAggregateSigs sm.cfg sm.pog sigs) (sm.unexpected .aggregateSigs)

/-- A message for the deposit transaction is ignored once somebody else has deposited. -/
def ignoredOnceDeposited (handler : Handler) : ContractSM.Reply :=
  match sm.state.state with
  | .deposited _ => .ok sm []
  | _ => sm.unexpected handler

def processRootNonce (signer : P2POperatorPubKey) (nonce : PubNonce) : ContractSM.Reply :=
  sm.inRequested (fun r => r.processRootNonce env sm.cfg sm.pog signer nonce)
    (sm.ignoredOnceDeposited .rootNonce)

def processRootSignature (signer : P2POperatorPubKey) (sig : PartialSignature) : ContractSM.Reply :=
  sm.inRequested (fun r => r.processRootSignature env sm.cfg sm.pog signer sig)
    (sm.ignoredOnceDeposited .rootSignature)

/-- `process_deposit_confirmation` (lines 1494–1554): the contract moves on with whatever graphs and
signatures it has, and drops its cache. -/
def processDepositConfirmation (tx : Transaction) : ContractSM.Reply :=
  if env.computeTxid tx ≠ sm.depositTxid env then
    .err sm (.wrongDeposit (env.computeTxid tx) (sm.depositTxid env))
  else
    match sm.state.state with
    | .requested r =>
      match r.intoGraphData with
      | .error msg => .panic msg
      | .ok graphs => .ok { sm.setState (.deposited graphs) with pog := ∅ } []
    | _ => sm.unexpected .depositConfirmation

/-! ### Blocks -/

/-- The duty of the fulfiller once a timelock is over, built from the signatures of the active graph
(lines 2323–2421). -/
def timelockDuty (graphSigs : BTreeMap Txid (PogMusigF TaprootSignature)) (fulfiller : OperatorIdx)
    (claim : Txid) (matures : BitcoinBlockHeight)
    (duty : PogMusigF TaprootSignature → FulfillerDuty) : ContractSM.Reply :=
  if sm.state.blockHeight ≥ matures && sm.isPov fulfiller then
    match graphSigs[claim]? with
    | none => .err sm (.graphSigsMissing claim)
    | some sigs => .ok sm [.fulfillerDuty (duty sigs)]
  else .ok sm []

def atNewHeight : ContractSM.Reply :=
  match sm.state.state with
  | .requested r =>
    if sm.state.blockHeight ≥ r.abortDeadline then .ok (sm.setState .aborted) [.abort]
    else .ok sm []
  | .claimed c =>
    sm.timelockDuty c.graphSigs c.fulfiller c.activeGraph.2.claimTxid
      (c.claimHeight + sm.cfg.connectorParams.payoutOptimisticTimelock) fun sigs =>
        .publishPayoutOptimistic (sm.depositTxid env) c.activeGraph.2.claimTxid
          c.activeGraph.2.stakeTxid sm.cfg.depositIdx sigs.payoutOptimistic
  | .challenged c =>
    sm.timelockDuty c.graphSigs c.fulfiller c.activeGraph.2.claimTxid
      (c.claimHeight + sm.cfg.connectorParams.preAssertTimelock) fun sigs =>
        .publishPreAssert sm.cfg.depositIdx (sm.depositTxid env) c.activeGraph.2.claimTxid
          sigs.preAssert
  | .asserted a =>
    sm.timelockDuty a.graphSigs a.fulfiller a.activeGraph.2.claimTxid
      (a.postAssertHeight + sm.cfg.connectorParams.payoutTimelock) fun sigs =>
        .publishPayout sm.cfg.depositIdx (sm.depositTxid env) a.activeGraph.2.postAssertTxid
          a.activeGraph.2.claimTxid a.activeGraph.1.stakeOutpoint.txid sigs.payout
  | .deposited _ | .assigned _ | .fulfilled _ | .preAssertConfirmed _ | .assertDataConfirmed _
  | .disproved | .resolved _ | .aborted => .ok sm []

def setHeight (height : BitcoinBlockHeight) : ContractSM :=
  { sm with state := { sm.state with blockHeight := height } }

/-- `notify_new_block` (lines 2285–2426): the height is recorded before the phase is looked at. -/
def notifyNewBlock (height : BitcoinBlockHeight) : ContractSM.Reply :=
  if sm.state.blockHeight + 1 = height then (sm.setHeight height).atNewHeight env
  else .err sm (.unexpectedBlock (sm.state.blockHeight + 1) height)

/-! ### Assignment -/

/-- The stub index that keeps an aborted contract from paying (`u32::MAX`). -/
def stubOperatorIdx : OperatorIdx := 2 ^ 32 - 1

def fulfillmentDuty (stakeTx : StakeTxKind) (operatorIdx : OperatorIdx) (recipient : Descriptor)
    (deadline : BitcoinBlockHeight) : OperatorDuty :=
  .fulfillerDuty (.handleFulfillment stakeTx
    { tag := sm.cfg.pegOutGraphParams.tag
      operatorIdx := operatorIdx
      depositIdx := sm.cfg.depositIdx
      depositTxid := sm.depositTxid env } recipient deadline)

/-- Assign the withdrawal to an operator whose graph is known, whatever the contract was assigned to
before (lines 2484–2530). -/
def assign (d : GraphData) (dispatched : DispatchedState) (assigneeKey : P2POperatorPubKey)
    (recipient : Descriptor) (withdrawalRequestTxid : Buf32) (stakeTx : StakeTxKind)
    (height : BitcoinBlockHeight) : ContractSM.Reply :=
  match d.claimTxids[assigneeKey]? with
  | none => .err sm (.assigneeClaimNotFound assigneeKey (sm.depositTxid env))
  | some claim =>
    match d.pegOutGraphs[claim]? with
    | none => .err sm (.assigneeGraphNotFound claim (sm.depositTxid env))
    | some activeGraph =>
      .ok (sm.setState (.assigned
          { d with
            fulfiller := dispatched.assignee
            recipient := recipient
            deadline := dispatched.execDeadline
            activeGraph := activeGraph
            withdrawalRequestTxid := withdrawalRequestTxid
            l1StartHeight := height }))
        [sm.fulfillmentDuty env stakeTx dispatched.assignee recipient dispatched.execDeadline]

/-- `process_assignment` (lines 2429–2590). -/
def processAssignment (entry : DepositEntry) (stakeTx : StakeTxKind)
    (height : BitcoinBlockHeight) : ContractSM.Reply :=
  if entry.idx ≠ sm.cfg.depositIdx then
    .err sm (.unexpectedAssignment entry.idx sm.cfg.depositIdx)
  else
    match entry.depositState with
    | .dispatched dispatched =>
      match sm.cfg.operatorTable.idxToP2pKey dispatched.assignee with
      | none => .err sm (.unknownAssignee dispatched.assignee)
      | some assigneeKey =>
        match dispatched.withdrawOutputs.head? with
        | none => .err sm (.noRecipient (sm.depositTxid env))
        | some output =>
          match entry.withdrawalRequestTxid with
          | none => .err sm (.noWithdrawalRequest (sm.depositTxid env))
          | some withdrawalRequestTxid =>
            match sm.state.state with
            | .deposited d =>
              sm.assign env d dispatched assigneeKey output.destination withdrawalRequestTxid
                stakeTx height
            | .assigned a =>
              sm.assign env a.toGraphData dispatched assigneeKey output.destination
                withdrawalRequestTxid stakeTx height
            | .aborted =>
              .ok sm [sm.fulfillmentDuty env stakeTx stubOperatorIdx output.destination
                dispatched.execDeadline]
            | _ => .ok sm []
    | _ => .err sm (.notDispatched entry)

/-! ### Transactions of the active graph -/

/-- `process_fulfillment_confirmation` (lines 2592–2665): a transaction that is not the fulfillment
is passed over. -/
def processFulfillmentConfirmation (height : BitcoinBlockHeight) (tx : Transaction) :
    ContractSM.Reply :=
  match sm.state.state with
  | .assigned a =>
    if isFulfillmentTx env sm.cfg.network sm.cfg.pegOutGraphParams a.fulfiller sm.cfg.depositIdx
        (sm.depositTxid env) a.recipient tx then
      .ok (sm.setState (.fulfilled
          { a.toGraphData with
            fulfiller := a.fulfiller
            activeGraph := a.activeGraph
            withdrawalRequestTxid := a.withdrawalRequestTxid
            withdrawalFulfillmentTxid := env.computeTxid tx
            withdrawalFulfillmentHeight := height
            l1StartHeight := a.l1StartHeight }))
        (if sm.isPov a.fulfiller then
          [.fulfillerDuty (.publishClaim (env.computeTxid tx) a.activeGraph.2.stakeTxid
            (sm.depositTxid env))]
        else [])
    else .ok sm []
  | _ => sm.unexpected .fulfillmentConfirmation

/-- `process_claim_confirmation` (lines 2667–2727). -/
def processClaimConfirmation (height : BitcoinBlockHeight) (tx : Transaction) : ContractSM.Reply :=
  match sm.state.state with
  | .fulfilled f =>
    if env.computeTxid tx ≠ f.activeGraph.2.claimTxid then sm.invalidTx env .claimConfirmation tx
    else
      match ClaimTx.parseWitness tx with
      | .panic msg => .panic msg
      | .err _ e => .err sm (.claimWitness e)
      | .ok _ commitment =>
        .ok (sm.setState (.claimed
            { f.toGraphData with
              claimHeight := height
              fulfiller := f.fulfiller
              activeGraph := f.activeGraph
              withdrawalRequestTxid := f.withdrawalRequestTxid
              withdrawalFulfillmentTxid := f.withdrawalFulfillmentTxid
              withdrawalFulfillmentCommitment := commitment
              l1StartHeight := f.l1StartHeight }))
          (if sm.isPov f.fulfiller then [] else [.verifierDuty .verifyClaim])
  | _ => sm.unexpected .claimConfirmation

def processClaimVerificationFailure : ContractSM.Reply :=
  match sm.state.state with
  | .claimed _ => .ok sm [.verifierDuty .publishChallenge]
  | _ => sm.unexpected .claimVerificationFailure

/-- `process_challenge_confirmation` (lines 2745–2795). -/
def processChallengeConfirmation (tx : Transaction) : ContractSM.Reply :=
  match sm.state.state with
  | .claimed c =>
    if isChallenge c.activeGraph.2.claimTxid tx then .ok (sm.setState (.challenged c)) []
    else sm.invalidTx env .challengeConfirmation tx
  | _ => sm.unexpected .challengeConfirmation

/-- Confirm the pre-assert of a claim, challenged or not (lines 2797–2880): the fulfiller goes on
with the scripts of its first outputs. -/
def confirmPreAssert (c : Claimed) (tx : Transaction) : ContractSM.Reply :=
  if env.computeTxid tx ≠ c.activeGraph.2.preAssertTxid then
    sm.invalidTx env .preAssertConfirmation tx
  else
    let sm' := sm.setState (.preAssertConfirmed { c with signedAssertDataTxs := ∅ })
    if sm.isPov c.fulfiller then
      match Wots.sized numAssertDataTx
        ((tx.output.map TxOut.scriptPubkey).take numAssertDataTx) with
      | none => .panic "pre-assert tx must have the right number of outputs"
      | some scripts =>
        .ok sm' [.fulfillerDuty (.publishAssertData c.withdrawalFulfillmentTxid c.l1StartHeight
          sm.cfg.depositIdx (sm.depositTxid env) (env.computeTxid tx) scripts)]
    else .ok sm' []

def processPreAssertConfirmation (tx : Transaction) : ContractSM.Reply :=
  match sm.state.state with
  | .challenged c => sm.confirmPreAssert env c tx
  | .claimed c => sm.confirmPreAssert env c tx
  | _ => sm.unexpected .preAssertConfirmation

/-- What follows once an assert-data transaction is entered: the last missing one ends the
collection (lines 2903–2944). -/
def afterCollecting (p : PreAssertConfirmed) : ContractSM.Reply :=
  if p.signedAssertDataTxs.size < numAssertDataTx then
    .ok (sm.setState (.preAssertConfirmed p)) []
  else if sm.isPov p.fulfiller then
    match p.graphSigs[p.activeGraph.2.claimTxid]? with
    | none =>
      .err (sm.setState (.preAssertConfirmed p)) (.graphSigsMissing p.activeGraph.2.claimTxid)
    | some sigs =>
      .ok (sm.setState (.assertDataConfirmed p.assertDataConfirmed))
        [.fulfillerDuty (.publishPostAssertData (sm.depositTxid env)
          p.activeGraph.2.assertDataTxids sigs.postAssert)]
  else .ok (sm.setState (.assertDataConfirmed p.assertDataConfirmed)) []

/-- `process_assert_data_confirmation` (lines 2882–2957): the transaction is entered before anything
else is looked at. -/
def processAssertDataConfirmation (tx : Transaction) : ContractSM.Reply :=
  match sm.state.state with
  | .preAssertConfirmed p =>
    if env.computeTxid tx ∈ p.activeGraph.2.assertDataTxids then
      sm.afterCollecting env (p.collect (env.computeTxid tx) tx)
    else sm.invalidTx env .assertDataConfirmation tx
  | _ => sm.unexpected .assertDataConfirmation

def assertDataTxs (txids : List Txid) (signed : BTreeMap Txid Transaction) :
    Except Txid (List Transaction) :=
  txids.mapM fun txid =>
    match signed[txid]? with
    | none => Except.error txid
    | some tx => Except.ok tx

/-- `process_post_assert_confirmation` (lines 2959–3036). -/
def processPostAssertConfirmation (tx : Transaction) (height : BitcoinBlockHeight) :
    ContractSM.Reply :=
  match sm.state.state with
  | .assertDataConfirmed a =>
    if a.signedAssertDataTxs.size ≠ numAssertDataTx then sm.unexpected .postAssertConfirmation
    else if env.computeTxid tx ≠ a.activeGraph.2.postAssertTxid then
      sm.invalidTx env .postAssertConfirmation tx
    else
      match assertDataTxs a.activeGraph.2.assertDataTxids.toList a.signedAssertDataTxs with
      | .error txid => .err sm (.assertDataNotFound txid (sm.depositTxid env))
      | .ok txs =>
        match env.parseWitnesses txs with
        | .error e => .err sm (.assertDataWitness e)
        | .ok proofCommitment =>
          .ok (sm.setState (.asserted
              { a.toGraphData with
                fulfiller := a.fulfiller
                activeGraph := a.activeGraph
                withdrawalRequestTxid := a.withdrawalRequestTxid
                postAssertHeight := height
                withdrawalFulfillmentTxid := a.withdrawalFulfillmentTxid
                withdrawalFulfillmentCommitment := a.withdrawalFulfillmentCommitment
                proofCommitment := proofCommitment }))
            (if sm.isPov a.fulfiller then [.verifierDuty .verifyAssertion] else [])
  | _ => sm.unexpected .postAssertConfirmation

def processAssertionVerificationFailure : ContractSM.Reply :=
  match sm.state.state with
  | .asserted _ => .ok sm [.verifierDuty .publishDisprove]
  | _ => sm.unexpected .assertVerificationFailure

def processDisproveConfirmation (tx : Transaction) : ContractSM.Reply :=
  match sm.state.state with
  | .asserted a =>
    if isDisprove a.activeGraph.2.postAssertTxid tx then .ok (sm.setState .disproved) []
    else sm.invalidTx env .disproveConfirmation tx
  | _ => sm.unexpected .disproveConfirmation

def processOptimisticPayoutConfirmation (tx : Transaction) : ContractSM.Reply :=
  match sm.state.state with
  | .claimed c =>
    if env.computeTxid tx ≠ c.activeGraph.2.payoutOptimisticTxid then
      sm.invalidTx env .optimisticPayoutConfirmation tx
    else
      .ok (sm.setState (.resolved
        { claimTxid := c.activeGraph.2.claimTxid
          withdrawalRequestTxid := c.withdrawalRequestTxid
          withdrawalFulfillmentTxid := c.withdrawalFulfillmentTxid
          payoutTxid := env.computeTxid tx
          path := .optimistic })) []
  | _ => sm.unexpected .optimisticPayoutConfirmation

def processDefendedPayoutConfirmation (tx : Transaction) : ContractSM.Reply :=
  match sm.state.state with
  | .asserted a =>
    if env.computeTxid tx ≠ a.activeGraph.2.payoutTxid then
      sm.invalidTx env .defendedPayoutConfirmation tx
    else
      .ok (sm.setState (.resolved
        { claimTxid := a.activeGraph.2.claimTxid
          withdrawalRequestTxid := a.withdrawalRequestTxid
          withdrawalFulfillmentTxid := a.withdrawalFulfillmentTxid
          payoutTxid := env.computeTxid tx
          path := .contested })) []
  | _ => sm.unexpected .defendedPayoutConfirmation

/-- `process_peg_out_graph_tx_confirmation` (lines 1557–1616). -/
def processPegOutGraphTxConfirmation (height : BitcoinBlockHeight) (tx : Transaction) :
    ContractSM.Reply :=
  match sm.state.state with
  | .requested _ | .deposited _ | .disproved | .resolved _ | .aborted =>
    sm.unexpected .pegOutGraphTxConfirmation
  | .assigned _ => sm.processFulfillmentConfirmation env height tx
  | .fulfilled _ => sm.processClaimConfirmation env height tx
  | .claimed _ =>
    (sm.processChallengeConfirmation env tx).orElse fun sm =>
      (sm.processOptimisticPayoutConfirmation env tx).orElse fun sm =>
        sm.processPreAssertConfirmation env tx
  | .challenged _ => sm.processPreAssertConfirmation env tx
  | .preAssertConfirmed _ => sm.processAssertDataConfirmation env tx
  | .assertDataConfirmed _ => sm.processPostAssertConfirmation env tx height
  | .asserted _ =>
    (sm.processDisproveConfirmation env tx).orElse fun sm =>
      sm.processDefendedPayoutConfirmation env tx

/-! ### Events -/

/-- `ContractSM::process_contract_event` (lines 1408–1481). -/
def processContractEvent : ContractEvent → ContractSM.Reply
  | .depositSetup signer operatorPubkey stakeHash stakeTxid wotsKeys =>
    sm.processDepositSetup env signer operatorPubkey stakeHash stakeTxid wotsKeys
  | .graphNonces signer claim nonces => sm.processGraphNonces env signer claim nonces
  | .graphSigs signer claim signatures => sm.processGraphSignatures env signer claim signatures
  | .aggregatedSigs sigs => sm.processAggregateSigs sigs
  | .rootNonce op nonce => sm.processRootNonce env op nonce
  | .rootSig op sig => sm.processRootSignature env op sig
  | .assignment entry stakeTx height => sm.processAssignment env entry stakeTx height
  | .depositConfirmation tx => sm.processDepositConfirmation env tx
  | .pegOutGraphConfirmation tx height => sm.processPegOutGraphTxConfirmation env height tx
  | .block height => sm.notifyNewBlock env height
  | .claimFailure => sm.processClaimVerificationFailure
  | .assertionFailure => sm.processAssertionVerificationFailure

def step (ev : ContractEvent) : Option (ContractSM × List OperatorDuty) :=
  (sm.processContractEvent env ev).next

/-! ### Which transactions a contract wants -/

def inGraph (g : PegOutGraphSummary) (tx : Transaction) : Bool :=
  sm.depositTxid env = env.computeTxid tx ||
  g.claimTxid = env.computeTxid tx ||
  g.payoutOptimisticTxid = env.computeTxid tx ||
  g.preAssertTxid = env.computeTxid tx ||
  g.assertDataTxids.contains (env.computeTxid tx) ||
  g.postAssertTxid = env.computeTxid tx ||
  g.payoutTxid = env.computeTxid tx ||
  isChallenge g.claimTxid tx ||
  isDisprove g.postAssertTxid tx

def isAnyFulfillment (tx : Transaction) : Bool :=
  match sm.state.state with
  | .assigned a => sm.cfg.operatorTable.operatorIdxs.any fun i =>
      isFulfillmentTx env sm.cfg.network sm.cfg.pegOutGraphParams i sm.cfg.depositIdx
        (sm.depositTxid env) a.recipient tx
  | _ => false

/-- `ContractSM::transaction_filter` (lines 1353–1386). -/
def transactionFilter (tx : Transaction) : Bool :=
  sm.isAnyFulfillment env tx || sm.state.state.summaries.any fun g => sm.inGraph env g tx

end Handlers

end ContractSM

end StrataBridge
