import StrataBridge.DutyTracker.ContractSM

/-!
# What a contract answers

`ContractSM.Reaction` lists the answers of a contract to an event, one case for every branch of
the handlers that leads to another state or to a duty. Everything that is said later about all
events of a contract goes by the cases of this relation.
-/

namespace StrataBridge

open Rust BTreeMap

/-! ### Withdrawals -/

structure Withdrawal extends GraphData where
  fulfiller : OperatorIdx
  activeGraph : ActiveGraph
  withdrawalRequestTxid : Buf32

def ContractState.withdrawal : ContractState → Option Withdrawal
  | .assigned a => some ⟨a.toGraphData, a.fulfiller, a.activeGraph, a.withdrawalRequestTxid⟩
  | .fulfilled f => some ⟨f.toGraphData, f.fulfiller, f.activeGraph, f.withdrawalRequestTxid⟩
  | .claimed c => some ⟨c.toGraphData, c.fulfiller, c.activeGraph, c.withdrawalRequestTxid⟩
  | .challenged c => some ⟨c.toGraphData, c.fulfiller, c.activeGraph, c.withdrawalRequestTxid⟩
  | .preAssertConfirmed p =>
    some ⟨p.toGraphData, p.fulfiller, p.activeGraph, p.withdrawalRequestTxid⟩
  | .assertDataConfirmed a =>
    some ⟨a.toGraphData, a.fulfiller, a.activeGraph, a.withdrawalRequestTxid⟩
  | .asserted a => some ⟨a.toGraphData, a.fulfiller, a.activeGraph, a.withdrawalRequestTxid⟩
  | .requested _ | .deposited _ | .disproved | .resolved _ | .aborted => none

/-! ### The requested phase -/

namespace Requested

def process (env : Env) (cfg : ContractCfg) (r : Requested)
    (pog : PogCache) : ContractEvent → Option Requested.Reply
  | .depositSetup signer operatorPubkey stakeHash stakeTxid wotsKeys =>
    some (r.processDepositSetup env cfg pog signer operatorPubkey stakeHash stakeTxid wotsKeys)
  | .graphNonces signer claim nonces => some (r.processGraphNonces env cfg pog signer claim nonces)
  | .graphSigs signer claim signatures => some <|
    match PogMusigF.unpack signatures with
    | none => .err (r, pog) .unpackSigs
    | some partials => r.processGraphSignatures env cfg pog signer claim partials
  | .aggregatedSigs sigs => some (r.processAggregateSigs cfg pog sigs)
  | .rootNonce op nonce => some (r.processRootNonce env cfg pog op nonce)
  | .rootSig op sig => some (r.processRootSignature env cfg pog op sig)
  | _ => none

abbrev sumNonces (r : Requested) : Requested :=
  { r with aggNonces := aggregateNonces r.graphNonces }

def PartialsPass (env : Env) (cfg : ContractCfg) (r : Requested) (pog : PogCache)
    (signer : P2POperatorPubKey) (claim : Txid) (partials : PogMusigF PartialSignature) : Prop :=
  ∃ owner input, ContractState.firstOwner r.claimTxids claim = some owner ∧
    r.pegOutGraphInputs[owner]? = some input ∧
    verifyPartialsFromPeer env cfg signer claim (cfg.cachedGraph env pog input) r.graphNonces
      r.aggNonces partials = .ok () true

structure EntersRootPartial (env : Env) (cfg : ContractCfg) (r : Requested)
    (op : P2POperatorPubKey) (sig : PartialSignature) : Prop where
  new : op ∉ r.rootPartials
  checked : ∃ ctx pubkey nonce,
    env.createAggCtx cfg.operatorTable.btcKeys (cfg.depositTx.tx.witnesses.get 0) = some ctx ∧
    cfg.operatorTable.p2pKeyToBtcKey op = some pubkey ∧ r.rootNonces[op]? = some nonce ∧
    env.verifyPartial ctx sig (AggNonce.sum (vals r.rootNonces)) pubkey nonce
      (depositSighash env cfg) = true

section

variable (env : Env) (cfg : ContractCfg) (r : Requested) (pog : PogCache)

/-- The answers of the handlers of the requested phase to an event, each with what led to it. -/
inductive Reaction : ContractEvent → Requested.Reply → Prop
  | rejects {ev e} : Reaction ev (.err (r, pog) e)
  | passes {ev} : Reaction ev (.ok (r, pog) [])
  | announces {signer operatorPubkey stakeHash stakeTxid wotsKeys r'}
      (hr' : r' = r.upsertInput signer operatorPubkey stakeHash stakeTxid wotsKeys)
      (hsize : r'.pegOutGraphInputs.size ≠ cfg.operatorTable.cardinality) :
      Reaction (.depositSetup signer operatorPubkey stakeHash stakeTxid wotsKeys) (.ok (r', pog) [])
  | generates {signer operatorPubkey stakeHash stakeTxid wotsKeys r'}
      (hr' : r' = r.upsertInput signer operatorPubkey stakeHash stakeTxid wotsKeys)
      (hsize : r'.pegOutGraphInputs.size = cfg.operatorTable.cardinality) :
      Reaction (.depositSetup signer operatorPubkey stakeHash stakeTxid wotsKeys)
        (.ok ((r'.allGraphs env cfg pog).1.foldl (insertGraph env) r', (r'.allGraphs env cfg pog).2)
          ((r'.allGraphs env cfg pog).1.map fun e => nonceDuty env e.2))
  | nonces {signer claim nonces session unpacked}
      (hsession : r.graphNonces[claim]? = some session) (hnew : signer ∉ session) :
      Reaction (.graphNonces signer claim nonces)
        (.ok (r.insertNonces claim session signer unpacked, pog) [])
  | lastNonces {signer claim nonces session unpacked r' duties pog'}
      (hsession : r.graphNonces[claim]? = some session) (hnew : signer ∉ session)
      (hr' : r' = r.insertNonces claim session signer unpacked)
      (hall : haveAll cfg.operatorTable.cardinality (vals r'.claimTxids) r'.graphNonces)
      (hduties : signatureDuties env cfg r'.sumNonces pog (vals r'.claimTxids) =
        (.ok duties, pog')) :
      Reaction (.graphNonces signer claim nonces) (.ok (r'.sumNonces, pog') duties)
  | noncesFail {signer claim nonces session unpacked r' e pog'}
      (hsession : r.graphNonces[claim]? = some session) (hnew : signer ∉ session)
      (hr' : r' = r.insertNonces claim session signer unpacked)
      (hall : haveAll cfg.operatorTable.cardinality (vals r'.claimTxids) r'.graphNonces)
      (hduties : signatureDuties env cfg r'.sumNonces pog (vals r'.claimTxids) = (.error e, pog')) :
      Reaction (.graphNonces signer claim nonces) (.err (r'.sumNonces, pog') e)
  | partials {signer claim signatures partials session}
      (hsession : r.graphPartials[claim]? = some session) (hnew : signer ∉ session)
      (hpass : r.PartialsPass env cfg pog signer claim partials) :
      Reaction (.graphSigs signer claim signatures)
        (.ok (r.insertPartials claim session signer partials, pog) [])
  | lastPartials {signer claim signatures partials session r' graphSigs}
      (hsession : r.graphPartials[claim]? = some session) (hnew : signer ∉ session)
      (hpass : r.PartialsPass env cfg pog signer claim partials)
      (hr' : r' = r.insertPartials claim session signer partials)
      (hall : haveAll cfg.operatorTable.cardinality (vals r'.claimTxids) r'.graphPartials)
      (hunpack : PogMusigF.unpack signatures = some partials) :
      Reaction (.graphSigs signer claim signatures)
        (.ok ({ r' with graphSigs }, pog) [r'.rootNonceDuty cfg])
  | partialsPanic {signer claim signatures msg} :
      Reaction (.graphSigs signer claim signatures) (.panic msg)
  | aggregated {sigs} : Reaction (.aggregatedSigs sigs)
      (.ok ({ r with graphSigs := sigs }, pog) [r.rootNonceDuty cfg])
  | rootNonce {op nonce} (hnew : op ∉ r.rootNonces) :
      Reaction (.rootNonce op nonce)
        (.ok ({ r with rootNonces := r.rootNonces.insert op nonce }, pog) [])
  | lastRootNonce {op nonce rootNonces} (hnew : op ∉ r.rootNonces)
      (hins : rootNonces = r.rootNonces.insert op nonce)
      (hall : rootNonces.size = cfg.operatorTable.cardinality) :
      Reaction (.rootNonce op nonce)
        (.ok ({ r with rootNonces }, pog) [.publishRootSignature cfg.depositRequestTxid
          (AggNonce.sum (inIndexOrder cfg.operatorTable rootNonces)) (depositSighash env cfg)
          (cfg.depositTx.tx.witnesses.get 0) none])
  | rootPanics {op sig msg}
      (hctx : env.createAggCtx cfg.operatorTable.btcKeys (cfg.depositTx.tx.witnesses.get 0) =
        none) : Reaction (.rootSig op sig) (.panic msg)
  | rootPartial {op sig} (hentered : r.EntersRootPartial env cfg op sig) :
      Reaction (.rootSig op sig)
        (.ok ({ r with rootPartials := r.rootPartials.insert op sig }, pog) [])
  | lastRootPartial {op sig rootPartials} (hentered : r.EntersRootPartial env cfg op sig)
      (hins : rootPartials = r.rootPartials.insert op sig)
      (hall : rootPartials.size = cfg.operatorTable.cardinality) :
      Reaction (.rootSig op sig)
        (.ok ({ r with rootPartials }, pog) [.publishDeposit cfg.depositTx
          (inIndexOrder cfg.operatorTable rootPartials)
          (AggNonce.sum (vals r.rootNonces))])

end

variable {env : Env} {cfg : ContractCfg} {r : Requested} {pog : PogCache}

private theorem processGraphNonces_reaction (signer : P2POperatorPubKey) (claim : Txid)
    (nonces : List PubNonce) : r.Reaction env cfg pog (.graphNonces signer claim nonces)
      (r.processGraphNonces env cfg pog signer claim nonces) := by
  rw [processGraphNonces]
  split
  · exact .rejects
  split
  · exact .rejects
  next session hsession =>
  split
  · exact .passes
  next hnew =>
  dsimp only
  split
  next hall =>
    split
    next hduties => exact .lastNonces hsession hnew rfl hall hduties
    next hduties => exact .noncesFail hsession hnew rfl hall hduties
  · exact .nonces hsession hnew

private theorem processGraphSignatures_reaction {signatures : List PartialSignature}
    {partials : PogMusigF PartialSignature} (hunpack : PogMusigF.unpack signatures = some partials)
    (signer : P2POperatorPubKey) (claim : Txid) :
    r.Reaction env cfg pog (.graphSigs signer claim signatures)
      (r.processGraphSignatures env cfg pog signer claim partials) := by
  rw [processGraphSignatures]
  split
  · exact .rejects
  next session hsession =>
  split
  · exact .passes
  next hnew =>
  split
  · exact .rejects
  next owner howner =>
  split
  · exact .rejects
  next input hinput =>
  split
  · exact .partialsPanic
  · exact .rejects
  · exact .passes
  next hpass =>
    have hpass : r.PartialsPass env cfg pog signer claim partials :=
      ⟨owner, input, howner, hinput, hpass⟩
    rw [finishGraphSignatures]
    split
    next hall =>
      split
      · exact .partialsPanic
      · exact .lastPartials hsession hnew hpass rfl hall hunpack
    · exact .partials hsession hnew hpass

private theorem processRootSignature_reaction (op : P2POperatorPubKey) (sig : PartialSignature) :
    r.Reaction env cfg pog (.rootSig op sig) (r.processRootSignature env cfg pog op sig) := by
  rw [processRootSignature]
  split
  · exact .passes
  next hnew =>
  dsimp only
  split
  next hctx => exact .rootPanics hctx
  next ctx hctx =>
  split
  · exact .rejects
  next pubkey hkey =>
  split
  · exact .rejects
  next nonce hnonce =>
  split
  next hvalid =>
    have hentered : r.EntersRootPartial env cfg op sig :=
      ⟨hnew, ctx, pubkey, nonce, hctx, hkey, hnonce, hvalid⟩
    split
    next hall => exact .lastRootPartial hentered rfl hall
    next => exact .rootPartial hentered
  · exact .passes

/-- **The handlers of the requested phase answer as the relation says.** -/
theorem reaction {ev : ContractEvent} {o : Requested.Reply}
    (ho : r.process env cfg pog ev = some o) : r.Reaction env cfg pog ev o := by
  cases ev with
  | depositSetup =>
    cases ho
    rw [processDepositSetup]
    split
    next hsize => exact .announces rfl hsize
    next hsize => exact .generates rfl (not_not.mp hsize)
  | graphNonces signer claim nonces =>
    cases ho
    exact processGraphNonces_reaction signer claim nonces
  | graphSigs signer claim signatures =>
    cases ho
    split
    · exact .rejects
    next hunpack => exact processGraphSignatures_reaction hunpack signer claim
  | aggregatedSigs sigs =>
    cases ho
    exact .aggregated
  | rootNonce op nonce =>
    cases ho
    rw [processRootNonce]
    split
    · exact .passes
    next hnew =>
    dsimp only
    split
    next hall => exact .lastRootNonce hnew rfl hall
    next => exact .rootNonce hnew
  | rootSig op sig =>
    cases ho
    exact processRootSignature_reaction op sig
  | _ => cases ho

end Requested

namespace ContractSM

/-- At a new height a timelock is over, the operator is the fulfiller, and the signatures of its
graph are not there. -/
def SignaturesMissing (sm : ContractSM) (graphSigs : BTreeMap Txid (PogMusigF TaprootSignature))
    (fulfiller : OperatorIdx) (claim : Txid) (matures height : BitcoinBlockHeight) : Prop :=
  height = sm.state.blockHeight + 1 ∧ matures ≤ height ∧ sm.isPov fulfiller ∧ claim ∉ graphSigs

/-- The events that are rejected after a write: a block that ends a timelock, and the last
missing assert-data transaction, when the signatures of the operator's own graph are not
there. -/
def RejectsLate (env : Env) (sm : ContractSM) : ContractEvent → Prop
  | .block height =>
    match sm.state.state with
    | .claimed c => sm.SignaturesMissing c.graphSigs c.fulfiller c.activeGraph.2.claimTxid
        (c.claimHeight + sm.cfg.connectorParams.payoutOptimisticTimelock) height
    | .challenged c => sm.SignaturesMissing c.graphSigs c.fulfiller c.activeGraph.2.claimTxid
        (c.claimHeight + sm.cfg.connectorParams.preAssertTimelock) height
    | .asserted a => sm.SignaturesMissing a.graphSigs a.fulfiller a.activeGraph.2.claimTxid
        (a.postAssertHeight + sm.cfg.connectorParams.payoutTimelock) height
    | _ => False
  | .pegOutGraphConfirmation tx _ =>
    match sm.state.state with
    | .preAssertConfirmed p =>
      env.computeTxid tx ∈ p.activeGraph.2.assertDataTxids ∧
        numAssertDataTx ≤ (p.collect (env.computeTxid tx) tx).signedAssertDataTxs.size ∧
        sm.isPov p.fulfiller ∧ p.activeGraph.2.claimTxid ∉ p.graphSigs ∧
        p.signedAssertDataTxs[env.computeTxid tx]? ≠ some tx
    | _ => False
  | _ => False

/-! ### Answers -/

section Handlers

variable (env : Env) (sm : ContractSM)

/-- The answers of a contract to an event, each with what led to it. -/
inductive Reaction : ContractEvent → ContractSM.Reply → Prop
  | rejects {ev e} (hev : ∀ height, ev ≠ .block height) : Reaction ev (.err sm e)
  | passes {ev} (hev : ev.isSigning = true) : Reaction ev (.ok sm [])
  -- the requested phase
  | requested {ev r o} (hs : sm.state.state = .requested r)
      (ho : r.process env sm.cfg sm.pog ev = some o) : Reaction ev (o.embed sm.putRequested id)
  | deposits {tx r d} (hs : sm.state.state = .requested r) (hd : r.intoGraphData = .ok d) :
      Reaction (.depositConfirmation tx) (.ok { sm.setState (.deposited d) with pog := ∅ } [])
  | depositPanics {tx r msg} (hs : sm.state.state = .requested r)
      (hd : r.intoGraphData = .error msg) : Reaction (.depositConfirmation tx) (.panic msg)
  -- blocks
  | rejectsBlock {height} (hheight : sm.state.blockHeight + 1 ≠ height) :
      Reaction (.block height) (.err sm (.unexpectedBlock (sm.state.blockHeight + 1) height))
  | takes {height} (hheight : sm.state.blockHeight + 1 = height) :
      Reaction (.block height) (.ok (sm.setHeight height) [])
  | takesLate {height claim} (hheight : sm.state.blockHeight + 1 = height)
      (hlate : sm.RejectsLate env (.block height)) :
      Reaction (.block height) (.err (sm.setHeight height) (.graphSigsMissing claim))
  | aborts {height r} (hheight : sm.state.blockHeight + 1 = height)
      (hs : sm.state.state = .requested r) (hdue : r.abortDeadline ≤ height) :
      Reaction (.block height) (.ok ((sm.setHeight height).setState .aborted) [.abort])
  | claimMatures {height c} {sigs : PogMusigF TaprootSignature}
      (hheight : sm.state.blockHeight + 1 = height) (hs : sm.state.state = .claimed c)
      (hdue : c.claimHeight + sm.cfg.connectorParams.payoutOptimisticTimelock ≤ height)
      (hpov : sm.isPov c.fulfiller = true) :
      Reaction (.block height) (.ok (sm.setHeight height)
        [.fulfillerDuty (.publishPayoutOptimistic (sm.depositTxid env) c.activeGraph.2.claimTxid
          c.activeGraph.2.stakeTxid sm.cfg.depositIdx sigs.payoutOptimistic)])
  | challengeMatures {height c} {sigs : PogMusigF TaprootSignature}
      (hheight : sm.state.blockHeight + 1 = height) (hs : sm.state.state = .challenged c)
      (hdue : c.claimHeight + sm.cfg.connectorParams.preAssertTimelock ≤ height)
      (hpov : sm.isPov c.fulfiller = true) :
      Reaction (.block height) (.ok (sm.setHeight height)
        [.fulfillerDuty (.publishPreAssert sm.cfg.depositIdx (sm.depositTxid env)
          c.activeGraph.2.claimTxid sigs.preAssert)])
  | assertionMatures {height a} {sigs : PogMusigF TaprootSignature}
      (hheight : sm.state.blockHeight + 1 = height) (hs : sm.state.state = .asserted a)
      (hdue : a.postAssertHeight + sm.cfg.connectorParams.payoutTimelock ≤ height)
      (hpov : sm.isPov a.fulfiller = true) :
      Reaction (.block height) (.ok (sm.setHeight height)
        [.fulfillerDuty (.publishPayout sm.cfg.depositIdx (sm.depositTxid env)
          a.activeGraph.2.postAssertTxid a.activeGraph.2.claimTxid
          a.activeGraph.1.stakeOutpoint.txid sigs.payout)])
  -- assignments
  | passesAssignment {entry stakeTx height} (hd : ∀ d, sm.state.state ≠ .deposited d)
      (ha : ∀ a, sm.state.state ≠ .assigned a) (hs : sm.state.state ≠ .aborted) :
      Reaction (.assignment entry stakeTx height) (.ok sm [])
  | assigns {entry stakeTx height dispatched key claim} {d : GraphData} {a : Assigned}
      (hs : sm.state.state = .deposited d ∨
        ∃ a' : Assigned, sm.state.state = .assigned a' ∧ a'.toGraphData = d)
      (hentry : entry.depositState = .dispatched dispatched)
      (hkey : sm.cfg.operatorTable.idxToP2pKey dispatched.assignee = some key)
      (hclaim : d.claimTxids[key]? = some claim)
      (hgraph : d.pegOutGraphs[claim]? = some a.activeGraph) (hdata : a.toGraphData = d)
      (hfulfiller : a.fulfiller = dispatched.assignee)
      (hdeadline : a.deadline = dispatched.execDeadline) :
      Reaction (.assignment entry stakeTx height) (.ok (sm.setState (.assigned a))
        [sm.fulfillmentDuty env stakeTx dispatched.assignee a.recipient dispatched.execDeadline])
  | assignsStub {entry stakeTx height dispatched recipient} (hs : sm.state.state = .aborted)
      (hentry : entry.depositState = .dispatched dispatched) :
      Reaction (.assignment entry stakeTx height)
        (.ok sm [sm.fulfillmentDuty env stakeTx stubOperatorIdx recipient dispatched.execDeadline])
  -- confirmations
  | confirmationPanics {tx height msg w} (hw : sm.state.state.withdrawal = some w) :
      Reaction (.pegOutGraphConfirmation tx height) (.panic msg)
  | passesPayment {tx height a} (hs : sm.state.state = .assigned a) :
      Reaction (.pegOutGraphConfirmation tx height) (.ok sm [])
  | fulfills {tx height a f} (hs : sm.state.state = .assigned a)
      (htx : isFulfillmentTx env sm.cfg.network sm.cfg.pegOutGraphParams a.fulfiller
        sm.cfg.depositIdx (sm.depositTxid env) a.recipient tx = true)
      (hw : (ContractState.fulfilled f).withdrawal = (ContractState.assigned a).withdrawal) :
      Reaction (.pegOutGraphConfirmation tx height) (.ok (sm.setState (.fulfilled f))
        (if sm.isPov a.fulfiller then
          [.fulfillerDuty (.publishClaim (env.computeTxid tx) a.activeGraph.2.stakeTxid
            (sm.depositTxid env))]
        else []))
  | claims {tx height f c} (hs : sm.state.state = .fulfilled f)
      (htx : env.computeTxid tx = f.activeGraph.2.claimTxid)
      (hw : (ContractState.claimed c).withdrawal = (ContractState.fulfilled f).withdrawal)
      (hf : c.withdrawalFulfillmentTxid = f.withdrawalFulfillmentTxid)
      (hheight : c.claimHeight = height) :
      Reaction (.pegOutGraphConfirmation tx height) (.ok (sm.setState (.claimed c))
        (if sm.isPov f.fulfiller then [] else [.verifierDuty .verifyClaim]))
  | challenges {tx height c} (hs : sm.state.state = .claimed c)
      (htx : isChallenge c.activeGraph.2.claimTxid tx = true) :
      Reaction (.pegOutGraphConfirmation tx height) (.ok (sm.setState (.challenged c)) [])
  | preAsserts {tx height ds} {c : Claimed}
      (hs : sm.state.state = .claimed c ∨ sm.state.state = .challenged c)
      (htx : env.computeTxid tx = c.activeGraph.2.preAssertTxid)
      (hds : ds = [] ∨ sm.isPov c.fulfiller = true ∧ ∃ scripts,
        ds = [.fulfillerDuty (.publishAssertData c.withdrawalFulfillmentTxid c.l1StartHeight
          sm.cfg.depositIdx (sm.depositTxid env) (env.computeTxid tx) scripts)]) :
      Reaction (.pegOutGraphConfirmation tx height)
        (.ok (sm.setState (.preAssertConfirmed { c with signedAssertDataTxs := ∅ })) ds)
  | collects {tx height p} (hs : sm.state.state = .preAssertConfirmed p)
      (htx : env.computeTxid tx ∈ p.activeGraph.2.assertDataTxids)
      (hsize : (p.collect (env.computeTxid tx) tx).signedAssertDataTxs.size < numAssertDataTx) :
      Reaction (.pegOutGraphConfirmation tx height)
        (.ok (sm.setState (.preAssertConfirmed (p.collect (env.computeTxid tx) tx))) [])
  | collectsLate {tx height p} (hs : sm.state.state = .preAssertConfirmed p)
      (htx : env.computeTxid tx ∈ p.activeGraph.2.assertDataTxids)
      (hsize : numAssertDataTx ≤ (p.collect (env.computeTxid tx) tx).signedAssertDataTxs.size)
      (hpov : sm.isPov p.fulfiller = true) (hsigs : p.activeGraph.2.claimTxid ∉ p.graphSigs) :
      Reaction (.pegOutGraphConfirmation tx height)
        (.err (sm.setState (.preAssertConfirmed (p.collect (env.computeTxid tx) tx)))
          (.graphSigsMissing p.activeGraph.2.claimTxid))
  | collectsLast {tx height p ds} (hs : sm.state.state = .preAssertConfirmed p)
      (htx : env.computeTxid tx ∈ p.activeGraph.2.assertDataTxids)
      (hsize : numAssertDataTx ≤ (p.collect (env.computeTxid tx) tx).signedAssertDataTxs.size)
      (hds : sm.isPov p.fulfiller = false ∧ ds = [] ∨
        sm.isPov p.fulfiller = true ∧ ∃ sigs : PogMusigF TaprootSignature,
          p.graphSigs[p.activeGraph.2.claimTxid]? = some sigs ∧
          ds = [.fulfillerDuty (.publishPostAssertData (sm.depositTxid env)
            p.activeGraph.2.assertDataTxids sigs.postAssert)]) :
      Reaction (.pegOutGraphConfirmation tx height)
        (.ok (sm.setState (.assertDataConfirmed
          (p.collect (env.computeTxid tx) tx).assertDataConfirmed)) ds)
  | postAsserts {tx height a a'} (hs : sm.state.state = .assertDataConfirmed a)
      (htx : env.computeTxid tx = a.activeGraph.2.postAssertTxid)
      (hw : (ContractState.asserted a').withdrawal =
        (ContractState.assertDataConfirmed a).withdrawal)
      (hf : a'.withdrawalFulfillmentTxid = a.withdrawalFulfillmentTxid)
      (hheight : a'.postAssertHeight = height) :
      Reaction (.pegOutGraphConfirmation tx height) (.ok (sm.setState (.asserted a'))
        (if sm.isPov a.fulfiller then [.verifierDuty .verifyAssertion] else []))
  | disproves {tx height a} (hs : sm.state.state = .asserted a)
      (htx : isDisprove a.activeGraph.2.postAssertTxid tx = true) :
      Reaction (.pegOutGraphConfirmation tx height) (.ok (sm.setState .disproved) [])
  | paysOptimistic {tx height c} (hs : sm.state.state = .claimed c)
      (htx : env.computeTxid tx = c.activeGraph.2.payoutOptimisticTxid) :
      Reaction (.pegOutGraphConfirmation tx height) (.ok (sm.setState (.resolved
        { claimTxid := c.activeGraph.2.claimTxid
          withdrawalRequestTxid := c.withdrawalRequestTxid
          withdrawalFulfillmentTxid := c.withdrawalFulfillmentTxid
          payoutTxid := env.computeTxid tx
          path := .optimistic })) [])
  | pays {tx height a} (hs : sm.state.state = .asserted a)
      (htx : env.computeTxid tx = a.activeGraph.2.payoutTxid) :
      Reaction (.pegOutGraphConfirmation tx height) (.ok (sm.setState (.resolved
        { claimTxid := a.activeGraph.2.claimTxid
          withdrawalRequestTxid := a.withdrawalRequestTxid
          withdrawalFulfillmentTxid := a.withdrawalFulfillmentTxid
          payoutTxid := env.computeTxid tx
          path := .contested })) [])
  -- verification
  | claimFails {c} (hs : sm.state.state = .claimed c) :
      Reaction .claimFailure (.ok sm [.verifierDuty .publishChallenge])
  | assertionFails {a} (hs : sm.state.state = .asserted a) :
      Reaction .assertionFailure (.ok sm [.verifierDuty .publishDisprove])

theorem putRequested_self {sm : ContractSM} {r : Requested} (hs : sm.state.state = .requested r) :
    sm.putRequested (r, sm.pog) = sm := by
  obtain ⟨cfg, ⟨height, state⟩, pog⟩ := sm
  obtain rfl : state = .requested r := hs
  rfl

/-! ### The answers of the handlers -/

variable {env sm} {tx : Transaction} {height : BitcoinBlockHeight}

theorem inRequested_reaction {ev : ContractEvent} {f : Requested → Requested.Reply}
    {other : ContractSM.Reply}
    (hf : ∀ r, r.process env sm.cfg sm.pog ev = some (f r)) (hother : Reaction env sm ev other) :
    Reaction env sm ev (sm.inRequested f other) := by
  rw [inRequested]
  split
  next r hs => exact .requested hs (hf r)
  next => exact hother

private theorem ignoredOnceDeposited_reaction {ev : ContractEvent} (handler : Handler)
    (hev : ev.isSigning = true) : Reaction env sm ev (sm.ignoredOnceDeposited handler) := by
  rw [ignoredOnceDeposited]
  split
  · exact .passes hev
  · refine .rejects ?_
    rintro height rfl
    cases hev

theorem assign_reaction {entry : DepositEntry} {d : GraphData}
    {dispatched : DispatchedState} {key : P2POperatorPubKey} (recipient : Descriptor)
    (request : Buf32) (stakeTx : StakeTxKind)
    (hs : sm.state.state = .deposited d ∨
      ∃ a' : Assigned, sm.state.state = .assigned a' ∧ a'.toGraphData = d)
    (hentry : entry.depositState = .dispatched dispatched)
    (hkey : sm.cfg.operatorTable.idxToP2pKey dispatched.assignee = some key) :
    Reaction env sm (.assignment entry stakeTx height)
      (sm.assign env d dispatched key recipient request stakeTx height) := by
  rw [assign]
  split
  · exact .rejects nofun
  next claim hclaim =>
    split
    · exact .rejects nofun
    next graph hgraph => exact .assigns hs hentry hkey hclaim hgraph rfl rfl rfl

private theorem processAssignment_reaction (entry : DepositEntry) (stakeTx : StakeTxKind) :
    Reaction env sm (.assignment entry stakeTx height)
      (sm.processAssignment env entry stakeTx height) := by
  rw [processAssignment]
  split
  · exact .rejects nofun
  split
  next dispatched hentry =>
    split
    · exact .rejects nofun
    next key hkey =>
      split
      · exact .rejects nofun
      split
      · exact .rejects nofun
      split
      next d hd => exact assign_reaction _ _ _ (.inl hd) hentry hkey
      next a ha => exact assign_reaction _ _ _ (.inr ⟨a, ha, rfl⟩) hentry hkey
      next hs => exact .assignsStub hs hentry
      next hd ha hs => exact .passesAssignment hd ha hs
  · exact .rejects nofun

private theorem atNewHeight_reaction (hheight : sm.state.blockHeight + 1 = height) :
    Reaction env sm (.block height) ((sm.setHeight height).atNewHeight env) := by
  have hstate : (sm.setHeight height).state.state = sm.state.state := rfl
  -- in every phase with a timelock it is not over or not ours, or signed or not
  have htimelock {graphSigs : BTreeMap Txid (PogMusigF TaprootSignature)}
      {fulfiller : OperatorIdx} {claim : Txid} {matures : BitcoinBlockHeight}
      {duty : PogMusigF TaprootSignature → FulfillerDuty}
      (hlate : sm.SignaturesMissing graphSigs fulfiller claim matures height →
        sm.RejectsLate env (.block height))
      (hduty : matures ≤ height → sm.isPov fulfiller = true → ∀ sigs,
        Reaction env sm (.block height) (.ok (sm.setHeight height) [.fulfillerDuty (duty sigs)])) :
      Reaction env sm (.block height)
        ((sm.setHeight height).timelockDuty graphSigs fulfiller claim matures duty) := by
    rw [timelockDuty]
    split
    next hdue =>
      obtain ⟨hmatures, hpov⟩ := Bool.and_eq_true_iff.mp hdue
      have hmatures : matures ≤ height := of_decide_eq_true hmatures
      split
      next hsigs =>
        exact .takesLate hheight (hlate ⟨hheight.symm, hmatures, hpov, notMem_iff.mpr hsigs⟩)
      next sigs _ => exact hduty hmatures hpov sigs
    next => exact .takes hheight
  rw [atNewHeight, hstate]
  cases hs : sm.state.state with
  | requested r =>
    dsimp only
    split
    next hdue => exact .aborts hheight hs hdue
    next => exact .takes hheight
  | claimed c =>
    refine htimelock (fun h => ?_) fun hdue hpov sigs => .claimMatures hheight hs hdue hpov
    rw [RejectsLate, hs]
    exact h
  | challenged c =>
    refine htimelock (fun h => ?_) fun hdue hpov sigs => .challengeMatures hheight hs hdue hpov
    rw [RejectsLate, hs]
    exact h
  | asserted a =>
    refine htimelock (fun h => ?_) fun hdue hpov sigs => .assertionMatures hheight hs hdue hpov
    rw [RejectsLate, hs]
    exact h
  | _ => exact .takes hheight

theorem confirmPreAssert_reaction {c : Claimed}
    (hs : sm.state.state = .claimed c ∨ sm.state.state = .challenged c) :
    Reaction env sm (.pegOutGraphConfirmation tx height) (sm.confirmPreAssert env c tx) := by
  rw [confirmPreAssert]
  split
  · exact .rejects nofun
  next htx =>
    rw [not_not] at htx
    split
    next hpov =>
      split
      · rcases hs with hs | hs <;> exact .confirmationPanics (by rw [hs]; rfl)
      · exact .preAsserts hs htx (.inr ⟨hpov, _, rfl⟩)
    next => exact .preAsserts hs htx (.inl rfl)

private theorem afterCollecting_reaction {p : PreAssertConfirmed}
    (hs : sm.state.state = .preAssertConfirmed p)
    (htx : env.computeTxid tx ∈ p.activeGraph.2.assertDataTxids) :
    Reaction env sm (.pegOutGraphConfirmation tx height)
      (sm.afterCollecting env (p.collect (env.computeTxid tx) tx)) := by
  rw [afterCollecting]
  split
  next hsize => exact .collects hs htx hsize
  next hsize =>
    rw [Nat.not_lt] at hsize
    split
    next hpov =>
      split
      next hsigs => exact .collectsLate hs htx hsize hpov (notMem_iff.mpr hsigs)
      next sigs hsigs => exact .collectsLast hs htx hsize (.inr ⟨hpov, sigs, hsigs, rfl⟩)
    next hpov => exact .collectsLast hs htx hsize (.inl ⟨Bool.eq_false_iff.mpr hpov, rfl⟩)

private theorem processPegOutGraphTxConfirmation_reaction :
    Reaction env sm (.pegOutGraphConfirmation tx height)
      (sm.processPegOutGraphTxConfirmation env height tx) := by
  unfold processPegOutGraphTxConfirmation
  cases hs : sm.state.state with
  | requested | deposited | disproved | resolved | aborted => exact .rejects nofun
  | assigned a =>
    simp only [processFulfillmentConfirmation, hs]
    split
    next htx => exact .fulfills hs htx rfl
    next => exact .passesPayment hs
  | fulfilled f =>
    simp only [processClaimConfirmation, hs]
    split
    · exact .rejects nofun
    next htx =>
      split
      · exact .confirmationPanics (by rw [hs]; rfl)
      · exact .rejects nofun
      · exact .claims hs (not_not.mp htx) rfl rfl rfl
  | claimed c =>
    simp only [processChallengeConfirmation, hs]
    split
    next htx => exact .challenges hs htx
    next =>
      simp only [invalidTx, Outcome.orElse_err, processOptimisticPayoutConfirmation, hs]
      split
      next =>
        simp only [Outcome.orElse_err, processPreAssertConfirmation, hs]
        exact confirmPreAssert_reaction (.inl hs)
      next htx => exact .paysOptimistic hs (not_not.mp htx)
  | challenged c =>
    simp only [processPreAssertConfirmation, hs]
    exact confirmPreAssert_reaction (.inr hs)
  | preAssertConfirmed p =>
    simp only [processAssertDataConfirmation, hs]
    split
    next htx => exact afterCollecting_reaction hs htx
    next => exact .rejects nofun
  | assertDataConfirmed a =>
    simp only [processPostAssertConfirmation, hs]
    split
    · exact .rejects nofun
    split
    · exact .rejects nofun
    next htx =>
      split
      · exact .rejects nofun
      split
      · exact .rejects nofun
      · exact .postAsserts hs (not_not.mp htx) rfl rfl rfl
  | asserted a =>
    simp only [processDisproveConfirmation, hs]
    split
    next htx => exact .disproves hs htx
    next =>
      simp only [invalidTx, Outcome.orElse_err, processDefendedPayoutConfirmation, hs]
      split
      · exact .rejects nofun
      next htx => exact .pays hs (not_not.mp htx)

variable (env sm) in
/-- **The handlers give the answers of the relation.** -/
theorem reaction (ev : ContractEvent) : Reaction env sm ev (sm.processContractEvent env ev) := by
  cases ev with
  | depositSetup =>
    refine inRequested_reaction (fun _ => rfl) ?_
    split
    · exact .passes rfl
    · exact .rejects nofun
  | graphNonces => exact inRequested_reaction (fun _ => rfl) (.rejects nofun)
  | graphSigs signer claim signatures =>
    rw [processContractEvent, processGraphSignatures]
    cases hunpack : PogMusigF.unpack signatures with
    | none => exact .rejects nofun
    | some partials =>
      refine inRequested_reaction (fun r => ?_) (.rejects nofun)
      simp only [Requested.process, hunpack]
  | aggregatedSigs => exact inRequested_reaction (fun _ => rfl) (.rejects nofun)
  | rootNonce | rootSig =>
    exact inRequested_reaction (fun _ => rfl) (ignoredOnceDeposited_reaction _ rfl)
  | assignment entry stakeTx height => exact processAssignment_reaction entry stakeTx
  | depositConfirmation tx =>
    rw [processContractEvent, processDepositConfirmation]
    split
    · exact .rejects nofun
    split
    next r hs =>
      split
      next msg hd => exact .depositPanics hs hd
      next d hd => exact .deposits hs hd
    next => exact .rejects nofun
  | pegOutGraphConfirmation tx height => exact processPegOutGraphTxConfirmation_reaction
  | block height =>
    rw [processContractEvent, notifyNewBlock]
    split
    next hheight => exact atNewHeight_reaction hheight
    next hheight => exact .rejectsBlock hheight
  | claimFailure =>
    rw [processContractEvent, processClaimVerificationFailure]
    split
    next c hs => exact .claimFails hs
    next => exact .rejects nofun
  | assertionFailure =>
    rw [processContractEvent, processAssertionVerificationFailure]
    split
    next a hs => exact .assertionFails hs
    next => exact .rejects nofun

variable (env sm) in
theorem of_reaction {P : ContractSM.Reply → Prop}
    {ev : ContractEvent} (h : ∀ o, Reaction env sm ev o → P o) :
    P (sm.processContractEvent env ev) :=
  h _ (sm.reaction env ev)

end Handlers

end ContractSM

end StrataBridge
