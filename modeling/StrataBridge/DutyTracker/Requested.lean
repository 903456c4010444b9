import StrataBridge.DutyTracker.ContractState

/-!
# The requested phase

While a deposit is only requested, the operators exchange what they need to sign the graphs and
the deposit: setup data, nonces and partial signatures of every graph, then a nonce and a
partial signature for the deposit transaction. The handlers of this phase write into the maps
of `Requested` and into the cache of generated graphs.

## References

* `crates/duty-tracker/src/contract_state_machine.rs`, lines 1230–1345, 1634–2283, 3285–3440
-/

namespace StrataBridge

open Rust BTreeMap PogMusigF

abbrev PogCache : Type := BTreeMap Txid PegOutGraph

abbrev Requested.Reply : Type := Outcome (Requested × PogCache) TransitionErr (List OperatorDuty)

/-- `ContractCfg` (lines 1235–1261). -/
structure ContractCfg where
  network : Network
  operatorTable : OperatorTable
  connectorParams : ConnectorParams
  pegOutGraphParams : PegOutGraphParams
  sidesystemParams : RollupParams
  stakeChainParams : StakeChainParams
  depositIdx : ℕ
  depositTx : DepositTx

namespace ContractCfg

variable (env : Env) (cfg : ContractCfg)

def depositTxid : Txid := cfg.depositTx.tx.computeTxid env

/-- `ContractCfg::build_graph`: no previous claims, so no slash-stake transactions. -/
def buildGraph (input : PegOutGraphInput) : PegOutGraph :=
  env.generate input (cfg.operatorTable.txBuildContext cfg.network) (cfg.depositTxid env)
    cfg.pegOutGraphParams cfg.connectorParams cfg.stakeChainParams []

/-- `ContractCfg::deposit_request_txid`. -/
def depositRequestTxid : Txid := cfg.depositTx.requestTxid

def cachedGraph (pog : PogCache) (input : PegOutGraphInput) : PegOutGraph :=
  match pog[input.stakeOutpoint.txid]? with
  | some graph => graph
  | none => cfg.buildGraph env input

/-- `ContractSM::retrieve_graph` (lines 1390–1401): the cached graph of the stake transaction, or a
new one, which is then cached. -/
def retrieveGraph (pog : PogCache) (input : PegOutGraphInput) : PegOutGraph × PogCache :=
  match pog[input.stakeOutpoint.txid]? with
  | some graph => (graph, pog)
  | none =>
    (cfg.buildGraph env input, pog.insert input.stakeOutpoint.txid (cfg.buildGraph env input))

end ContractCfg

/-! ### Deposit setup -/

namespace Requested

/-- Enter the setup data of an operator; for a known operator only the stake outpoints are replaced
(lines 1660–1684). -/
def upsertInput (r : Requested) (signer : P2POperatorPubKey) (operatorPubkey : XOnlyPublicKey)
    (stakeHash : Sha256Hash) (stakeTxid : Txid) (wotsKeys : Wots.PublicKeys) : Requested :=
  { r with
    pegOutGraphInputs := r.pegOutGraphInputs.alter signer fun
      | some input => some
          { input with
            stakeOutpoint := ⟨stakeTxid, stakeVout⟩
            withdrawalFulfillmentOutpoint := ⟨stakeTxid, withdrawalFulfillmentVout⟩ }
      | none => some
          { stakeOutpoint := ⟨stakeTxid, stakeVout⟩
            withdrawalFulfillmentOutpoint := ⟨stakeTxid, withdrawalFulfillmentVout⟩
            stakeHash := stakeHash
            wotsPublicKeys := wotsKeys
            operatorPubkey := operatorPubkey } }

section Handlers

variable (env : Env) (cfg : ContractCfg)

def retrieveGraphs (pog : PogCache) :
    List (P2POperatorPubKey × PegOutGraphInput) → List (P2POperatorPubKey × PegOutGraph) × PogCache
  | [] => ([], pog)
  | (signer, input) :: rest =>
    let (graph, pog) := cfg.retrieveGraph env pog input
    let (graphs, pog) := retrieveGraphs pog rest
    ((signer, graph) :: graphs, pog)

variable (r : Requested) (pog : PogCache)

/-- The graphs of all inputs; generation on several threads leaves the cache alone (lines
1691–1759). -/
def allGraphs : List (P2POperatorPubKey × PegOutGraph) × PogCache :=
  if env.multiThreadGraphGen then
    (r.pegOutGraphInputs.toList.map fun e => (e.1, cfg.buildGraph env e.2), pog)
  else retrieveGraphs env cfg pog r.pegOutGraphInputs.toList

/-- Enter a graph under its claim, with empty sessions for its nonces and partial signatures (lines
1771–1779). -/
def insertGraph (e : P2POperatorPubKey × PegOutGraph) : Requested :=
  let summary := e.2.summarize env
  { r with
    pegOutGraphSummaries := r.pegOutGraphSummaries.insert summary.claimTxid summary
    claimTxids := r.claimTxids.insert e.1 summary.claimTxid
    graphNonces := r.graphNonces.insert summary.claimTxid ∅
    graphPartials := r.graphPartials.insert summary.claimTxid ∅ }

def nonceDuty (graph : PegOutGraph) : OperatorDuty :=
  .publishGraphNonces (graph.claimTx.computeTxid env) (graph.musigInpoints env)
    graph.musigWitnesses none

/-- `process_deposit_setup` in the requested phase (lines 1634–1792). -/
def processDepositSetup (signer : P2POperatorPubKey) (operatorPubkey : XOnlyPublicKey)
    (stakeHash : Sha256Hash) (stakeTxid : Txid) (wotsKeys : Wots.PublicKeys) : Requested.Reply :=
  let r := r.upsertInput signer operatorPubkey stakeHash stakeTxid wotsKeys
  if r.pegOutGraphInputs.size ≠ cfg.operatorTable.cardinality then .ok (r, pog) []
  else
    let (graphs, pog) := r.allGraphs env cfg pog
    .ok (graphs.foldl (insertGraph env) r, pog) (graphs.map fun e => nonceDuty env e.2)

/-! ### Graph nonces -/

def haveAll {T : Type} (n : ℕ) (claims : List Txid) (sessions : BTreeMap Txid (Session T)) : Bool :=
  claims.all fun claim =>
    match sessions[claim]? with
    | some session => session.size = n
    | none => false

def aggregateSession (session : Session PubNonce) : PogMusigF AggNonce :=
  (sequencePogMusigF (vals session)).map AggNonce.sum

/-- `aggregate_nonces` (lines 3285–3297). -/
def aggregateNonces (graphNonces : BTreeMap Txid (Session PubNonce)) :
    BTreeMap Txid (PogMusigF AggNonce) :=
  graphNonces.map fun _ session => aggregateSession session

/-- The operator of a claim; of several operators with one claim the last one is taken. -/
def lastOwner (claimTxids : BTreeMap P2POperatorPubKey Txid) (claim : Txid) :
    Option P2POperatorPubKey :=
  (ofEntries (claimTxids.toList.map Prod.swap))[claim]?

/-- The duty to sign a graph under the given aggregated nonces, with the partial signatures
published before, if any. -/
def signatureDuty (claim : Txid) (aggnonces : PogMusigF AggNonce) (graph : PegOutGraph)
    (existing : Option (PogMusigF PartialSignature)) : OperatorDuty :=
  .publishGraphSignatures claim aggnonces (graph.musigInpoints env) (graph.musigSighashes env)
    graph.musigWitnesses existing

def ownPartials (claim : Txid) : Option (PogMusigF PartialSignature) :=
  r.graphPartials[claim]?.bind fun session => session[cfg.operatorTable.povP2pKey]?

/-- The loop of `process_graph_nonces` over the claims (lines 1861–1914). It stops at the first
claim without data, keeping the cache. -/
def signatureDuties (r : Requested) (pog : PogCache) :
    List Txid → Except TransitionErr (List OperatorDuty) × PogCache
  | [] => (.ok [], pog)
  | claim :: rest =>
    match lastOwner r.claimTxids claim with
    | none => (.error (.claimNotInClaimTxids claim), pog)
    | some owner =>
      match r.pegOutGraphInputs[owner]? with
      | none => (.error (.claimNotInGraphMap claim), pog)
      | some input =>
        let (graph, pog) := cfg.retrieveGraph env pog input
        match r.aggNonces[claim]? with
        | none => (.error (.claimNotInAggNonces claim), pog)
        | some aggnonces =>
          let (duties, pog) := signatureDuties r pog rest
          (duties.map (signatureDuty env claim aggnonces graph (r.ownPartials cfg claim) :: ·), pog)

def insertNonces (claim : Txid) (session : Session PubNonce) (signer : P2POperatorPubKey)
    (nonces : PogMusigF PubNonce) : Requested :=
  { r with graphNonces := r.graphNonces.insert claim (session.insert signer nonces) }

/-- `process_graph_nonces` in the requested phase (lines 1794–1924). Nonces that came before are
ignored; the last missing ones start the signing of all graphs. -/
def processGraphNonces (signer : P2POperatorPubKey) (claim : Txid) (nonces : List PubNonce) :
    Requested.Reply :=
  match unpack nonces with
  | none => .err (r, pog) .unpackNonces
  | some unpacked =>
    match r.graphNonces[claim]? with
    | none => .err (r, pog) (.claimNotInNonceMap claim)
    | some session =>
      if signer ∈ session then .ok (r, pog) []
      else
        let r := r.insertNonces claim session signer unpacked
        if haveAll cfg.operatorTable.cardinality (vals r.claimTxids) r.graphNonces then
          let r := { r with aggNonces := aggregateNonces r.graphNonces }
          match signatureDuties env cfg r pog (vals r.claimTxids) with
          | (.ok duties, pog) => .ok (r, pog) duties
          | (.error e, pog) => .err (r, pog) e
        else .ok (r, pog) []

end Handlers

end Requested

/-! ### Graph signatures -/

section Signatures

variable (env : Env)

/-- What a peer's partial signature of one input is checked against: the nonce of the peer, the
message, the witness, the partial signature and the aggregated nonce. -/
structure PartialCheck where
  pubnonce : PubNonce
  message : Message
  witness : TaprootWitness
  partialSignature : PartialSignature
  aggnonce : AggNonce

/-- Some partial signature is invalid; the checks are made in order up to the first invalid one
(lines 3407–3432). -/
def anyInvalid (btcKeys : List PublicKey) (pubkey : PublicKey) : List PartialCheck → MayPanic Bool
  | [] => .ok false
  | c :: rest =>
    match env.createAggCtx btcKeys c.witness with
    | none => .error "must be able to create key agg ctx"
    | some ctx =>
      if env.verifyPartial ctx c.partialSignature c.aggnonce pubkey c.pubnonce c.message then
        anyInvalid btcKeys pubkey rest
      else .ok true

def partialChecks (graph : PegOutGraph) (pubnonces : PogMusigF PubNonce)
    (partials : PogMusigF PartialSignature) (aggnonces : PogMusigF AggNonce) :
    List PartialCheck :=
  (zip5 pubnonces (graph.musigSighashes env) graph.musigWitnesses partials
    aggnonces).pack.map fun x => ⟨x.1, x.2.1, x.2.2.1, x.2.2.2.1, x.2.2.2.2⟩

/-- `verify_partials_from_peer` (lines 3367–3440): `false` when the nonces of the session are not
complete yet. -/
def verifyPartialsFromPeer (cfg : ContractCfg) (signer : P2POperatorPubKey) (claim : Txid)
    (graph : PegOutGraph) (graphNonces : BTreeMap Txid (Session PubNonce))
    (aggNonces : BTreeMap Txid (PogMusigF AggNonce)) (partials : PogMusigF PartialSignature) :
    Outcome Unit TransitionErr Bool :=
  match cfg.operatorTable.p2pKeyToBtcKey signer with
  | none => .panic "signer must be part of musig session"
  | some pubkey =>
    match graphNonces[claim]? with
    | none => .panic "claim txid must be present in graph nonces"
    | some session =>
      if session.size ≠ cfg.operatorTable.cardinality then .ok () false
      else
        match session[signer]? with
        | none => .panic "signer must have pubnonces in graph nonces"
        | some pubnonces =>
          match aggNonces[claim]? with
          | none => .err () (.aggNoncesMissing claim)
          | some aggnonces =>
            match anyInvalid env cfg.operatorTable.btcKeys pubkey
              (partialChecks env graph pubnonces partials aggnonces) with
            | .error msg => .panic msg
            | .ok true => .err () (.partialVerificationFailed claim signer)
            | .ok false => .ok () true

/-- `AuxAggData`: what the partial signatures of a graph are joined with. -/
structure AuxAggData where
  aggNonces : PogMusigF AggNonce
  sighashTypes : PogMusigF TapSighashType
  sighashes : PogMusigF Message
  witnesses : PogMusigF TaprootWitness

def aggContexts (table : OperatorTable) (witnesses : PogMusigF TaprootWitness) :
    MayPanic (PogMusigF KeyAggContext) :=
  sequenceResult <| witnesses.map fun w =>
    match env.createAggCtx table.btcKeys w with
    | none => .error "must be able to create key agg ctx"
    | some ctx => .ok ctx

def joinPartials (ctx : KeyAggContext) (aggnonce : AggNonce) (partials : List PartialSignature)
    (message : Message) : MayPanic ℕ :=
  match env.aggregatePartialSignatures ctx aggnonce partials message with
  | none => .error
      "partial signatures have already been validated so aggregation shouldn't fail"
  | some sig => .ok sig

/-- Join the partial signatures of one graph (lines 3322–3361). -/
def aggregateGraph (table : OperatorTable) (aux : AuxAggData)
    (session : Option (Session PartialSignature)) : MayPanic (PogMusigF TaprootSignature) :=
  (aggContexts env table aux.witnesses).bind fun ctxs =>
  match session with
  | none => .error "we must have partials for this claim txid"
  | some session =>
    match table.convertMapP2pToBtc session with
    | .error _ => .error "signature contributions don't match operator table"
    | .ok byBtcKey =>
      (sequenceResult <| zipWith4 (joinPartials env) ctxs aux.aggNonces
        (sequencePogMusigF (vals byBtcKey)) aux.sighashes).map fun sigs =>
          zipWith TaprootSignature.mk sigs aux.sighashTypes

/-- `aggregate_partials` (lines 3316–3363): the partial signatures of a graph are used up by it. -/
def aggregatePartials (table : OperatorTable) :
    List (Txid × AuxAggData) → BTreeMap Txid (Session PartialSignature) →
      MayPanic (List (Txid × PogMusigF TaprootSignature))
  | [], _ => .ok []
  | (claim, aux) :: rest, graphPartials =>
    (aggregateGraph env table aux graphPartials[claim]?).bind fun sigs =>
      (aggregatePartials table rest (graphPartials.erase claim)).map ((claim, sigs) :: ·)

/-- The data to join the partial signatures of a graph with; the aggregated nonces of the graph
must be there. -/
def auxData (aggNonces : BTreeMap Txid (PogMusigF AggNonce)) (graph : PegOutGraph) :
    MayPanic (Txid × AuxAggData) :=
  match aggNonces[graph.claimTx.computeTxid env]? with
  | none => .error "agg_nonces must be present"
  | some aggnonces => .ok
      (graph.claimTx.computeTxid env,
        { aggNonces := aggnonces
          sighashTypes := graph.musigSighashTypes
          sighashes := graph.musigSighashes env
          witnesses := graph.musigWitnesses })

namespace Requested

variable (cfg : ContractCfg) (r : Requested) (pog : PogCache)

/-- Join the partial signatures of all graphs (lines 2025–2066). -/
def aggregateAll : MayPanic (BTreeMap Txid (PogMusigF TaprootSignature)) :=
  ((vals r.pegOutGraphInputs).mapM fun input =>
      auxData env r.aggNonces (cfg.cachedGraph env pog input)).bind fun aux =>
    (aggregatePartials env cfg.operatorTable (ofEntries aux).toList r.graphPartials).map ofEntries

def rootNonceDuty : OperatorDuty :=
  .publishRootNonce cfg.depositRequestTxid (cfg.depositTx.tx.witnesses.get 0)
    r.rootNonces[cfg.operatorTable.povP2pKey]?

def insertPartials (claim : Txid) (session : Session PartialSignature) (signer : P2POperatorPubKey)
    (partials : PogMusigF PartialSignature) : Requested :=
  { r with graphPartials := r.graphPartials.insert claim (session.insert signer partials) }

/-- What follows once verified partial signatures are entered: the last missing ones make the joint
signatures of all graphs (lines 2003–2076). -/
def finishGraphSignatures : Requested.Reply :=
  if haveAll cfg.operatorTable.cardinality (vals r.claimTxids) r.graphPartials then
    match r.aggregateAll env cfg pog with
    | .error msg => .panic msg
    | .ok graphSigs => .ok ({ r with graphSigs }, pog) [r.rootNonceDuty cfg]
  else .ok (r, pog) []

/-- `process_graph_signatures` in the requested phase (lines 1927–2085), after the partial
signatures are unpacked. -/
def processGraphSignatures (signer : P2POperatorPubKey) (claim : Txid)
    (partials : PogMusigF PartialSignature) : Requested.Reply :=
  match r.graphPartials[claim]? with
  | none => .err (r, pog) (.claimNotInPartialsMap claim)
  | some session =>
    if signer ∈ session then .ok (r, pog) []
    else
      match ContractState.firstOwner r.claimTxids claim with
      | none => .err (r, pog) (.claimNotInClaimTxids claim)
      | some owner =>
        match r.pegOutGraphInputs[owner]? with
        | none => .err (r, pog) (.graphInputMissing signer)
        | some input =>
          match verifyPartialsFromPeer env cfg signer claim (cfg.cachedGraph env pog input)
            r.graphNonces r.aggNonces partials with
          | .panic msg => .panic msg
          | .err _ e => .err (r, pog) e
          | .ok _ false => .ok (r, pog) []
          | .ok _ true => (r.insertPartials claim session signer partials).finishGraphSignatures
              env cfg pog

def processAggregateSigs (sigs : BTreeMap Txid (PogMusigF TaprootSignature)) : Requested.Reply :=
  .ok ({ r with graphSigs := sigs }, pog) [r.rootNonceDuty cfg]

/-! ### The deposit transaction -/

def inIndexOrder {T : Type} (table : OperatorTable) (m : BTreeMap P2POperatorPubKey T) : List T :=
  table.btcKeys.filterMap fun b => (table.btcKeyToP2pKey b).bind fun k => m[k]?

def depositSighash : Message := (cfg.depositTx.tx.sighashes env).get 0

/-- `process_root_nonce` in the requested phase (lines 2116–2179). -/
def processRootNonce (signer : P2POperatorPubKey) (nonce : PubNonce) : Requested.Reply :=
  if signer ∈ r.rootNonces then .ok (r, pog) []
  else
    let r := { r with rootNonces := r.rootNonces.insert signer nonce }
    if r.rootNonces.size = cfg.operatorTable.cardinality then
      .ok (r, pog) [.publishRootSignature cfg.depositRequestTxid
        (AggNonce.sum (inIndexOrder cfg.operatorTable r.rootNonces)) (depositSighash env cfg)
        (cfg.depositTx.tx.witnesses.get 0) none]
    else .ok (r, pog) []

/-- `process_root_signature` in the requested phase (lines 2182–2283). -/
def processRootSignature (signer : P2POperatorPubKey) (sig : PartialSignature) : Requested.Reply :=
  if signer ∈ r.rootPartials then .ok (r, pog) []
  else
    let aggnonce := AggNonce.sum (vals r.rootNonces)
    match env.createAggCtx cfg.operatorTable.btcKeys (cfg.depositTx.tx.witnesses.get 0) with
    | none => .panic "must be able to create context"
    | some ctx =>
      match cfg.operatorTable.p2pKeyToBtcKey signer with
      | none => .err (r, pog) (.noBtcKey signer)
      | some pubkey =>
        match r.rootNonces[signer]? with
        | none => .err (r, pog) (.rootNonceNotFound signer)
        | some rootNonce =>
          if env.verifyPartial ctx sig aggnonce pubkey rootNonce (depositSighash env cfg) then
            let r := { r with rootPartials := r.rootPartials.insert signer sig }
            if r.rootPartials.size = cfg.operatorTable.cardinality then
              .ok (r, pog) [.publishDeposit cfg.depositTx
                (inIndexOrder cfg.operatorTable r.rootPartials) aggnonce]
            else .ok (r, pog) []
          else .ok (r, pog) []

/-! ### The deposit is confirmed -/

/-- Pair the input and the summary of every claim, removing both from their maps (lines 1521–1536).
-/
def takeGraphs : List (P2POperatorPubKey × Txid) → BTreeMap P2POperatorPubKey PegOutGraphInput →
    BTreeMap Txid PegOutGraphSummary → MayPanic (List (Txid × ActiveGraph))
  | [], _, _ => .ok []
  | (key, claim) :: rest, inputs, summaries =>
    match inputs[key]? with
    | none => .error "peg out graph input must exist"
    | some input =>
      match summaries[claim]? with
      | none => .error "peg out graph summary must exist"
      | some summary =>
        (takeGraphs rest (inputs.erase key) (summaries.erase claim)).map
          ((claim, (input, summary)) :: ·)

def intoGraphData : MayPanic GraphData :=
  (takeGraphs r.claimTxids.toList r.pegOutGraphInputs r.pegOutGraphSummaries).map fun graphs =>
    { pegOutGraphs := ofEntries graphs
      claimTxids := r.claimTxids
      graphSigs := r.graphSigs }

end Requested

end Signatures

end StrataBridge
