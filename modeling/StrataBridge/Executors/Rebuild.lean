import StrataBridge.DutyTracker.Orders
import StrataBridge.Executors.Withdrawal
import StrataBridge.Instance.LinearExecutor
import StrataBridge.TxGraph.Generated

/-!
# The executors rebuild the graph

The transactions of a graph are signed by all operators long before they are published, so the
executors have to build them anew to the byte. Here it is shown that they do: whatever duty a
contract emits for a graph that was made from the operator's own announcement, its executor
publishes the transactions with the txids on record as soon as the services answer it.

## References

* `crates/duty-tracker/src/executors/`, `crates/tx-graph/src/peg_out_graph.rs`, lines 140–345
-/

namespace StrataBridge

open Rust MayPanic OperatorTable
open List hiding Vector

variable {pks : WotsPublicKeys}

/-! ### What an operator remembers -/

/-- The input of a graph from an announcement and the operator's stake transaction
(`contract_state_machine.rs`, lines 1660–1684). -/
def DepositSetup.graphInput (setup : DepositSetup) (stakeTxid : Txid)
    (wotsKeys : Wots.PublicKeys) : PegOutGraphInput where
  stakeOutpoint := ⟨stakeTxid, stakeVout⟩
  withdrawalFulfillmentOutpoint := ⟨stakeTxid, withdrawalFulfillmentVout⟩
  stakeHash := setup.hash
  wotsPublicKeys := wotsKeys
  operatorPubkey := setup.operatorPk

structure Remembers (env : ExecutorEnv) (table : OperatorTable) (s2 : SecretService) (db : StakeDb)
    (depositTxid : Txid) (depositIdx : ℕ) (input : PegOutGraphInput) : Prop where
  key : s2.generalPubkey = .ok input.operatorPubkey
  wots : ∃ pks, getWotsPks s2.wots depositTxid = .ok pks ∧
    Wots.PublicKeys.tryFrom pks = .ok input.wotsPublicKeys
  row : ∃ data, db.getStakeData table.povIdx depositIdx = some data ∧ data.hash = input.stakeHash
  preimage : ∃ preStake preimg, db.getPreStake table.povIdx = some preStake ∧
    s2.getPreimg preStake.txid preStake.vout depositIdx = .ok preimg ∧
    env.sha256 preimg = input.stakeHash

variable {depositTxid : Txid} {s2 : SecretService} {g : GeneratedGraph} {env : ExecutorEnv}
  {fundingUtxo : Except ℕ OutPoint} {wotsKeys : Wots.PublicKeys} {inputs : StakeChainInputs}
  {input : PegOutGraphInput} {chain : AssertChainPsbts} {keys : Wots.PublicKeys}
  {setup : DepositSetup} {duty : FulfillerDuty} {preStake : OutPoint} {client : WotsClient}
  {claim : ClaimPsbt} {stakeTxid : Txid} {db : StakeDb}

/-- **What was announced is remembered**, as long as the database loses no rows. -/
theorem remembers_of_handlePublishDepositSetup {table : OperatorTable} {db₀ db₁ : StakeDb}
    {depositIdx : ℕ} (hrows : OwnRows env table s2 preStake db₀)
    (hinputs : inputs.preStakeOutpoint = preStake)
    (hsetup : handlePublishDepositSetup env table s2 db₀ depositTxid depositIdx inputs fundingUtxo =
      .ok (db₁, setup)) (hdb : db₁.Extends db)
    (hkeys : Wots.PublicKeys.tryFrom setup.wotsPks = .ok wotsKeys) (stakeTxid : Txid) :
    Remembers env table s2 db depositTxid depositIdx (setup.graphInput stakeTxid wotsKeys) := by
  have hrows' := hrows.handlePublishDepositSetup hinputs hsetup
  obtain ⟨hkey, hwots, -, data, hdata, hhash⟩ := announced_of_handlePublishDepositSetup hsetup
  obtain ⟨preimg, hpreimg, hsha⟩ := hrows'.rows depositIdx data hdata
  exact
    { key := hkey
      wots := ⟨setup.wotsPks, hwots, hkeys⟩
      row := ⟨data, hdb.stakeData _ _ hdata, hhash⟩
      preimage := ⟨preStake, preimg, hdb.preStakes _ _ hrows'.start, hpreimg,
        hsha.symm.trans hhash⟩ }

theorem getWithdrawalFulfillmentWotsPk_of_getWotsPks (h : getWotsPks client depositTxid = .ok pks) :
    getWithdrawalFulfillmentWotsPk client depositTxid = .ok pks.withdrawalFulfillment := by
  obtain ⟨withdrawalFulfillment, hpk, h⟩ := bind_eq_ok.mp h
  obtain ⟨publicInputs, -, h⟩ := bind_eq_ok.mp h
  obtain ⟨fqs, -, h⟩ := bind_eq_ok.mp h
  obtain ⟨hashes, -, h⟩ := bind_eq_ok.mp h
  cases h
  exact hpk

theorem Wots.PublicKeys.of_tryFrom (h : Wots.PublicKeys.tryFrom pks = .ok keys) :
    pks.groth16.publicInputs = keys.groth16.publicInputs.toList ∧
      pks.groth16.fqs = keys.groth16.fqs.toList ∧
      pks.groth16.hashes = keys.groth16.hashes.toList := by
  rw [PublicKeys.tryFrom, Groth16PublicKeys.tryFrom] at h
  split at h
  · cases h
  · cases h
  · cases h
  next publicInputs fqs hashes hpub hfqs hhashes =>
    cases h
    exact ⟨(Wots.toList_of_sized hpub).symm, (Wots.toList_of_sized hfqs).symm,
      (Wots.toList_of_sized hhashes).symm⟩

theorem mapM_keyAt {T : Type} (keys : List T) :
    (range keys.length).mapM (keyAt keys) = .ok keys := by
  induction keys with
  | nil => rfl
  | cons key keys ih =>
    have htail : ((range keys.length).map Nat.succ).mapM (keyAt (key :: keys)) = .ok keys := by
      rw [mapM_map]
      exact ih
    rw [length_cons, range_succ_eq_map, mapM_cons, htail]
    rfl

theorem createAssertDataConnectors_of_tryFrom (network : Network)
    (h : Wots.PublicKeys.tryFrom pks = .ok keys) :
    createAssertDataConnectors network pks =
      .ok (⟨network, keys.groth16.keys256⟩, ⟨network, keys.groth16.hashes.toList⟩) := by
  obtain ⟨hpub, hfqs, hhashes⟩ := Wots.PublicKeys.of_tryFrom h
  have hfirst : keyAt pks.groth16.publicInputs 0 =
      .ok (keys.groth16.publicInputs.get ⟨0, by decide⟩) := by
    rw [keyAt, hpub, Vector.getElem?_toList]
    rfl
  have hrest : (range 14).mapM (keyAt pks.groth16.fqs) = .ok keys.groth16.fqs.toList := by
    have hlen : pks.groth16.fqs.length = 14 := by rw [hfqs, Vector.length_toList]; rfl
    rw [← hlen, mapM_keyAt, hfqs]
  obtain ⟨hashes, hsized⟩ := Wots.exists_sized (n := numKeysHash) (l := pks.groth16.hashes)
    (by rw [hhashes, Vector.length_toList]; rfl)
  rw [createAssertDataConnectors, hsized]
  refine bind_eq_ok.mpr ⟨keys.groth16.keys256, ?_, ?_⟩
  · have hrange : range numKeys256 = 0 :: (range 14).map Nat.succ := by decide
    rw [hrange, mapM_cons, hfirst]
    exact bind_eq_ok.mpr ⟨_, rfl, bind_eq_ok.mpr ⟨_, hrest, rfl⟩⟩
  · dsimp only
    rw [Wots.toList_of_sized hsized, hhashes]
    rfl

theorem OperatorTable.aggregatedBtcKey_eq (env : Env) (table : OperatorTable) (network : Network) :
    table.aggregatedBtcKey env = (table.txBuildContext network).aggregatedPubkey env := by
  rw [aggregatedBtcKey, TxBuildContext.aggregatedPubkey, txBuildContext]
  simp [publicKeyTable, btcKeys, BTreeMap.vals, Function.comp_def]

theorem AssertDataTxBatch.unsignedTxs_new (env : GraphEnv) (preAssertTxid : Txid)
    (scripts scripts' : Vector ScriptBuf numAssertDataTx) (a2 : ConnectorNOfN)
    (cpfp : ConnectorCpfp) :
    (AssertDataTxBatch.new env ⟨preAssertTxid, scripts⟩ a2 cpfp).map Psbt.unsignedTx =
      (AssertDataTxBatch.new env ⟨preAssertTxid, scripts'⟩ a2 cpfp).map Psbt.unsignedTx := by
  simp only [AssertDataTxBatch.new, Vector.map_ofFn]
  rfl

/-! ### The executors -/

def Signing.Answered (client : WotsClient) : Signing → Prop
  | .wots256 txid vout index msg => ∃ sig, client.get256Signature txid vout index msg = .ok sig
  | .wots128 txid vout index msg => ∃ sig, client.get128Signature txid vout index msg = .ok sig

/-- The prover answers, and the secret service signs every component of the assertion. -/
def ExecutorEnv.AssertionsAnswered (env : ExecutorEnv) (client : WotsClient)
    (depositTxid withdrawalFulfillmentTxid : Txid) (startHeight : BitcoinBlockHeight)
    (depositIdx : ℕ) : Prop :=
  ∃ assertions,
    env.generateAssertions withdrawalFulfillmentTxid startHeight depositIdx = .ok assertions ∧
    ∀ c : Component, (c.signing depositTxid assertions).Answered client

theorem collectArray_mapFinIdx_ok {S T : Type} {n : ℕ} {v : Vector S n}
    {f : (i : ℕ) → S → i < n → Signing × Except ClientErr T}
    (h : ∀ i (hi : i < n), ∃ sig, (f i v[i] hi).2 = .ok sig) :
    ∃ sigs, PogMusigF.collectArray ((v.mapFinIdx f).map Prod.snd) = .ok sigs := by
  refine PogMusigF.collectArray_ok fun x hx => ?_
  rw [Vector.mem_toList_iff, Vector.mem_map] at hx
  obtain ⟨_, hmem, rfl⟩ := hx
  obtain ⟨i, hi, rfl⟩ := Vector.mem_mapFinIdx.mp hmem
  exact h i hi

theorem signAssertions_ok {assertions : Wots.Assertions}
    (h : ∀ c : Component, (c.signing depositTxid assertions).Answered client) :
    ∃ sigs, (signAssertions client depositTxid assertions).2 = .ok sigs := by
  obtain ⟨first, hfirst⟩ := h .withdrawalFulfillment
  obtain ⟨publicParams, hpublic⟩ := collectArray_mapFinIdx_ok (v := assertions.publicParams)
    (f := fun i param _ =>
      client.sign256 depositTxid depositVout (withdrawalFulfillmentPkIdx + i) param)
    fun i hi => h (.publicInput ⟨i, hi⟩)
  obtain ⟨fieldElems, hfields⟩ := collectArray_mapFinIdx_ok (v := assertions.fieldElems)
    (f := fun i elem _ =>
      client.sign256 depositTxid depositVout (withdrawalFulfillmentPkIdx + numPubs + i) elem)
    fun i hi => h (.fieldElement ⟨i, hi⟩)
  obtain ⟨hashes, hhashes⟩ := collectArray_mapFinIdx_ok (v := assertions.hashes)
    (f := fun i hash _ => client.sign128 depositTxid depositVout i hash)
    fun i hi => h (.hash ⟨i, hi⟩)
  refine ⟨⟨first, ⟨publicParams, fieldElems, hashes⟩⟩, ?_⟩
  simp only [signAssertions, WotsClient.sign256, hfirst]
  exact bind_eq_ok.mpr ⟨_, hpublic, bind_eq_ok.mpr ⟨_, hfields, bind_eq_ok.mpr ⟨_, hhashes, rfl⟩⟩⟩

/-- The executor returns once it is answered, and what it returns has the given txids. -/
structure Rebuilds (env : Env) (txids : List Txid) (answered : Prop)
    (result : Except ExecutorErr (List Transaction)) : Prop where
  returns : answered → ∃ txs, result = .ok txs
  txids : ∀ txs, result = .ok txs → txs.map env.computeTxid = txids

namespace Rebuilds

variable {env : Env} {txids : List Txid} {answered : Prop} {α : Type}
  {f : α → Except ExecutorErr (List Transaction)} {a : α}

theorem published {txs : List Transaction} (h : txs.map env.computeTxid = txids) :
    Rebuilds env txids answered (.ok txs) where
  returns _ := ⟨txs, rfl⟩
  txids txs' htxs := by rwa [← Except.ok.inj htxs]

/-- A request whose answer is a part of the condition. -/
theorem bind {x : Except ExecutorErr α} (hx : answered → ∃ a, x = .ok a)
    (h : ∀ a, x = .ok a → Rebuilds env txids answered (f a)) :
    Rebuilds env txids answered (x >>= f) := by
  refine ⟨fun hans => ?_, fun txs htxs => ?_⟩
  · obtain ⟨a, ha⟩ := hx hans
    obtain ⟨txs, htxs⟩ := (h a ha).returns hans
    exact ⟨txs, bind_eq_ok.mpr ⟨a, ha, htxs⟩⟩
  · obtain ⟨a, ha, htxs⟩ := bind_eq_ok.mp htxs
    exact (h a ha).txids txs htxs

variable {answer : Except ClientErr α}

theorem ask_bind (hans : answered → ∃ a, answer = .ok a)
    (h : ∀ a, Rebuilds env txids answered (f a)) : Rebuilds env txids answered (ask answer >>= f) :=
  bind (fun hyp => (hans hyp).imp fun _ => ask_eq_ok.mpr) fun a _ => h a

theorem ask_ok_bind (ha : answer = .ok a) (h : Rebuilds env txids answered (f a)) :
    Rebuilds env txids answered (ask answer >>= f) := by
  subst ha
  exact h

theorem orPanic_bind {x : MayPanic α} (hx : x = .ok a) (h : Rebuilds env txids answered (f a)) :
    Rebuilds env txids answered (orPanic x >>= f) := by
  subst hx
  exact h

end Rebuilds

section Executors

variable {cfg : ExecutionConfig} {depositIdx : ℕ}

variable (hr : Remembers env cfg.operatorTable s2 db depositTxid depositIdx input)
  (hparts : GeneratedGraph.Parts env.toGraphEnv input
    (cfg.operatorTable.txBuildContext cfg.network) depositTxid cfg.pegOutGraphParams
    cfg.connectorParams cfg.stakeChainParams [] claim chain g)

include hr hparts

theorem handlePublishClaim_rebuilds (withdrawalFulfillmentTxid : Txid)
    (hstake : input.withdrawalFulfillmentOutpoint = ⟨stakeTxid, withdrawalFulfillmentVout⟩) :
    Rebuilds env.toEnv [g.graph.claimTx.computeTxid env.toEnv]
      ((Signing.wots256 depositTxid depositVout withdrawalFulfillmentPkIdx
        withdrawalFulfillmentTxid.hash).Answered s2.wots)
      (handlePublishClaim env cfg s2 stakeTxid depositTxid withdrawalFulfillmentTxid) := by
  obtain ⟨pks, hpks, hkeys⟩ := hr.wots
  have hclaim := hparts.newClaim
  rw [hparts.connectors, hstake] at hclaim
  refine .ask_ok_bind (getWithdrawalFulfillmentWotsPk_of_getWotsPks hpks) (.ask_ok_bind hr.key ?_)
  rw [← Wots.PublicKeys.tryFrom_withdrawalFulfillment hkeys]
  refine .orPanic_bind hclaim (.ask_bind id fun _ => ?_)
  rw [hparts.claimTx]
  exact .published rfl

theorem handlePublishPayoutOptimistic_rebuilds (hstake : input.stakeOutpoint.txid = stakeTxid) :
    Rebuilds env.toEnv [g.graph.payoutOptimistic.computeTxid env.toEnv] True
      (handlePublishPayoutOptimistic env cfg s2 db depositTxid
        (g.graph.claimTx.computeTxid env.toEnv) stakeTxid depositIdx) := by
  obtain ⟨preStake, preimg, hpre, hpreimg, hsha⟩ := hr.preimage
  have hpayout := hparts.newPayoutOptimistic
  rw [hparts.connectors, hstake, ← hparts.claimTx] at hpayout
  refine .ask_ok_bind hr.key ?_
  simp only [hpre]
  refine .ask_ok_bind hpreimg ?_
  rw [hsha]
  exact .orPanic_bind hpayout (.published rfl)

theorem handlePublishPreAssert_rebuilds :
    Rebuilds env.toEnv [g.graph.assertChain.preAssert.computeTxid env.toEnv] True
      (handlePublishPreAssert env cfg s2 depositTxid (g.graph.claimTx.computeTxid env.toEnv)) := by
  obtain ⟨pks, hpks, hkeys⟩ := hr.wots
  obtain ⟨hpre, -, -⟩ := AssertChain.new_ok hparts.newChain
  rw [hparts.connectors, ← hparts.claimTx] at hpre
  rw [hparts.assertChain, handlePublishPreAssert, aggregatedBtcKey_eq env.toEnv _ cfg.network]
  refine .ask_ok_bind hr.key (.ask_ok_bind hpks ?_)
  refine .orPanic_bind (createAssertDataConnectors_of_tryFrom cfg.network hkeys) ?_
  exact .orPanic_bind hpre (.published rfl)

theorem handlePublishAssertData_rebuilds (i : ℕ) (scripts : Vector ScriptBuf numAssertDataTx)
    (withdrawalFulfillmentTxid : Txid) (startHeight : BitcoinBlockHeight) :
    Rebuilds env.toEnv (g.graph.assertChain.assertData.map env.computeTxid).toList
      (env.AssertionsAnswered s2.wots depositTxid withdrawalFulfillmentTxid startHeight i)
      (handlePublishAssertData env cfg s2 i depositTxid
        ⟨g.graph.assertChain.preAssert.computeTxid env.toEnv, scripts⟩ withdrawalFulfillmentTxid
        startHeight) := by
  obtain ⟨pks, hpks, hkeys⟩ := hr.wots
  obtain ⟨-, ⟨scripts', -, hdata⟩, -⟩ := AssertChain.new_ok hparts.newChain
  rw [hparts.assertChain, handlePublishAssertData, aggregatedBtcKey_eq env.toEnv _ cfg.network]
  refine .bind ?_ fun assertions hproof => .ask_ok_bind hr.key (.ask_bind ?_ fun _ => ?_)
  · rintro ⟨assertions, hproof, -⟩
    exact ⟨assertions, by rw [hproof]; rfl⟩
  · rintro ⟨assertions', hproof', hans⟩
    rw [hproof'] at hproof
    cases hproof
    exact signAssertions_ok hans
  refine .ask_ok_bind hpks ?_
  refine .orPanic_bind (createAssertDataConnectors_of_tryFrom cfg.network hkeys) (.published ?_)
  have htxs := AssertDataTxBatch.unsignedTxs_new env.toGraphEnv
    (chain.preAssert.computeTxid env.toEnv) scripts scripts' g.connectors.nOfN
    g.connectors.connectorCpfp
  rw [← hdata, hparts.connectors] at htxs
  rw [← htxs, Vector.toList_map, Vector.toList_map]
  rfl

omit hr in
theorem rebuiltConnectorA3_eq (hkeys : Wots.PublicKeys.tryFrom pks = .ok input.wotsPublicKeys) :
    rebuiltConnectorA3 cfg depositTxid (cfg.operatorTable.aggregatedBtcKey env.toEnv) pks =
      .ok g.connectors.postAssertOut0 := by
  rw [rebuiltConnectorA3, hkeys, aggregatedBtcKey_eq env.toEnv _ cfg.network, hparts.connectors]
  rfl

theorem handlePublishPostAssert_rebuilds :
    Rebuilds env.toEnv [g.graph.assertChain.postAssert.computeTxid env.toEnv] True
      (handlePublishPostAssert env cfg s2 depositTxid
        (g.graph.assertChain.assertData.map env.computeTxid)) := by
  obtain ⟨pks, hpks, hkeys⟩ := hr.wots
  obtain ⟨-, -, hpost⟩ := AssertChain.new_ok hparts.newChain
  have htxids : (g.graph.assertChain.assertData.map env.computeTxid).toList =
      chain.assertData.toList.map fun psbt => env.computeTxid psbt.unsignedTx := by
    simp [hparts.assertChain, Vector.toList_map, Function.comp_def]
  refine .ask_ok_bind hr.key (.ask_ok_bind hpks ?_)
  refine .orPanic_bind (rebuiltConnectorA3_eq hparts hkeys) ?_
  rw [htxids, aggregatedBtcKey_eq env.toEnv _ cfg.network]
  rw [hparts.connectors] at hpost ⊢
  refine .orPanic_bind hpost ?_
  rw [hparts.assertChain]
  exact .published rfl

theorem handlePublishPayout_rebuilds (hstake : input.stakeOutpoint.txid = stakeTxid) :
    Rebuilds env.toEnv [g.graph.payoutTx.computeTxid env.toEnv] True
      (handlePublishPayout env cfg s2 db depositIdx depositTxid stakeTxid
        (g.graph.claimTx.computeTxid env.toEnv)
        (g.graph.assertChain.postAssert.computeTxid env.toEnv)) := by
  obtain ⟨pks, hpks, hkeys⟩ := hr.wots
  obtain ⟨data, hrow, hhash⟩ := hr.row
  have hpayout := hparts.newPayout
  refine .ask_ok_bind hr.key (.ask_ok_bind hpks ?_)
  refine .orPanic_bind (rebuiltConnectorA3_eq hparts hkeys) ?_
  simp only [hrow, hhash]
  rw [hparts.assertChain, hparts.claimTx, aggregatedBtcKey_eq env.toEnv _ cfg.network]
  rw [hparts.connectors, hstake] at hpayout
  rw [hparts.connectors]
  exact .orPanic_bind hpayout (.published rfl)

end Executors

/-! ### Duties -/

/-- The services answer the requests for proofs and signatures that the executor of the duty
makes. -/
def FulfillerDuty.Answered (env : ExecutorEnv) (s2 : SecretService) : FulfillerDuty → Prop
  | .publishClaim withdrawalFulfillmentTxid _ depositTxid =>
    (Signing.wots256 depositTxid depositVout withdrawalFulfillmentPkIdx
      withdrawalFulfillmentTxid.hash).Answered s2.wots
  | .publishAssertData withdrawalFulfillmentTxid startHeight depositIdx depositTxid _ _ =>
    env.AssertionsAnswered s2.wots depositTxid withdrawalFulfillmentTxid startHeight depositIdx
  | _ => True

def ContractCfg.execution (cfg : ContractCfg) : ExecutionConfig where
  network := cfg.network
  connectorParams := cfg.connectorParams
  pegOutGraphParams := cfg.pegOutGraphParams
  stakeChainParams := cfg.stakeChainParams
  sidesystemParams := cfg.sidesystemParams
  operatorTable := cfg.operatorTable

def PegOutGraphSummary.ordered (summary : PegOutGraphSummary) : FulfillerDuty → List Txid
  | .initStakeChain | .handleFulfillment .. => []
  | .publishClaim .. => [summary.claimTxid]
  | .publishPayoutOptimistic .. => [summary.payoutOptimisticTxid]
  | .publishPreAssert .. => [summary.preAssertTxid]
  | .publishAssertData .. => summary.assertDataTxids.toList
  | .publishPostAssertData .. => [summary.postAssertTxid]
  | .publishPayout .. => [summary.payoutTxid]

theorem GeneratedGraph.Parts.stakeTxid_summarize {env : GraphEnv} {ctx : TxBuildContext}
    {graphParams : PegOutGraphParams} {connectorParams : ConnectorParams}
    {stakeChainParams : StakeChainParams} {prevClaimTxids : List Txid}
    (h : GeneratedGraph.Parts env input ctx depositTxid graphParams connectorParams
      stakeChainParams prevClaimTxids claim chain g) :
    (g.graph.summarize env.toEnv).stakeTxid = input.withdrawalFulfillmentOutpoint.txid := by
  have hclaim := h.newClaim
  obtain ⟨_, -, hclaim⟩ := bind_eq_ok.mp hclaim
  obtain ⟨_, -, hclaim⟩ := bind_eq_ok.mp hclaim
  obtain ⟨_, -, hclaim⟩ := bind_eq_ok.mp hclaim
  cases hclaim
  rw [PegOutGraph.summarize]
  simp only [h.claimTx]
  rfl

theorem FulfillerDuty.Orders.rebuilds {cfg : ContractCfg}
    (hr : Remembers env cfg.operatorTable s2 db (cfg.depositTxid env.toEnv) cfg.depositIdx input)
    (hparts : GeneratedGraph.Parts env.toGraphEnv input
      (cfg.operatorTable.txBuildContext cfg.network) (cfg.depositTxid env.toEnv)
      cfg.pegOutGraphParams cfg.connectorParams cfg.stakeChainParams [] claim chain g)
    (hstake : input.stakeOutpoint.txid = stakeTxid)
    (hfulfill : input.withdrawalFulfillmentOutpoint = ⟨stakeTxid, withdrawalFulfillmentVout⟩)
    (horders : duty.Orders env.toEnv cfg (input, g.graph.summarize env.toEnv)) :
    Rebuilds env.toEnv ((g.graph.summarize env.toEnv).ordered duty) (duty.Answered env s2)
      (executeFulfillerDuty env cfg.execution s2 db duty) := by
  have hrecorded := hparts.stakeTxid_summarize
  rw [hfulfill] at hrecorded
  cases duty with
  | initStakeChain | handleFulfillment => exact .published rfl
  | publishClaim withdrawalFulfillmentTxid stake deposit =>
    obtain ⟨rfl, rfl⟩ := horders
    rw [hrecorded]
    exact handlePublishClaim_rebuilds hr hparts withdrawalFulfillmentTxid hfulfill
  | publishPayoutOptimistic deposit claimTxid stake index sigs =>
    obtain ⟨rfl, rfl, rfl, rfl⟩ := horders
    rw [hrecorded]
    exact handlePublishPayoutOptimistic_rebuilds hr hparts hstake
  | publishPreAssert index deposit claimTxid sig =>
    obtain ⟨rfl, rfl⟩ := horders
    exact handlePublishPreAssert_rebuilds hr hparts
  | publishAssertData withdrawalFulfillmentTxid startHeight index deposit preAssertTxid scripts =>
    obtain ⟨rfl, rfl⟩ := horders
    exact handlePublishAssertData_rebuilds hr hparts index scripts withdrawalFulfillmentTxid
      startHeight
  | publishPostAssertData deposit txids sigs =>
    obtain ⟨rfl, rfl⟩ := horders
    exact handlePublishPostAssert_rebuilds hr hparts
  | publishPayout index deposit postAssertTxid claimTxid stake sigs =>
    obtain ⟨rfl, rfl, rfl, rfl, rfl⟩ := horders
    exact handlePublishPayout_rebuilds hr hparts rfl

/-- **The executors publish the transactions on record.** When the graph of a withdrawal was made
from what this operator announced itself, every duty that the contract emits for it is executed
with transactions that have the txids in the summary of the graph, and it is executed whenever the
services answer. The database may not lose rows. -/
theorem executors_rebuild_graph {sm sm' : ContractSM} {db₀ db₁ : StakeDb} {w : Withdrawal}
    {ev : ContractEvent} {duties : List OperatorDuty}
    (hrows : OwnRows env sm.cfg.operatorTable s2 preStake db₀)
    (hinputs : inputs.preStakeOutpoint = preStake)
    (hsetup : handlePublishDepositSetup env sm.cfg.operatorTable s2 db₀ (sm.depositTxid env.toEnv)
      sm.cfg.depositIdx inputs fundingUtxo = .ok (db₁, setup)) (hdb : db₁.Extends db)
    (hkeys : Wots.PublicKeys.tryFrom setup.wotsPks = .ok wotsKeys)
    (hgraph : PegOutGraph.generate env.toGraphEnv (setup.graphInput stakeTxid wotsKeys)
      (sm.cfg.operatorTable.txBuildContext sm.cfg.network) (sm.depositTxid env.toEnv)
      sm.cfg.pegOutGraphParams sm.cfg.connectorParams sm.cfg.stakeChainParams [] = .ok g)
    (hw : sm.state.state.withdrawal = some w)
    (hactive : w.activeGraph = (setup.graphInput stakeTxid wotsKeys, g.graph.summarize env.toEnv))
    (hstep : sm.step env.toEnv ev = some (sm', duties)) (hduty : .fulfillerDuty duty ∈ duties) :
    Rebuilds env.toEnv (w.activeGraph.2.ordered duty) (duty.Answered env s2)
      (executeFulfillerDuty env sm.cfg.execution s2 db duty) := by
  obtain ⟨claim, chain, hparts⟩ := PegOutGraph.parts_of_generate hgraph
  have hr := remembers_of_handlePublishDepositSetup hrows hinputs hsetup hdb hkeys stakeTxid
  have horders := ((sm.processContractEvent_orders env.toEnv ev).of_next hstep _ hduty).orders hw
  rw [hactive] at horders ⊢
  exact horders.rebuilds hr hparts rfl rfl

open Linear in
/-- The claim that operator 0 publishes once it has paid a user. -/
theorem claim_rebuilt_after_payment :
    ∃ g, PegOutGraph.generate executorEnv.toGraphEnv
        (firstSetup.graphInput (Linear.stakeTxid 2) (Linear.wotsKeys 0))
        (twoOperators.txBuildContext .regtest)
        ((cfg twoOperators 0 1).depositTxid executorEnv.toEnv) graphParams connectorParams
        stakeParams [] = .ok g ∧
      ∃ txs, executeFulfillerDuty executorEnv (cfg twoOperators 0 1).execution secretService
          (startedDb.addStakeData 0 0 firstSetup.stakeTxData)
          (.publishClaim (executorEnv.computeTxid (fulfillment 0 0 1))
            (g.graph.summarize executorEnv.toEnv).stakeTxid
            ((cfg twoOperators 0 1).depositTxid executorEnv.toEnv)) = .ok txs ∧
        txs.map executorEnv.computeTxid = [(g.graph.summarize executorEnv.toEnv).claimTxid] := by
  obtain ⟨g, hg⟩ := (generate_returns_iff taproot).mpr (.inl rfl)
  have hpaid : isFulfillmentTx executorEnv.toEnv (cfg twoOperators 0 1).network
      (cfg twoOperators 0 1).pegOutGraphParams 0 0
      ((cfg twoOperators 0 1).depositTxid executorEnv.toEnv) ⟨50⟩ (fulfillment 0 0 1) = true := by
    decide +kernel
  let active : ActiveGraph :=
    (firstSetup.graphInput (Linear.stakeTxid 2) (Linear.wotsKeys 0), g.graph.summarize executorEnv.toEnv)
  have hs : (assignedTo0 active).state.state = .assigned (assigned0 active) := rfl
  have hpov : (assignedTo0 active).isPov (assigned0 active).fulfiller = true :=
    decide_eq_true rfl
  obtain ⟨sm', hstep⟩ := ContractSM.step_of_fulfillment 101 hs hpaid hpov
  refine ⟨g, hg, ?_⟩
  have hrows : OwnRows executorEnv (assignedTo0 active).cfg.operatorTable secretService
      ⟨⟨78⟩, 0⟩ startedDb := ownRows_startedDb
  have hsetup : handlePublishDepositSetup executorEnv (assignedTo0 active).cfg.operatorTable
      secretService startedDb ((assignedTo0 active).depositTxid executorEnv.toEnv)
      (assignedTo0 active).cfg.depositIdx ⟨∅, ⟨⟨78⟩, 0⟩⟩ (.ok ⟨⟨79⟩, 0⟩) =
        .ok (startedDb.addStakeData 0 0 firstSetup.stakeTxData, firstSetup) :=
    handlePublishDepositSetup_startedDb _
  have h := executors_rebuild_graph hrows rfl hsetup (.refl _) tryFrom_publishedPks hg rfl rfl hstep
    (mem_singleton.mpr rfl)
  obtain ⟨txs, htxs⟩ := h.returns ⟨_, rfl⟩
  exact ⟨txs, htxs, h.txids txs htxs⟩

end StrataBridge
