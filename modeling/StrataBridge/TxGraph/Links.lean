import StrataBridge.Instance.LinearGraph
import StrataBridge.TxGraph.Generated

/-!
# The links of a peg-out graph

Signatures of a graph are made before any of its transactions is on chain. They commit to the
outputs that the transactions record for their inputs, so every record has to be the output of the
parent that is spent, to the satoshi and the byte. Here this is shown for every input of a
generated graph, whose stake and deposit transactions are built from the same data. The
transactions of version 3, which pay their fees through a child, give out exactly what they take
in.

## References

* `crates/tx-graph/src/peg_out_graph.rs`, lines 140–322, and `crates/tx-graph/src/transactions/`
-/

namespace StrataBridge

open Rust
open List hiding Vector

/-! ### Links -/

section Links

variable (env : Env)

def outputAt (parent : Transaction) (outpoint : OutPoint) : Option TxOut :=
  if env.computeTxid parent = outpoint.txid then parent.output[outpoint.vout]? else none

def LinksOutpoints : List OutPoint → List TxOut → List Transaction → Prop
  | [], [], [] => True
  | outpoint :: outpoints, prevout :: prevouts, parent :: parents =>
    outputAt env parent outpoint = some prevout ∧ LinksOutpoints outpoints prevouts parents
  | _, _, _ => False

def Links (tx : Transaction) (prevouts : List TxOut) (parents : List Transaction) : Prop :=
  LinksOutpoints env (tx.input.map TxIn.previousOutput) prevouts parents

variable {env}

@[simp] theorem outputAt_self (parent : Transaction) (vout : ℕ) :
    outputAt env parent ⟨env.computeTxid parent, vout⟩ = parent.output[vout]? := by
  simp [outputAt]

theorem LinksOutpoints.replicate (env : Env) (parents : List Transaction) (prevout : TxOut)
    (h : ∀ parent ∈ parents, parent.output[0]? = some prevout) :
    LinksOutpoints env (parents.map fun parent => ⟨env.computeTxid parent, 0⟩)
      (replicate parents.length prevout) parents := by
  induction parents with
  | nil => trivial
  | cons parent parents ih =>
    refine ⟨?_, ih fun p hp => h p (mem_cons_of_mem _ hp)⟩
    rw [outputAt_self]
    exact h parent mem_cons_self

end Links

section Linked

variable {env : GraphEnv} {input : PegOutGraphInput} {ctx : TxBuildContext} {depositTxid : Txid}
  {graphParams : PegOutGraphParams} {connectorParams : ConnectorParams}
  {stakeChainParams : StakeChainParams} {prevClaimTxids : List Txid} {g : GeneratedGraph}
  {claim : ClaimPsbt} {chain : AssertChainPsbts}

/-! ### The parents from outside the graph -/

variable (env ctx stakeChainParams input) in
/-- The stake transaction that a graph hangs on, built from the data of the graph: the first one
of a stake chain or a later one. -/
inductive IsStakeTx : StakeTx → Prop
  | head (preStake funds : OutPoint) :
      IsStakeTx (.newHead env.toEnv ctx stakeChainParams input.stakeHash
        input.wotsPublicKeys.withdrawalFulfillment preStake funds input.operatorPubkey)
  | tail (funds : OutPoint) (prevHash : Sha256Hash) (prevStake : OutPoint) :
      IsStakeTx (.newTail env.toEnv ctx stakeChainParams
        ⟨funds, input.stakeHash, input.wotsPublicKeys.withdrawalFulfillment, input.operatorPubkey⟩
        prevHash prevStake)

variable {sidesystemParams : RollupParams} {data : DepositRequestData} {cpfp : ConnectorCpfp}
  {deposit : DepositTx} {a2 : ConnectorNOfN} {stake : StakeTx}

theorem IsStakeTx.output (h : IsStakeTx env input ctx stakeChainParams stake) :
    stake.unsignedTx.output[withdrawalFulfillmentVout]? = some ⟨fundingAmount,
        env.connectorK ctx.network input.wotsPublicKeys.withdrawalFulfillment⟩ ∧
      stake.unsignedTx.output[stakePayoutVout]? = some (dustOut env
        (env.connectorP (ctx.aggregatedPubkey env.toEnv) input.stakeHash ctx.network)) ∧
      stake.unsignedTx.output[stakeVout]? = some ⟨stakeChainParams.stakeAmount,
        env.connectorStake (ctx.aggregatedPubkey env.toEnv) input.operatorPubkey input.stakeHash
          stakeChainParams.delta ctx.network⟩ := by
  cases h with
  | head => exact ⟨rfl, rfl, rfl⟩
  | tail => exact ⟨rfl, rfl, rfl⟩

/-! ### Links and balances -/

variable (env) in
/-- A claim of the operators behind a connector, for whatever deposit. -/
def IsClaimOf (nOfN : ConnectorNOfN) (tx : Transaction) : Prop :=
  ∃ stakeOutpoint k c0 c1 cpfp claim,
    ClaimTx.new env stakeOutpoint k c0 c1 nOfN cpfp = .ok claim ∧ tx = claim.tx.unsignedTx

variable (env) in
/-- Every input of every transaction of a graph records the output of the parent that it spends:
of the stake transaction, the deposit, the claim, the pre-assert, the assert-data transactions, the
post-assert, or the claim for an earlier deposit. -/
structure GeneratedGraph.Linked (g : GeneratedGraph) (stake deposit : Transaction)
    (prevClaimTxids : List Txid) : Prop where
  claim : Links env.toEnv g.graph.claimTx.unsignedTx [g.claimPrevout] [stake]
  challenge : Links env.toEnv g.graph.challengeTx.unsignedTx g.graph.challengeTx.prevouts
    [g.graph.claimTx.unsignedTx]
  payoutOptimistic : Links env.toEnv g.graph.payoutOptimistic.unsignedTx
    g.graph.payoutOptimistic.prevouts
    [deposit, g.graph.claimTx.unsignedTx, g.graph.claimTx.unsignedTx, g.graph.claimTx.unsignedTx,
      stake]
  preAssert : Links env.toEnv g.graph.assertChain.preAssert.unsignedTx
    g.graph.assertChain.preAssert.prevouts [g.graph.claimTx.unsignedTx]
  assertData : ∀ i, Links env.toEnv (g.graph.assertChain.assertData.get i)
    [g.assertDataPrevouts.get i] [g.graph.assertChain.preAssert.unsignedTx]
  postAssert : Links env.toEnv g.graph.assertChain.postAssert.unsignedTx
    g.graph.assertChain.postAssert.prevouts g.graph.assertChain.assertData.toList
  payout : Links env.toEnv g.graph.payoutTx.unsignedTx g.graph.payoutTx.prevouts
    [deposit, g.graph.assertChain.postAssert.unsignedTx, g.graph.claimTx.unsignedTx, stake]
  disprove : Links env.toEnv g.graph.disproveTx.unsignedTx g.graph.disproveTx.prevouts
    [stake, g.graph.assertChain.postAssert.unsignedTx]
  slashStake : List.Forall₂ (fun txid (tx : CovenantTx 2) => ∀ prevClaim,
    IsClaimOf env g.connectors.nOfN prevClaim → env.computeTxid prevClaim = txid →
      Links env.toEnv tx.unsignedTx tx.prevouts [prevClaim, stake])
    prevClaimTxids g.graph.slashStakeTxs

structure GeneratedGraph.Balanced (g : GeneratedGraph) : Prop where
  claim : totalValue [g.claimPrevout] = totalValue g.graph.claimTx.unsignedTx.output
  payoutOptimistic : totalValue g.graph.payoutOptimistic.prevouts =
    totalValue g.graph.payoutOptimistic.unsignedTx.output
  preAssert : totalValue g.graph.assertChain.preAssert.prevouts =
    totalValue g.graph.assertChain.preAssert.unsignedTx.output
  assertData : ∀ i, totalValue [g.assertDataPrevouts.get i] =
    totalValue (g.graph.assertChain.assertData.get i).output
  postAssert : totalValue g.graph.assertChain.postAssert.prevouts =
    totalValue g.graph.assertChain.postAssert.unsignedTx.output
  payout : totalValue g.graph.payoutTx.prevouts = totalValue g.graph.payoutTx.unsignedTx.output

private theorem get_map {T U : Type} {n : ℕ} (f : T → U) (v : Vector T n) (i : Fin n) :
    (v.map f).get i = f (v.get i) :=
  Vector.getElem_map f i.isLt

theorem AssertDataTxBatch.of_new (henv : env.Taproot) {input : AssertDataTxInput}
    {batch : Vector Psbt numAssertDataTx} (h : batch = AssertDataTxBatch.new env input a2 cpfp)
    (i : Fin numAssertDataTx) :
    (batch.get i).unsignedTx.output = [⟨segwitMinAmount, a2.lockingScript env⟩,
        ⟨segwitMinAmount, cpfp.generateLockingScript env⟩] ∧
      (batch.get i).prevout = ⟨segwitMinAmount * 2, input.preAssertLockingScripts.get i⟩ := by
  simp [h, get_new, psbt, Transaction.version3, createTx, dustOut, henv.nonDust_nOfN,
    henv.nonDust_cpfp]

/-- **The links of an assert chain.** -/
theorem AssertChain.links_of_new (henv : env.Taproot) {claimTxid : Txid} {c0 : ConnectorC0}
    {a3 : ConnectorA3} {aHash : ConnectorAHashFactory} {a256 : ConnectorA256Factory}
    (h : AssertChain.new env claimTxid c0 a2 a3 cpfp aHash a256 = .ok chain) :
    (∀ i, Links env.toEnv (chain.assertData.get i).unsignedTx [(chain.assertData.get i).prevout]
        [chain.preAssert.unsignedTx]) ∧
      Links env.toEnv chain.postAssert.unsignedTx chain.postAssert.prevouts
        (chain.assertData.toList.map Psbt.unsignedTx) := by
  obtain ⟨hpre, ⟨scripts, hscripts, hdata⟩, hpost⟩ := AssertChain.new_ok h
  obtain ⟨hpreOut, -, -⟩ := PreAssertTx.of_new henv hpre
  obtain ⟨-, hpostPrev⟩ := PostAssertTx.of_new henv hpost
  have hlen := PreAssertTx.length_scripts env a256 aHash
  -- the scripts of the assert-data transactions are those of the outputs before the CPFP output
  have hscript (i : Fin numAssertDataTx) :
      chain.preAssert.unsignedTx.output[i.val]? = some ⟨segwitMinAmount * 2, scripts.get i⟩ := by
    have hi : i.val < (PreAssertTx.scripts env a256 aHash).length := hlen.symm ▸ i.isLt
    have hall : scripts.toList = PreAssertTx.scripts env a256 aHash := by
      rw [hscripts, hpreOut, map_append, map_map]
      simp only [Function.comp_def, map_id']
      rw [← hlen, take_left]
    have hval : (PreAssertTx.scripts env a256 aHash)[i.val]? = some (scripts.get i) := by
      rw [← hall, Vector.getElem?_toList]
      exact Vector.getElem?_eq_getElem i.isLt
    rw [hpreOut, getElem?_append_left (by simpa using hi), getElem?_map, hval]
    rfl
  constructor
  · intro i
    rw [Links, AssertDataTxBatch.input_of_new hdata i, (AssertDataTxBatch.of_new henv hdata i).2]
    refine ⟨?_, trivial⟩
    exact (outputAt_self _ _).trans (hscript i)
  · have hlink := LinksOutpoints.replicate env.toEnv
      (chain.assertData.toList.map Psbt.unsignedTx) ⟨segwitMinAmount, a2.lockingScript env⟩ (by
        intro tx htx
        obtain ⟨psbt, hpsbt, rfl⟩ := mem_map.mp htx
        obtain ⟨i, hi, rfl⟩ := Vector.mem_iff_getElem.mp (Vector.mem_toList_iff.mp hpsbt)
        exact congrArg (·[0]?) (AssertDataTxBatch.of_new henv hdata ⟨i, hi⟩).1)
    rw [Links, PostAssertTx.input_of_new hpost, hpostPrev]
    simpa [Function.comp_def] using hlink

theorem SlashStakeTx.of_new (henv : env.Taproot) {stakeOutpoint claimOutpoint : OutPoint}
    {network : Network} {nOfN : ConnectorNOfN} {stakeConn : ConnectorStake} {tx : CovenantTx 2}
    (h : SlashStakeTx.new env stakeOutpoint claimOutpoint network stakeChainParams nOfN stakeConn =
      .ok tx) :
    tx.unsignedTx.input.map TxIn.previousOutput = [claimOutpoint, stakeOutpoint] ∧
      tx.prevouts = [⟨segwitMinAmount, nOfN.lockingScript env⟩,
        ⟨stakeChainParams.stakeAmount, stakeConn.lockingScript env⟩] := by
  simp only [SlashStakeTx.new, dustOut, henv.nonDust_nOfN] at h
  obtain ⟨remaining, -, h⟩ := MayPanic.bind_eq_ok.mp h
  cases h
  exact ⟨by simp [createTx], rfl⟩

theorem DepositTx.output_of_new {env : Env} {params : PegOutGraphParams}
    (h : DepositTx.new env data ctx params sidesystemParams = .ok deposit) :
    deposit.tx.unsignedTx.output[0]? = some ⟨params.depositAmount,
      env.taprootScriptPubkey ctx.network (ctx.aggregatedPubkey env) []⟩ := by
  rw [DepositTx.new] at h
  split_ifs at h
  cases h
  rfl

theorem GeneratedGraph.Parts.balanced (henv : env.Taproot)
    (h : GeneratedGraph.Parts env input ctx depositTxid graphParams connectorParams
      stakeChainParams prevClaimTxids claim chain g) : g.Balanced := by
  obtain ⟨-, hclaimOut, hclaimPrev⟩ := ClaimTx.of_new henv h.newClaim
  obtain ⟨hpre, ⟨scripts, -, hdata⟩, hpost⟩ := AssertChain.new_ok h.newChain
  obtain ⟨hpostOut, hpostPrev⟩ := PostAssertTx.of_new henv hpost
  constructor
  case claim =>
    rw [h.claimPrevout, h.claimTx, hclaimPrev, hclaimOut]
    simp [totalValue, claimNetAmount, fundingAmount, segwitMinAmount]
  case payoutOptimistic => exact (PayoutOptimisticTx.of_new henv h.newPayoutOptimistic).2
  case preAssert =>
    rw [h.assertChain]
    exact (PreAssertTx.of_new henv hpre).2.2
  case assertData =>
    intro i
    obtain ⟨hout, hprev⟩ := AssertDataTxBatch.of_new henv hdata i
    rw [h.assertDataPrevouts, h.assertChain, get_map, get_map, hout, hprev]
    simp [totalValue, segwitMinAmount]
  case postAssert =>
    rw [h.assertChain, hpostOut, hpostPrev]
    simp [totalValue, postAssertNetAmount, segwitMinAmount, numAssertDataTx]
  case payout => exact (PayoutTx.of_new henv h.newPayout).2

/-- **Generated graphs are linked and balanced.** When the deposit and the stake transaction are
built from the data of the graph, every input of the graph records the output that it spends, and
every transaction of version 3 gives out what it takes in. -/
theorem generate_linked_balanced (henv : env.Taproot)
    (hgen : PegOutGraph.generate env input ctx depositTxid graphParams connectorParams
      stakeChainParams prevClaimTxids = .ok g)
    (hstake : IsStakeTx env input ctx stakeChainParams stake)
    (hstakeOut : input.stakeOutpoint = ⟨stake.computeTxid env.toEnv, stakeVout⟩)
    (hfulfillmentOut : input.withdrawalFulfillmentOutpoint =
      ⟨stake.computeTxid env.toEnv, withdrawalFulfillmentVout⟩)
    (hdeposit : DepositTx.new env.toEnv data ctx graphParams sidesystemParams = .ok deposit)
    (hdepositTxid : depositTxid = deposit.tx.computeTxid env.toEnv) :
    g.Linked env stake.unsignedTx deposit.tx.unsignedTx prevClaimTxids ∧ g.Balanced := by
  obtain ⟨claim, chain, h⟩ := PegOutGraph.parts_of_generate hgen
  refine ⟨?_, h.balanced henv⟩
  obtain ⟨hclaimIn, hclaimOut, hclaimPrev⟩ := ClaimTx.of_new henv h.newClaim
  obtain ⟨hoptPrev, -⟩ := PayoutOptimisticTx.of_new henv h.newPayoutOptimistic
  obtain ⟨hpayPrev, -⟩ := PayoutTx.of_new henv h.newPayout
  obtain ⟨hpre, -, hpost⟩ := AssertChain.new_ok h.newChain
  obtain ⟨-, hprePrev, -⟩ := PreAssertTx.of_new henv hpre
  obtain ⟨hpostOut, -⟩ := PostAssertTx.of_new henv hpost
  obtain ⟨hdataLinks, hpostLinks⟩ := AssertChain.links_of_new henv h.newChain
  -- the outputs of all parents, in terms of the connectors of the graph
  have hd : deposit.tx.unsignedTx.output[0]? =
      some ⟨graphParams.depositAmount, g.connectors.nOfN.lockingScript env⟩ := by
    rw [DepositTx.output_of_new hdeposit, h.connectors]
    rfl
  obtain ⟨hk, hp, hs⟩ : stake.unsignedTx.output[withdrawalFulfillmentVout]? =
        some ⟨fundingAmount, g.connectors.kickoff.lockingScript env⟩ ∧
      stake.unsignedTx.output[stakePayoutVout]? =
        some (dustOut env (g.connectors.hashlockPayout.lockingScript env)) ∧
      stake.unsignedTx.output[stakeVout]? =
        some ⟨stakeChainParams.stakeAmount, g.connectors.stake.lockingScript env⟩ := by
    rw [h.connectors]
    exact hstake.output
  have hclaim (vout : ℕ) : outputAt env.toEnv claim.tx.unsignedTx
      ⟨claim.tx.computeTxid env.toEnv, vout⟩ = claim.tx.unsignedTx.output[vout]? :=
    outputAt_self _ _
  rw [hclaimOut] at hclaim
  have hpostAssert : outputAt env.toEnv chain.postAssert.unsignedTx
      ⟨chain.postAssert.computeTxid env.toEnv, 0⟩ =
        some ⟨postAssertNetAmount, g.connectors.postAssertOut0.generateLockingScript env⟩ :=
    (outputAt_self _ _).trans (congrArg (·[0]?) hpostOut)
  have hstakeAt (vout : ℕ) : outputAt env.toEnv stake.unsignedTx
      ⟨stake.computeTxid env.toEnv, vout⟩ = stake.unsignedTx.output[vout]? :=
    outputAt_self _ _
  have hdepositAt : outputAt env.toEnv deposit.tx.unsignedTx ⟨depositTxid, 0⟩ =
      deposit.tx.unsignedTx.output[0]? := by
    rw [hdepositTxid]
    exact outputAt_self _ _
  constructor
  case claim =>
    rw [Links, h.claimTx, h.claimPrevout, hclaimIn, hclaimPrev, hfulfillmentOut]
    exact ⟨(hstakeAt _).trans hk, trivial⟩
  case challenge =>
    rw [h.challengeTx, h.claimTx]
    refine ⟨(hclaim _).trans ?_, trivial⟩
    rw [dustOut, henv.nonDust_c1]
    rfl
  case payoutOptimistic =>
    rw [Links, PayoutOptimisticTx.input_of_new h.newPayoutOptimistic, hoptPrev, h.claimTx,
      hstakeOut]
    exact ⟨hdepositAt.trans hd, hclaim 0, hclaim 1, hclaim 2, (hstakeAt _).trans hp, trivial⟩
  case preAssert =>
    rw [Links, h.assertChain, PreAssertTx.input_of_new hpre, hprePrev, h.claimTx]
    exact ⟨hclaim 0, trivial⟩
  case assertData =>
    intro i
    rw [h.assertChain, h.assertDataPrevouts, get_map, get_map]
    exact hdataLinks i
  case postAssert =>
    rw [h.assertChain, Vector.toList_map]
    exact hpostLinks
  case payout =>
    rw [Links, PayoutTx.input_of_new h.newPayout, hpayPrev, h.assertChain, h.claimTx, hstakeOut]
    exact ⟨hdepositAt.trans hd, hpostAssert, hclaim 2, (hstakeAt _).trans hp, trivial⟩
  case disprove =>
    rw [h.disproveTx, h.assertChain, hstakeOut]
    exact ⟨(hstakeAt _).trans hs, hpostAssert, trivial⟩
  case slashStake =>
    refine h.newSlashStake.imp fun txid tx hnew prevClaim hprev htxid => ?_
    obtain ⟨stakeOutpoint, k, c0, c1, cpfp, prev, hprev, rfl⟩ := hprev
    obtain ⟨hin, hprevouts⟩ := SlashStakeTx.of_new henv hnew
    rw [Links, hin, hprevouts, hstakeOut, ← htxid]
    refine ⟨(outputAt_self _ _).trans ?_, (hstakeAt _).trans hs, trivial⟩
    rw [(ClaimTx.of_new henv hprev).2.1]
    rfl

end Linked

/-- A graph of the linear instance, with a claim that could slash the stake. -/
theorem linear_graph_linked_balanced : ∃ g,
    PegOutGraph.generate Linear.graphEnv Linear.graphInput Linear.graphCtx
      (Linear.graphDeposit.tx.computeTxid Linear.graphEnv.toEnv) Linear.graphParams
      Linear.connectorParams Linear.slashParams [⟨80⟩] = .ok g ∧
    g.Linked Linear.graphEnv Linear.graphStake.unsignedTx Linear.graphDeposit.tx.unsignedTx [⟨80⟩] ∧
    g.Balanced := by
  have hburn : segwitMinAmount ≤ Linear.slashParams.burnAmount := by decide
  obtain ⟨g, hg⟩ := (generate_returns_iff Linear.taproot).mpr (.inr hburn)
  exact ⟨g, hg, generate_linked_balanced Linear.taproot hg (.head _ _) rfl rfl
    Linear.new_requestData rfl⟩

end StrataBridge
