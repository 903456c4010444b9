import StrataBridge.Instance.LinearGraph
import StrataBridge.TxGraph.Generated
import Mathlib.Data.List.FinRange

/-!
# The inpoints of a peg-out graph

An inpoint names an input that all operators sign: the txid of its own transaction, and its index.
The signer derives its secret nonce from it, so no inpoint may be used for two messages. Within a
graph the signed transactions differ in what they spend. Between graphs every one of them but the
slash-stake transactions hangs on the claim, through a chain of txids; a slash-stake transaction
spends the stake and an earlier claim only, so that two graphs may have it in common.

## References

* `crates/tx-graph/src/peg_out_graph.rs`, lines 140–322 and 347–469
-/

namespace StrataBridge

open Rust Linear SlashStakeTx PegOutGraph
open List hiding Vector

namespace PogMusigF

variable {T : Type}

def shape (g : PogMusigF T) : PogMusigF Unit := g.map fun _ => ()

theorem shape_map {U : Type} (f : T → U) (g : PogMusigF T) : (g.map f).shape = g.shape := by
  simp [shape, map, Function.comp_def]

end PogMusigF

namespace PegOutGraph

variable {T : Type} (g : PegOutGraph)

/-- The transactions that all operators sign, in the order in which their inputs are packed. -/
def covenantTxs : List (Σ n, CovenantTx n) :=
  ⟨_, g.challengeTx⟩ :: ⟨_, g.assertChain.preAssert⟩ :: ⟨_, g.assertChain.postAssert⟩ ::
    ⟨_, g.payoutOptimistic⟩ :: ⟨_, g.payoutTx⟩ :: ⟨_, g.disproveTx⟩ ::
    g.slashStakeTxs.map fun tx => ⟨_, tx⟩

def signedInputs : PogMusigF (Σ tx : Σ n, CovenantTx n, Fin tx.1) :=
  g.musig fun {n} tx => Vector.ofFn fun i => ⟨⟨n, tx⟩, i⟩

private theorem get_ofFn {n : ℕ} (f : Fin n → T) (i : Fin n) : (Vector.ofFn f).get i = f i :=
  Vector.getElem_ofFn i.isLt

theorem musig_eq_map (read : ∀ {n : ℕ}, CovenantTx n → Vector T n) :
    g.musig read = g.signedInputs.map fun input => (read input.1.2).get input.2 := by
  have hread {n : ℕ} (tx : CovenantTx n) : (Vector.ofFn fun i =>
      (⟨⟨n, tx⟩, i⟩ : Σ tx : Σ n, CovenantTx n, Fin tx.1)).map
        (fun input => (read input.1.2).get input.2) = read tx := by
    ext i hi
    simp [Vector.get]
  simp only [musig, signedInputs, PogMusigF.map, hread, map_map]
  rfl

theorem pack_signedInputs : g.signedInputs.pack =
    g.covenantTxs.flatMap fun tx => ofFn fun i => ⟨tx, i⟩ := by
  simp only [signedInputs, musig, PogMusigF.pack, covenantTxs, Vector.toList_ofFn,
    flatMap_cons, flatMap_map]
  rfl

def txs : List Transaction :=
  g.covenantTxs.map (fun tx => tx.2.unsignedTx) ++ g.assertChain.assertData.toList

/-- The inpoints of a graph: the functors that go with them have their shape, no inpoint is there
twice, and at every place of the packed functors stand the values of the signed input that the
inpoint names. -/
structure InpointsSound (env : Env) (g : PegOutGraph) : Prop where
  shape : (g.musigSighashes env).shape = (g.musigInpoints env).shape ∧
    g.musigWitnesses.shape = (g.musigInpoints env).shape ∧
    g.musigSighashTypes.shape = (g.musigInpoints env).shape
  nodup : (g.musigInpoints env).pack.Nodup
  named : ∀ (k : ℕ) (inpoint : OutPoint), (g.musigInpoints env).pack[k]? = some inpoint →
    ∃ tx ∈ g.covenantTxs,
      (∀ tx' ∈ g.covenantTxs, tx'.2.computeTxid env = inpoint.txid ↔ tx' = tx) ∧
      ∃ i : Fin tx.1, (i : ℕ) = inpoint.vout ∧
        (g.musigSighashes env).pack[k]? = some ((tx.2.sighashes env).get i) ∧
        g.musigWitnesses.pack[k]? = some (tx.2.witnesses.get i) ∧
        g.musigSighashTypes.pack[k]? = some (tx.2.sighashTypes.get i)

theorem musigInpoints_eq (env : Env) (g : PegOutGraph) :
    g.musigInpoints env = g.signedInputs.map fun input =>
      ⟨input.1.2.computeTxid env, input.2⟩ := by
  rw [musigInpoints, musig_eq_map]
  simp only [get_ofFn]

theorem mem_musigInpoints {env : Env} {g : PegOutGraph} {inpoint : OutPoint} :
    inpoint ∈ (g.musigInpoints env).pack ↔ ∃ tx ∈ g.covenantTxs,
      tx.2.computeTxid env = inpoint.txid ∧ inpoint.vout < tx.1 := by
  rw [musigInpoints_eq, PogMusigF.pack_map, pack_signedInputs]
  simp only [mem_map, mem_flatMap, mem_ofFn]
  constructor
  · rintro ⟨_, ⟨tx, htx, i, rfl⟩, rfl⟩
    exact ⟨tx, htx, rfl, i.isLt⟩
  · rintro ⟨tx, htx, htxid, hlt⟩
    exact ⟨_, ⟨tx, htx, ⟨inpoint.vout, hlt⟩, rfl⟩, by rw [htxid]⟩

theorem inpointsSound_of_nodup {env : Env} {g : PegOutGraph}
    (h : (g.covenantTxs.map fun tx => tx.2.computeTxid env).Nodup) : g.InpointsSound env where
  shape := by
    simp [musigSighashes, musigInpoints, musigWitnesses, musigSighashTypes, musig_eq_map g,
      PogMusigF.shape_map]
  nodup := by
    rw [musigInpoints_eq, PogMusigF.pack_map, pack_signedInputs, map_flatMap, nodup_flatMap]
    refine ⟨fun tx _ => ?_, ?_⟩
    · rw [map_ofFn, nodup_ofFn]
      intro i j hij
      exact Fin.ext (OutPoint.mk.inj hij).2
    · refine (pairwise_map.mp h).imp fun hne => ?_
      simp only [map_ofFn, disjoint_left, mem_ofFn]
      rintro _ ⟨i, rfl⟩ ⟨j, hj⟩
      exact hne (OutPoint.mk.inj hj).1.symm
  named k inpoint hk := by
    rw [musigInpoints_eq, PogMusigF.pack_map, getElem?_map, Option.map_eq_some_iff] at hk
    obtain ⟨⟨tx, i⟩, hk, rfl⟩ := hk
    have htx : tx ∈ g.covenantTxs := by
      have hmem := mem_of_getElem? hk
      rw [pack_signedInputs, mem_flatMap] at hmem
      obtain ⟨tx', htx', hi⟩ := hmem
      obtain ⟨j, hj⟩ := mem_ofFn.mp hi
      rwa [← (Sigma.mk.inj hj).1]
    refine ⟨tx, htx, fun tx' htx' => ⟨fun htxid => inj_on_of_nodup_map h htx' htx htxid, ?_⟩,
      i, rfl, ?_⟩
    · rintro rfl
      rfl
    · rw [musigSighashes, musigWitnesses, musigSighashTypes]
      simp only [musig_eq_map g, PogMusigF.pack_map, getElem?_map, hk, Option.map_some]
      exact ⟨trivial, trivial, trivial⟩

end PegOutGraph

/-- What a signed transaction of a graph spends and pays. It hangs on the claim of the graph, on
its first assert-data transaction or on its post-assert, or it slashes the stake for an earlier
claim. -/
inductive Spends (claim assertData postAssert : Txid) (stake : OutPoint) (prevClaims : List Txid)
    (burn burn' : TxOut) : List OutPoint → List TxOut → Prop
  | challenge {outs} : Spends _ _ _ _ _ _ _ [⟨claim, 1⟩] outs
  | preAssert {outs} : Spends _ _ _ _ _ _ _ [⟨claim, 0⟩] outs
  | postAssert {ins outs} (hlen : ins.length = numAssertDataTx)
      (hhead : ins.head? = some ⟨assertData, 0⟩) : Spends _ _ _ _ _ _ _ ins outs
  | payoutOptimistic {deposit payoutStake outs} :
      Spends _ _ _ _ _ _ _ [deposit, ⟨claim, 0⟩, ⟨claim, 1⟩, ⟨claim, 2⟩, payoutStake] outs
  | payout {deposit payoutStake outs} :
      Spends _ _ _ _ _ _ _ [deposit, ⟨postAssert, 0⟩, ⟨claim, 2⟩, payoutStake] outs
  | disprove {out} : Spends _ _ _ _ _ _ _ [stake, ⟨postAssert, 0⟩] [out]
  | slashStake {prev} (hprev : prev ∈ prevClaims) :
      Spends _ _ _ _ _ _ _ [⟨prev, 2⟩, stake] [burn, burn']

/-- A transaction of two graphs hangs on the same transaction in both, or slashes the same stake. -/
theorem Spends.common {claim claim' assertData assertData' postAssert postAssert' : Txid}
    {stake stake' : OutPoint} {prevClaims prevClaims' : List Txid}
    {burn₁ burn₂ burn₁' burn₂' : TxOut} {ins : List OutPoint} {outs : List TxOut}
    (h : Spends claim assertData postAssert stake prevClaims burn₁ burn₂ ins outs)
    (h' : Spends claim' assertData' postAssert' stake' prevClaims' burn₁' burn₂' ins outs) :
    claim = claim' ∨ assertData = assertData' ∨ postAssert = postAssert' ∨
      stake = stake' ∧ burn₂ = burn₂' ∧ ∃ prev ∈ prevClaims, prev ∈ prevClaims' := by
  cases h with
  | challenge | preAssert | payoutOptimistic | payout =>
    cases h' with
    | postAssert hlen => cases hlen
    | _ => exact .inl rfl
  | postAssert hlen hhead =>
    cases h' with
    | postAssert hlen' hhead' =>
      exact .inr (.inl (OutPoint.mk.inj (Option.some.inj (hhead.symm.trans hhead'))).1)
    | _ => cases hlen
  | disprove =>
    cases h' with
    | disprove => exact .inr (.inr (.inl rfl))
    | postAssert hlen => cases hlen
  | slashStake hprev =>
    cases h' with
    | slashStake hprev' => exact .inr (.inr (.inr ⟨rfl, rfl, _, hprev, hprev'⟩))
    | postAssert hlen => cases hlen

def signedOutpoints (claim postAssert : Txid) (deposit payoutStake stake : OutPoint)
    (assertData : List OutPoint) (prevClaims : List Txid) : List (List OutPoint) :=
  [⟨claim, 1⟩] :: [⟨claim, 0⟩] :: assertData ::
    [deposit, ⟨claim, 0⟩, ⟨claim, 1⟩, ⟨claim, 2⟩, payoutStake] ::
    [deposit, ⟨postAssert, 0⟩, ⟨claim, 2⟩, payoutStake] :: [stake, ⟨postAssert, 0⟩] ::
    prevClaims.map fun prev => [⟨prev, 2⟩, stake]

theorem nodup_signedOutpoints (claim postAssert : Txid) (deposit payoutStake stake : OutPoint)
    {assertData : List OutPoint} {prevClaims : List Txid}
    (hlen : assertData.length = numAssertDataTx) (hprev : prevClaims.Nodup) :
    (signedOutpoints claim postAssert deposit payoutStake stake assertData prevClaims).Nodup := by
  have hslash (prev : Txid) : ([⟨prev, 2⟩, stake] : List OutPoint) ≠ [stake, ⟨postAssert, 0⟩] := by
    intro h
    cases h
  have hmap : (prevClaims.map fun prev => ([⟨prev, 2⟩, stake] : List OutPoint)).Nodup :=
    hprev.map fun _ _ h => (OutPoint.mk.inj (cons.inj h).1).1
  -- the post-assert has more inputs than any other
  match assertData, hlen with
  | _ :: _ :: _ :: _ :: _ :: _ :: _, _ =>
    simp only [signedOutpoints, nodup_cons, mem_map, not_exists, not_and]
    refine ⟨?_, ?_, ?_, ?_, ?_, ⟨fun prev _ => hslash prev, hmap⟩⟩
    all_goals simp

def SlashStakeTx.unsigned (env : GraphEnv) (stake : OutPoint) (network : Network) (burnAmount : ℕ)
    (claimTxid : Txid) : Transaction :=
  createTx (createTxIns [⟨claimTxid, slashStakeVout⟩, stake])
    [⟨segwitMinAmount, burnScript env network⟩,
      ⟨burnAmount - segwitMinAmount, burnScript env network⟩]

theorem SlashStakeTx.unsignedTx_of_new {env : GraphEnv} {stake : OutPoint} {claimTxid : Txid}
    {network : Network} {params : StakeChainParams} {claimConn : ConnectorNOfN}
    {stakeConn : ConnectorStake} {tx : CovenantTx 2}
    (h : new env stake ⟨claimTxid, slashStakeVout⟩ network params claimConn stakeConn = .ok tx) :
    tx.unsignedTx = unsigned env stake network params.burnAmount claimTxid := by
  obtain ⟨remaining, hsub, h⟩ := MayPanic.bind_eq_ok.mp h
  obtain ⟨-, hremaining⟩ := Amount.sub_eq_ok.mp hsub
  cases h
  rw [unsigned, hremaining]

section Graphs

variable {env : GraphEnv} {input input' : PegOutGraphInput} {ctx ctx' : TxBuildContext}
  {depositTxid depositTxid' : Txid} {graphParams graphParams' : PegOutGraphParams}
  {connectorParams connectorParams' : ConnectorParams}
  {stakeChainParams stakeChainParams' : StakeChainParams}
  {prevClaimTxids prevClaimTxids' : List Txid} {claim claim' : ClaimPsbt}
  {chain chain' : AssertChainPsbts} {g g' : GeneratedGraph}

namespace GeneratedGraph.Parts

variable (h : GeneratedGraph.Parts env input ctx depositTxid graphParams connectorParams
  stakeChainParams prevClaimTxids claim chain g)

include h

theorem map_slashStakeTxs : g.graph.slashStakeTxs.map CovenantTx.unsignedTx =
    prevClaimTxids.map (unsigned env input.stakeOutpoint ctx.network
      stakeChainParams.burnAmount) := by
  rw [eq_comm, ← forall₂_eq_eq_eq, forall₂_map_left_iff, forall₂_map_right_iff]
  exact h.newSlashStake.imp fun _ _ hnew => (unsignedTx_of_new hnew).symm

theorem map_outpoints :
    (g.graph.covenantTxs.map fun tx => tx.2.unsignedTx.input.map TxIn.previousOutput) =
      signedOutpoints (claim.tx.computeTxid env.toEnv) (chain.postAssert.computeTxid env.toEnv)
        ⟨depositTxid, 0⟩ ⟨input.stakeOutpoint.txid, 1⟩ input.stakeOutpoint
        (chain.assertData.toList.map fun psbt => ⟨env.computeTxid psbt.unsignedTx, 0⟩)
        prevClaimTxids := by
  obtain ⟨hpre, -, hpost⟩ := AssertChain.new_ok h.newChain
  have hslash : (g.graph.slashStakeTxs.map fun tx =>
      tx.unsignedTx.input.map TxIn.previousOutput) =
      prevClaimTxids.map fun txid => [⟨txid, 2⟩, input.stakeOutpoint] := by
    have hinputs := congrArg (map fun tx => tx.input.map TxIn.previousOutput) h.map_slashStakeTxs
    rwa [map_map, map_map] at hinputs
  simp only [covenantTxs, map_cons, map_map, Function.comp_def, hslash,
    PayoutOptimisticTx.input_of_new h.newPayoutOptimistic, PayoutTx.input_of_new h.newPayout,
    h.assertChain, PreAssertTx.input_of_new hpre, PostAssertTx.input_of_new hpost, h.challengeTx,
    h.disproveTx]
  rfl

theorem head?_postAssert :
    (chain.postAssert.unsignedTx.input.map TxIn.previousOutput).head? =
      some ⟨env.computeTxid (chain.assertData.get ⟨0, by decide⟩).unsignedTx, 0⟩ := by
  obtain ⟨-, -, hpost⟩ := AssertChain.new_ok h.newChain
  rw [PostAssertTx.input_of_new hpost, map_map, head?_map, head?_eq_getElem?,
    Vector.getElem?_toList]
  rfl

theorem spends {tx : Σ n, CovenantTx n} (htx : tx ∈ g.graph.covenantTxs) :
    Spends (claim.tx.computeTxid env.toEnv)
      (env.computeTxid (chain.assertData.get ⟨0, by decide⟩).unsignedTx)
      (chain.postAssert.computeTxid env.toEnv) input.stakeOutpoint prevClaimTxids
      ⟨segwitMinAmount, burnScript env ctx.network⟩
      ⟨stakeChainParams.burnAmount - segwitMinAmount, burnScript env ctx.network⟩
      (tx.2.unsignedTx.input.map TxIn.previousOutput) tx.2.unsignedTx.output := by
  obtain ⟨hpre, -, hpost⟩ := AssertChain.new_ok h.newChain
  simp only [covenantTxs, mem_cons, mem_map] at htx
  rcases htx with rfl | rfl | rfl | rfl | rfl | rfl | ⟨tx, htx, rfl⟩
  · rw [h.challengeTx]
    exact .challenge
  · simp only [h.assertChain, PreAssertTx.input_of_new hpre]
    exact .preAssert
  · simp only [h.assertChain, PostAssertTx.input_of_new hpost]
    exact .postAssert (by simp) (PostAssertTx.input_of_new hpost ▸ h.head?_postAssert)
  · simp only [PayoutOptimisticTx.input_of_new h.newPayoutOptimistic]
    exact .payoutOptimistic
  · simp only [PayoutTx.input_of_new h.newPayout]
    exact .payout
  · rw [h.disproveTx]
    exact .disprove
  · obtain ⟨txid, htxid, heq⟩ := mem_map.mp
      (h.map_slashStakeTxs ▸ mem_map_of_mem (f := CovenantTx.unsignedTx) htx)
    rw [← heq]
    exact .slashStake htxid

theorem mem_txs : chain.preAssert.unsignedTx ∈ g.graph.txs ∧
    (∀ i, (chain.assertData.get i).unsignedTx ∈ g.graph.txs) ∧
    chain.postAssert.unsignedTx ∈ g.graph.txs := by
  simp only [txs, covenantTxs, h.assertChain]
  refine ⟨by simp, fun i => mem_append_right _ ?_, by simp⟩
  rw [Vector.toList_map]
  exact mem_map_of_mem (Vector.mem_toList_iff.mpr (Vector.getElem_mem i.isLt))

theorem le_burnAmount {txid : Txid} (htxid : txid ∈ prevClaimTxids) :
    segwitMinAmount ≤ stakeChainParams.burnAmount := by
  have hall := h.newSlashStake
  generalize g.graph.slashStakeTxs = txs at hall
  cases hall with
  | nil => cases htxid
  | cons hnew _ => exact new_returns_iff.mp ⟨_, hnew⟩

theorem exists_slashStakeTx {txid : Txid} (htxid : txid ∈ prevClaimTxids) :
    ∃ tx : CovenantTx 2, ⟨2, tx⟩ ∈ g.graph.covenantTxs ∧ tx.unsignedTx =
      unsigned env input.stakeOutpoint ctx.network stakeChainParams.burnAmount
        txid := by
  obtain ⟨tx, htx, heq⟩ := mem_map.mp (h.map_slashStakeTxs ▸ mem_map_of_mem htxid)
  exact ⟨tx, by simp [covenantTxs, htx], heq⟩

theorem nodup_txids (hprev : prevClaimTxids.Nodup) (htxids : env.TxidsDistinct g.graph.txs) :
    (g.graph.covenantTxs.map fun tx => tx.2.computeTxid env.toEnv).Nodup := by
  have hnodup : (g.graph.covenantTxs.map fun tx =>
      tx.2.unsignedTx.input.map TxIn.previousOutput).Nodup := by
    rw [h.map_outpoints]
    exact nodup_signedOutpoints _ _ _ _ _ (by simp) hprev
  refine pairwise_map.mpr ((pairwise_map.mp hnodup).imp_of_mem ?_)
  intro tx tx' htx htx' hne heq
  exact hne (htxids.same (mem_append_left _ (mem_map_of_mem htx))
    (mem_append_left _ (mem_map_of_mem htx')) heq).1

end GeneratedGraph.Parts

section Pairs

variable (h : GeneratedGraph.Parts env input ctx depositTxid graphParams connectorParams
    stakeChainParams prevClaimTxids claim chain g)
  (h' : GeneratedGraph.Parts env input' ctx' depositTxid' graphParams' connectorParams'
    stakeChainParams' prevClaimTxids' claim' chain' g')
  (htxids : env.TxidsDistinct (g.graph.txs ++ g'.graph.txs))

include h h' htxids

theorem claim_eq_of_assertData
    (heq : env.computeTxid (chain.assertData.get ⟨0, by decide⟩).unsignedTx =
      env.computeTxid (chain'.assertData.get ⟨0, by decide⟩).unsignedTx) :
    claim.tx.computeTxid env.toEnv = claim'.tx.computeTxid env.toEnv := by
  obtain ⟨hpre, ⟨scripts, -, hdata⟩, -⟩ := AssertChain.new_ok h.newChain
  obtain ⟨hpre', ⟨scripts', -, hdata'⟩, -⟩ := AssertChain.new_ok h'.newChain
  obtain ⟨hpreMem, hdataMem, -⟩ := h.mem_txs
  obtain ⟨hpreMem', hdataMem', -⟩ := h'.mem_txs
  have hdatas := (htxids.same (mem_append_left _ (hdataMem _))
    (mem_append_right _ (hdataMem' _)) heq).1
  rw [AssertDataTxBatch.input_of_new hdata, AssertDataTxBatch.input_of_new hdata'] at hdatas
  have hpres := (htxids.same (mem_append_left _ hpreMem) (mem_append_right _ hpreMem')
    (OutPoint.mk.inj (cons.inj hdatas).1).1).1
  rw [PreAssertTx.input_of_new hpre, PreAssertTx.input_of_new hpre'] at hpres
  exact (OutPoint.mk.inj (cons.inj hpres).1).1

theorem assertData_eq_of_postAssert
    (heq : chain.postAssert.computeTxid env.toEnv = chain'.postAssert.computeTxid env.toEnv) :
    env.computeTxid (chain.assertData.get ⟨0, by decide⟩).unsignedTx =
      env.computeTxid (chain'.assertData.get ⟨0, by decide⟩).unsignedTx := by
  have hposts := (htxids.same (mem_append_left _ h.mem_txs.2.2)
    (mem_append_right _ h'.mem_txs.2.2) heq).1
  have hheads := h.head?_postAssert.symm.trans ((congrArg head? hposts).trans h'.head?_postAssert)
  exact (OutPoint.mk.inj (Option.some.inj hheads)).1

theorem exists_inpoint_iff
    (hclaim : claim.tx.computeTxid env.toEnv ≠ claim'.tx.computeTxid env.toEnv) :
    (∃ inpoint ∈ (g.graph.musigInpoints env.toEnv).pack,
        inpoint ∈ (g'.graph.musigInpoints env.toEnv).pack) ↔
      input.stakeOutpoint = input'.stakeOutpoint ∧
        stakeChainParams.burnAmount = stakeChainParams'.burnAmount ∧
        burnScript env ctx.network = burnScript env ctx'.network ∧
        ∃ txid ∈ prevClaimTxids, txid ∈ prevClaimTxids' := by
  simp only [mem_musigInpoints]
  constructor
  · rintro ⟨inpoint, ⟨tx, htx, htxid, -⟩, tx', htx', htxid', -⟩
    obtain ⟨hins, houts⟩ := htxids.same (mem_append_left _ (mem_append_left _ (mem_map_of_mem htx)))
      (mem_append_right _ (mem_append_left _ (mem_map_of_mem htx')))
      (htxid.trans htxid'.symm)
    have hspends := h.spends htx
    rw [hins, houts] at hspends
    rcases hspends.common (h'.spends htx') with
      heq | heq | heq | ⟨hstake, hburn, txid, hprev, hprev'⟩
    · exact absurd heq hclaim
    · exact absurd (claim_eq_of_assertData h h' htxids heq) hclaim
    · exact absurd (claim_eq_of_assertData h h' htxids
        (assertData_eq_of_postAssert h h' htxids heq)) hclaim
    · obtain ⟨hvalue, hscript⟩ := TxOut.mk.inj hburn
      refine ⟨hstake, ?_, hscript, txid, hprev, hprev'⟩
      have hle := h.le_burnAmount hprev
      have hle' := h'.le_burnAmount hprev'
      omega
  · rintro ⟨hstake, hburn, hscript, txid, hprev, hprev'⟩
    obtain ⟨tx, htx, heq⟩ := h.exists_slashStakeTx hprev
    obtain ⟨tx', htx', heq'⟩ := h'.exists_slashStakeTx hprev'
    have hsame : tx.unsignedTx = tx'.unsignedTx := by
      rw [heq, heq', unsigned, unsigned, hstake, hburn, hscript]
    exact ⟨⟨tx.computeTxid env.toEnv, 0⟩, ⟨_, htx, rfl, Nat.zero_lt_two⟩, _, htx',
      congrArg env.computeTxid hsame.symm, Nat.zero_lt_two⟩

end Pairs

/-- **The inpoints of generated graphs.** In a graph with distinct earlier claims the functors have
one shape, no inpoint is there twice, and the packed values are those of the inputs that the packed
inpoints name. Graphs with different claims share an inpoint exactly when they slash the same stake
for the same earlier claim and burn the same; in particular they share none when their stakes
differ. -/
theorem generated_inpoints
    (hgen : generate env input ctx depositTxid graphParams connectorParams
      stakeChainParams prevClaimTxids = .ok g)
    (hgen' : generate env input' ctx' depositTxid' graphParams' connectorParams'
      stakeChainParams' prevClaimTxids' = .ok g')
    (hprev : prevClaimTxids.Nodup) (htxids : env.TxidsDistinct (g.graph.txs ++ g'.graph.txs)) :
    g.graph.InpointsSound env.toEnv ∧
      (g.graph.claimTx.computeTxid env.toEnv ≠ g'.graph.claimTx.computeTxid env.toEnv →
        ((∃ inpoint ∈ (g.graph.musigInpoints env.toEnv).pack,
            inpoint ∈ (g'.graph.musigInpoints env.toEnv).pack) ↔
          input.stakeOutpoint = input'.stakeOutpoint ∧
            stakeChainParams.burnAmount = stakeChainParams'.burnAmount ∧
            burnScript env ctx.network = burnScript env ctx'.network ∧
            ∃ txid ∈ prevClaimTxids, txid ∈ prevClaimTxids')) := by
  obtain ⟨claim, chain, h⟩ := parts_of_generate hgen
  obtain ⟨claim', chain', h'⟩ := parts_of_generate hgen'
  refine ⟨inpointsSound_of_nodup (h.nodup_txids hprev fun tx htx tx' htx' =>
    htxids tx (mem_append_left _ htx) tx' (mem_append_left _ htx')), fun hclaim => ?_⟩
  rw [h.claimTx, h'.claimTx] at hclaim
  exact exists_inpoint_iff h h' htxids hclaim

end Graphs

/-- The graph of operator 0 with the given funding output of its claim and the given earlier
claim. -/
def Linear.slashable (funding prev : ℕ) : MayPanic GeneratedGraph :=
  PegOutGraph.generate graphEnv
    { graphInput with withdrawalFulfillmentOutpoint := ⟨⟨BitVec.ofNat 256 funding⟩, 0⟩ }
    graphCtx ⟨77⟩ graphParams connectorParams slashParams
    [⟨BitVec.ofNat 256 prev⟩]

/-- Two graphs with different claims whose transactions have different txids. -/
def GeneratedGraph.Apart (env : GraphEnv) (g g' : GeneratedGraph) : Prop :=
  env.TxidsDistinct (g.graph.txs ++ g'.graph.txs) ∧
    g.graph.claimTx.computeTxid env.toEnv ≠ g'.graph.claimTx.computeTxid env.toEnv

instance (env : GraphEnv) (g g' : GeneratedGraph) : Decidable (g.Apart env g') :=
  inferInstanceAs (Decidable (_ ∧ _))

theorem exists_of_evaluated {x y : MayPanic GeneratedGraph}
    {p : GeneratedGraph → GeneratedGraph → Bool}
    (h : (match x, y with | .ok g, .ok g' => p g g' | _, _ => false) = true) :
    ∃ g g', x = .ok g ∧ y = .ok g' ∧ p g g' = true := by
  split at h
  next g g' => exact ⟨g, g', rfl, rfl, h⟩
  next => cases h

/-- Graphs with one stake and different earlier claims share no inpoint. -/
theorem generated_inpoints_slashable : ∃ g g',
    Linear.slashable 1 80 = .ok g ∧ Linear.slashable 2 81 = .ok g' ∧ g.Apart graphEnv g' ∧
    g.graph.InpointsSound graphEnv.toEnv ∧
    ¬∃ inpoint ∈ (g.graph.musigInpoints graphEnv.toEnv).pack,
      inpoint ∈ (g'.graph.musigInpoints graphEnv.toEnv).pack := by
  obtain ⟨g, g', hg, hg', hapart⟩ :=
    exists_of_evaluated (x := Linear.slashable 1 80) (y := Linear.slashable 2 81)
    (p := fun g g' => decide (g.Apart graphEnv g')) (by decide +kernel)
  have hapart := of_decide_eq_true hapart
  obtain ⟨hsound, hshared⟩ := generated_inpoints hg hg' (nodup_singleton _) hapart.1
  refine ⟨g, g', hg, hg', hapart, hsound, fun h => ?_⟩
  obtain ⟨-, -, -, txid, hprev, hprev'⟩ := (hshared hapart.2).mp h
  rw [mem_singleton] at hprev hprev'
  exact absurd (hprev.symm.trans hprev') (by decide)

/-- **Graphs with different claims may share an inpoint.** They slash the same stake for the same
earlier claim, in the same transaction. -/
theorem slashStake_inpoint_shared : ∃ g g',
    Linear.slashable 1 80 = .ok g ∧ Linear.slashable 2 80 = .ok g' ∧ g.Apart graphEnv g' ∧
    ∃ inpoint ∈ (g.graph.musigInpoints graphEnv.toEnv).pack,
      inpoint ∈ (g'.graph.musigInpoints graphEnv.toEnv).pack := by
  obtain ⟨g, g', hg, hg', h⟩ :=
    exists_of_evaluated (x := Linear.slashable 1 80) (y := Linear.slashable 2 80)
    (p := fun g g' => decide (g.Apart graphEnv g' ∧
      ∃ inpoint ∈ (g.graph.musigInpoints graphEnv.toEnv).pack,
        inpoint ∈ (g'.graph.musigInpoints graphEnv.toEnv).pack)) (by decide +kernel)
  exact ⟨g, g', hg, hg', of_decide_eq_true h⟩

end StrataBridge
