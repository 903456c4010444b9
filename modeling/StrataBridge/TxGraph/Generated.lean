import StrataBridge.TxGraph.Transactions

/-!
# Generated peg-out graphs

What the constructors of the transactions of a graph spend, pay and record, and how a generated
graph is put together from them. The constructors are written with subtractions of amounts that
panic below zero; a graph is always generated, except that there has to be enough to burn when
earlier claims can slash the stake.

## References

* `crates/tx-graph/src/peg_out_graph.rs`, lines 140–322, and `crates/tx-graph/src/transactions/`
-/

namespace StrataBridge

open Rust MayPanic
open List hiding Vector

variable {cpfp : ConnectorCpfp} {aHash : ConnectorAHashFactory} {a256 : ConnectorA256Factory}
  {nOfN : ConnectorNOfN}

variable {claimTxid : Txid} {c0 : ConnectorC0} {a2 : ConnectorNOfN} {a3 : ConnectorA3}
  {c1 : ConnectorC1} {p : ConnectorP}

/-! ### What the constructors build -/

@[simp] theorem map_previousOutput_createTxIns (utxos : List OutPoint) :
    (createTxIns utxos).map TxIn.previousOutput = utxos := by
  simp [createTxIns, Function.comp_def]

@[simp] theorem map_previousOutput_waitFor (index blocks : ℕ) (inputs : List TxIn) :
    (waitFor index blocks inputs).map TxIn.previousOutput = inputs.map TxIn.previousOutput := by
  rw [waitFor]
  induction inputs generalizing index with
  | nil => simp
  | cons input inputs ih => cases index <;> simp [ih]

/-- A subtraction of amounts returns exactly if it does not go below zero. -/
theorem Amount.sub_eq_ok {a b c : ℕ} : Amount.sub a b = .ok c ↔ b ≤ a ∧ c = a - b := by
  rw [Amount.sub]
  split_ifs with h
  · simp [h, eq_comm]
  · simp [h]

section Build

variable {env : GraphEnv}

/-- A payout pays out what it spends. -/
theorem totalValue_payoutOutputs {prevouts outs : List TxOut}
    {operatorScript cpfpScript : ScriptBuf}
    (h : payoutOutputs env prevouts operatorScript cpfpScript = .ok outs) :
    totalValue outs = totalValue prevouts := by
  obtain ⟨amount, hsub, h⟩ := bind_eq_ok.mp h
  obtain ⟨hle, rfl⟩ := Amount.sub_eq_ok.mp hsub
  cases h
  simp only [totalValue, dustOut, map_cons, map_nil, sum_cons, sum_nil] at hle ⊢
  omega

theorem Wots.toList_of_sized {T : Type} {n : ℕ} {l : List T} {v : Vector T n}
    (h : Wots.sized n l = some v) : v.toList = l := by
  rw [Wots.sized] at h
  split_ifs at h
  cases h
  rfl

/-- The pre-assert has an output for each assert-data transaction. -/
theorem PreAssertTx.length_scripts (env : GraphEnv) (a256 : ConnectorA256Factory)
    (aHash : ConnectorAHashFactory) :
    (PreAssertTx.scripts env a256 aHash).length = numAssertDataTx := by
  simp [PreAssertTx.scripts, ConnectorA256Factory.lockingScripts,
    ConnectorAHashFactory.lockingScripts, keyBatch, numFieldConnectorsBatch1,
    numFieldConnectorsBatch2, numHashConnectorsBatch1, numHashConnectorsBatch2, numAssertDataTx]

/-- **How an assert chain is put together.** -/
theorem AssertChain.new_ok {chain : AssertChainPsbts}
    (h : AssertChain.new env claimTxid c0 a2 a3 cpfp aHash a256 = .ok chain) :
    PreAssertTx.new env claimTxid c0 cpfp a256 aHash = .ok chain.preAssert ∧
      (∃ scripts : Vector ScriptBuf numAssertDataTx,
        scripts.toList =
          (chain.preAssert.unsignedTx.output.map TxOut.scriptPubkey).take numAssertDataTx ∧
        chain.assertData =
          AssertDataTxBatch.new env ⟨chain.preAssert.computeTxid env.toEnv, scripts⟩ a2 cpfp) ∧
      PostAssertTx.new env (chain.assertData.toList.map fun psbt => env.computeTxid psbt.unsignedTx)
        a2 a3 cpfp = .ok chain.postAssert := by
  obtain ⟨preAssert, hpre, h⟩ := bind_eq_ok.mp h
  split at h
  · cases h
  next scripts hscripts =>
    obtain ⟨postAssert, hpost, h⟩ := bind_eq_ok.mp h
    cases h
    exact ⟨hpre, ⟨scripts, Wots.toList_of_sized hscripts, rfl⟩, hpost⟩

/-! ### What the transactions spend -/

variable {tx : CovenantTx numPayoutOptimisticInputs} {data : PayoutOptimisticData}

/-- What an optimistic payout spends. -/
theorem PayoutOptimisticTx.input_of_new
    (h : PayoutOptimisticTx.new env data c0 c1 nOfN p cpfp = .ok tx) :
    tx.unsignedTx.input.map TxIn.previousOutput =
      [⟨data.depositTxid, 0⟩, ⟨data.claimTxid, 0⟩, ⟨data.claimTxid, 1⟩, ⟨data.claimTxid, 2⟩,
        data.stakeOutpoint] := by
  obtain ⟨outs, -, h⟩ := bind_eq_ok.mp h
  cases h
  simp [Transaction.version3, createTx]

/-- What a payout spends. -/
theorem PayoutTx.input_of_new {data : PayoutData} {tx : CovenantTx numPayoutInputs}
    (h : PayoutTx.new env data a3 nOfN p cpfp = .ok tx) :
    tx.unsignedTx.input.map TxIn.previousOutput =
      [⟨data.depositTxid, 0⟩, ⟨data.postAssertTxid, 0⟩, data.claimOutpoint,
        data.stakeOutpoint] := by
  obtain ⟨outs, -, h⟩ := bind_eq_ok.mp h
  cases h
  simp [Transaction.version3, createTx]

/-- A pre-assert spends the first output of the claim. -/
theorem PreAssertTx.input_of_new {tx : CovenantTx 1}
    (h : PreAssertTx.new env claimTxid c0 cpfp a256 aHash = .ok tx) :
    tx.unsignedTx.input.map TxIn.previousOutput = [⟨claimTxid, 0⟩] := by
  obtain ⟨net, -, h⟩ := bind_eq_ok.mp h
  cases h
  simp [Transaction.version3, createTx]

theorem AssertDataTxBatch.get_new (input : AssertDataTxInput) (a2 : ConnectorNOfN)
    (cpfp : ConnectorCpfp) (i : Fin numAssertDataTx) :
    (AssertDataTxBatch.new env input a2 cpfp).get i = psbt env input a2 cpfp i :=
  Vector.getElem_ofFn i.isLt

/-- An assert-data transaction spends the output of the pre-assert with its index. -/
theorem AssertDataTxBatch.input_of_new {input : AssertDataTxInput}
    {batch : Vector Psbt numAssertDataTx} (h : batch = AssertDataTxBatch.new env input a2 cpfp)
    (i : Fin numAssertDataTx) :
    (batch.get i).unsignedTx.input.map TxIn.previousOutput = [⟨input.preAssertTxid, i⟩] := by
  rw [h, get_new]
  rfl

/-- A post-assert spends the first output of every assert-data transaction. -/
theorem PostAssertTx.input_of_new {txids : List Txid} {tx : CovenantTx numPostAssertInputs}
    (h : PostAssertTx.new env txids a2 a3 cpfp = .ok tx) :
    tx.unsignedTx.input.map TxIn.previousOutput = txids.map (⟨·, 0⟩) := by
  obtain ⟨net, -, h⟩ := bind_eq_ok.mp h
  cases h
  simp [Transaction.version3, createTx]

variable (henv : env.Taproot)

include henv

/-- What a claim spends, pays and records. -/
theorem ClaimTx.of_new {stakeOutpoint : OutPoint} {k : ConnectorK} {claim : ClaimPsbt}
    (h : ClaimTx.new env stakeOutpoint k c0 c1 nOfN cpfp = .ok claim) :
    claim.tx.unsignedTx.input.map TxIn.previousOutput = [stakeOutpoint] ∧
      claim.tx.unsignedTx.output = [⟨claimNetAmount, c0.generateLockingScript env⟩,
        ⟨segwitMinAmount, c1.generateLockingScript env⟩,
        ⟨segwitMinAmount, nOfN.lockingScript env⟩,
        ⟨segwitMinAmount, cpfp.generateLockingScript env⟩] ∧
      claim.prevout = ⟨fundingAmount, k.lockingScript env⟩ := by
  simp only [ClaimTx.new, dustOut, henv.nonDust_c1, henv.nonDust_nOfN, henv.nonDust_cpfp] at h
  obtain ⟨afterC1, h1, h⟩ := bind_eq_ok.mp h
  obtain ⟨afterC2, h2, h⟩ := bind_eq_ok.mp h
  obtain ⟨c0Amt, h3, h⟩ := bind_eq_ok.mp h
  obtain ⟨-, rfl⟩ := Amount.sub_eq_ok.mp h1
  obtain ⟨-, rfl⟩ := Amount.sub_eq_ok.mp h2
  cases h
  exact ⟨rfl, rfl, rfl⟩

/-- What an optimistic payout records, and pays out in full. -/
theorem PayoutOptimisticTx.of_new (h : PayoutOptimisticTx.new env data c0 c1 nOfN p cpfp = .ok tx) :
    tx.prevouts = [⟨data.depositAmount, nOfN.lockingScript env⟩,
        ⟨claimNetAmount, c0.generateLockingScript env⟩,
        ⟨segwitMinAmount, c1.generateLockingScript env⟩,
        ⟨segwitMinAmount, nOfN.lockingScript env⟩, dustOut env (p.lockingScript env)] ∧
      totalValue tx.prevouts = totalValue tx.unsignedTx.output := by
  obtain ⟨outs, houts, h⟩ := bind_eq_ok.mp h
  cases h
  refine ⟨?_, (totalValue_payoutOutputs houts).symm⟩
  simp only [dustOut, henv.nonDust_c1, henv.nonDust_nOfN]

/-- What a payout records, and pays out in full. -/
theorem PayoutTx.of_new {data : PayoutData} {tx : CovenantTx numPayoutInputs}
    (h : PayoutTx.new env data a3 nOfN p cpfp = .ok tx) :
    tx.prevouts = [⟨data.depositAmount, nOfN.lockingScript env⟩,
        ⟨postAssertNetAmount, a3.generateLockingScript env⟩,
        ⟨segwitMinAmount, nOfN.lockingScript env⟩, dustOut env (p.lockingScript env)] ∧
      totalValue tx.prevouts = totalValue tx.unsignedTx.output := by
  obtain ⟨outs, houts, h⟩ := bind_eq_ok.mp h
  cases h
  refine ⟨?_, (totalValue_payoutOutputs houts).symm⟩
  simp only [dustOut, henv.nonDust_nOfN]

theorem PreAssertTx.isP2tr_of_mem {script : ScriptBuf}
    (h : script ∈ PreAssertTx.scripts env a256 aHash) : isP2tr script = true := by
  rcases mem_append.mp h with h | h <;>
  · obtain ⟨keys, -, rfl⟩ := mem_map.mp h
    exact henv.isP2tr_createTaprootAddr _ _

theorem PreAssertTx.outputs_eq (cpfp : ConnectorCpfp) (a256 : ConnectorA256Factory)
    (aHash : ConnectorAHashFactory) :
    PreAssertTx.outputs env cpfp a256 aHash =
      (PreAssertTx.scripts env a256 aHash).map (⟨segwitMinAmount * 2, ·⟩) ++
        [⟨segwitMinAmount, cpfp.generateLockingScript env⟩] := by
  have hscripts : ((PreAssertTx.scripts env a256 aHash).map fun script =>
      (⟨env.minimalNonDust script * 2, script⟩ : TxOut)) =
      (PreAssertTx.scripts env a256 aHash).map (⟨segwitMinAmount * 2, ·⟩) :=
    map_congr_left fun script hscript => by
      rw [henv.nonDust script (isP2tr_of_mem henv hscript)]
  rw [PreAssertTx.outputs, hscripts, dustOut, henv.nonDust_cpfp]

theorem PreAssertTx.totalValue_outputs (cpfp : ConnectorCpfp) (a256 : ConnectorA256Factory)
    (aHash : ConnectorAHashFactory) :
    totalValue (PreAssertTx.outputs env cpfp a256 aHash) = claimNetAmount := by
  have hsum : ((PreAssertTx.scripts env a256 aHash).map fun _ => segwitMinAmount * 2).sum =
      numAssertDataTx * (segwitMinAmount * 2) := by
    rw [map_const', sum_replicate_nat, length_scripts]
  rw [PreAssertTx.outputs_eq henv]
  simp only [totalValue, map_append, map_map, Function.comp_def, sum_append, hsum]
  rfl

/-- What a pre-assert pays and records. -/
theorem PreAssertTx.of_new {tx : CovenantTx 1}
    (h : PreAssertTx.new env claimTxid c0 cpfp a256 aHash = .ok tx) :
    tx.unsignedTx.output = (PreAssertTx.scripts env a256 aHash).map (⟨segwitMinAmount * 2, ·⟩) ++
        [⟨segwitMinAmount, cpfp.generateLockingScript env⟩] ∧
      tx.prevouts = [⟨claimNetAmount, c0.generateLockingScript env⟩] ∧
      totalValue tx.prevouts = totalValue tx.unsignedTx.output := by
  obtain ⟨net, -, h⟩ := bind_eq_ok.mp h
  cases h
  exact ⟨PreAssertTx.outputs_eq henv cpfp a256 aHash, rfl,
    (PreAssertTx.totalValue_outputs henv cpfp a256 aHash).symm⟩

/-- What a post-assert pays and records. -/
theorem PostAssertTx.of_new {txids : List Txid} {tx : CovenantTx numPostAssertInputs}
    (h : PostAssertTx.new env txids a2 a3 cpfp = .ok tx) :
    tx.unsignedTx.output = [⟨postAssertNetAmount, a3.generateLockingScript env⟩,
        ⟨segwitMinAmount, cpfp.generateLockingScript env⟩] ∧
      tx.prevouts = replicate numAssertDataTx ⟨segwitMinAmount, a2.lockingScript env⟩ := by
  simp only [PostAssertTx.new, dustOut, henv.nonDust_cpfp, henv.nonDust_nOfN] at h
  obtain ⟨net, hnet, h⟩ := bind_eq_ok.mp h
  obtain ⟨-, rfl⟩ := Amount.sub_eq_ok.mp hnet
  cases h
  exact ⟨rfl, rfl⟩

end Build

/-! ### Generated graphs -/

section Generated

variable {env : GraphEnv} {input : PegOutGraphInput} {ctx : TxBuildContext} {depositTxid : Txid}
  {graphParams : PegOutGraphParams} {connectorParams : ConnectorParams}
  {stakeChainParams : StakeChainParams} {prevClaimTxids : List Txid} {g : GeneratedGraph}
  {claim : ClaimPsbt} {chain : AssertChainPsbts}

variable (env input ctx depositTxid graphParams connectorParams stakeChainParams prevClaimTxids) in
/-- The transactions of a graph, each with the constructor that built it. -/
structure GeneratedGraph.Parts (claim : ClaimPsbt) (chain : AssertChainPsbts) (g : GeneratedGraph) :
    Prop where
  connectors : g.connectors = PegOutGraphConnectors.new env ctx depositTxid connectorParams
    input.operatorPubkey input.stakeHash stakeChainParams.delta input.wotsPublicKeys
  newClaim : ClaimTx.new env input.withdrawalFulfillmentOutpoint g.connectors.kickoff
    g.connectors.claimOut0 g.connectors.claimOut1 g.connectors.nOfN g.connectors.connectorCpfp =
      .ok claim
  claimTx : g.graph.claimTx = claim.tx
  claimPrevout : g.claimPrevout = claim.prevout
  challengeTx : g.graph.challengeTx = ChallengeTx.new env
    ⟨⟨claim.tx.computeTxid env.toEnv, challengeVout⟩, graphParams.challengeCost,
      input.operatorPubkey, ctx.network⟩ g.connectors.claimOut1
  newPayoutOptimistic : PayoutOptimisticTx.new env
    ⟨claim.tx.computeTxid env.toEnv, depositTxid, ⟨input.stakeOutpoint.txid, stakePayoutVout⟩,
      graphParams.depositAmount, input.operatorPubkey, ctx.network⟩
    g.connectors.claimOut0 g.connectors.claimOut1 g.connectors.nOfN g.connectors.hashlockPayout
    g.connectors.connectorCpfp = .ok g.graph.payoutOptimistic
  newChain : AssertChain.new env (claim.tx.computeTxid env.toEnv) g.connectors.claimOut0
    g.connectors.nOfN g.connectors.postAssertOut0 g.connectors.connectorCpfp
    g.connectors.assertDataHashFactory g.connectors.assertData256Factory = .ok chain
  assertChain : g.graph.assertChain =
    ⟨chain.preAssert, chain.assertData.map Psbt.unsignedTx, chain.postAssert⟩
  assertDataPrevouts : g.assertDataPrevouts = chain.assertData.map Psbt.prevout
  newPayout : PayoutTx.new env
    ⟨chain.postAssert.computeTxid env.toEnv, depositTxid,
      ⟨claim.tx.computeTxid env.toEnv, slashStakeVout⟩,
      ⟨input.stakeOutpoint.txid, stakePayoutVout⟩, graphParams.depositAmount,
      input.operatorPubkey, ctx.network⟩
    g.connectors.postAssertOut0 g.connectors.nOfN g.connectors.hashlockPayout
    g.connectors.connectorCpfp = .ok g.graph.payoutTx
  disproveTx : g.graph.disproveTx = DisproveTx.new env (chain.postAssert.computeTxid env.toEnv)
    input.stakeOutpoint ctx.network stakeChainParams.stakeAmount stakeChainParams.burnAmount
    g.connectors.postAssertOut0 g.connectors.stake
  newSlashStake : List.Forall₂ (fun txid tx => SlashStakeTx.new env input.stakeOutpoint
    ⟨txid, slashStakeVout⟩ ctx.network stakeChainParams g.connectors.nOfN g.connectors.stake =
      .ok tx) prevClaimTxids g.graph.slashStakeTxs

/-- **How a generated graph is put together.** -/
theorem PegOutGraph.parts_of_generate
    (h : PegOutGraph.generate env input ctx depositTxid graphParams connectorParams
      stakeChainParams prevClaimTxids = .ok g) :
    ∃ claim chain, GeneratedGraph.Parts env input ctx depositTxid graphParams connectorParams
      stakeChainParams prevClaimTxids claim chain g := by
  obtain ⟨claim, hclaim, h⟩ := bind_eq_ok.mp h
  obtain ⟨payoutOptimistic, hopt, h⟩ := bind_eq_ok.mp h
  obtain ⟨chain, hchain, h⟩ := bind_eq_ok.mp h
  obtain ⟨payout, hpayout, h⟩ := bind_eq_ok.mp h
  obtain ⟨slash, hslash, h⟩ := bind_eq_ok.mp h
  cases h
  exact ⟨claim, chain, rfl, hclaim, rfl, rfl, rfl, hopt, hchain, rfl, rfl, hpayout, rfl,
    forall₂_of_mapM hslash⟩

end Generated

/-! ### When a graph is generated -/

section Returns

variable {env : GraphEnv}

theorem Amount.sub_of_le {a b : ℕ} (h : b ≤ a) : Amount.sub a b = .ok (a - b) := if_pos h

theorem Wots.exists_sized {T : Type} {n : ℕ} {l : List T} (h : l.length = n) :
    ∃ v, Wots.sized n l = some v :=
  ⟨_, dif_pos h⟩

variable (henv : env.Taproot)

include henv

/-- A claim can always be built. -/
theorem ClaimTx.new_returns (stakeOutpoint : OutPoint) (k : ConnectorK) (c0 : ConnectorC0)
    (c1 : ConnectorC1) (nOfN : ConnectorNOfN) (cpfp : ConnectorCpfp) :
    ∃ claim, ClaimTx.new env stakeOutpoint k c0 c1 nOfN cpfp = .ok claim := by
  simp only [ClaimTx.new, henv.nonDust_c1, henv.nonDust_nOfN, henv.nonDust_cpfp]
  exact ⟨_, rfl⟩

theorem payoutOutputs_returns (prevouts : List TxOut) (operatorScript : ScriptBuf)
    (cpfp : ConnectorCpfp) (h : segwitMinAmount ≤ totalValue prevouts) :
    ∃ outs, payoutOutputs env prevouts operatorScript (cpfp.generateLockingScript env) =
      .ok outs := by
  rw [payoutOutputs, henv.nonDust_cpfp, Amount.sub_of_le h]
  exact ⟨_, rfl⟩

/-- An optimistic payout can always be built. -/
theorem PayoutOptimisticTx.new_returns (data : PayoutOptimisticData) (c0 : ConnectorC0)
    (c1 : ConnectorC1) (nOfN : ConnectorNOfN) (p : ConnectorP) (cpfp : ConnectorCpfp) :
    ∃ tx, PayoutOptimisticTx.new env data c0 c1 nOfN p cpfp = .ok tx := by
  obtain ⟨outs, houts⟩ := payoutOutputs_returns henv
    [⟨data.depositAmount, nOfN.lockingScript env⟩,
      ⟨claimNetAmount, c0.generateLockingScript env⟩, dustOut env (c1.generateLockingScript env),
      dustOut env (nOfN.lockingScript env), dustOut env (p.lockingScript env)]
    (createTaprootAddr env data.network (.keySpend data.operatorKey)) cpfp (by
      simp only [totalValue, dustOut, henv.nonDust_nOfN, map_cons, sum_cons]
      omega)
  rw [PayoutOptimisticTx.new, houts]
  exact ⟨_, rfl⟩

theorem PayoutTx.new_returns (data : PayoutData) (a3 : ConnectorA3) (nOfN : ConnectorNOfN)
    (p : ConnectorP) (cpfp : ConnectorCpfp) :
    ∃ tx, PayoutTx.new env data a3 nOfN p cpfp = .ok tx := by
  obtain ⟨outs, houts⟩ := payoutOutputs_returns henv
    [⟨data.depositAmount, nOfN.lockingScript env⟩,
      ⟨postAssertNetAmount, a3.generateLockingScript env⟩, dustOut env (nOfN.lockingScript env),
      dustOut env (p.lockingScript env)]
    (createTaprootAddr env data.network (.keySpend data.operatorKey)) cpfp (by
      simp only [totalValue, dustOut, henv.nonDust_nOfN, map_cons, sum_cons]
      omega)
  rw [PayoutTx.new, houts]
  exact ⟨_, rfl⟩

theorem PreAssertTx.new_returns (claimTxid : Txid) (c0 : ConnectorC0) (cpfp : ConnectorCpfp)
    (a256 : ConnectorA256Factory) (aHash : ConnectorAHashFactory) :
    ∃ tx, PreAssertTx.new env claimTxid c0 cpfp a256 aHash = .ok tx := by
  rw [PreAssertTx.new, PreAssertTx.totalValue_outputs henv]
  exact ⟨_, rfl⟩

theorem PostAssertTx.new_returns (txids : List Txid) (a2 : ConnectorNOfN) (a3 : ConnectorA3)
    (cpfp : ConnectorCpfp) : ∃ tx, PostAssertTx.new env txids a2 a3 cpfp = .ok tx := by
  rw [PostAssertTx.new, henv.nonDust_cpfp]
  exact ⟨_, rfl⟩

/-- An assert chain can always be built. -/
theorem AssertChain.new_returns (claimTxid : Txid) (c0 : ConnectorC0) (a2 : ConnectorNOfN)
    (a3 : ConnectorA3) (cpfp : ConnectorCpfp) (aHash : ConnectorAHashFactory)
    (a256 : ConnectorA256Factory) :
    ∃ chain, AssertChain.new env claimTxid c0 a2 a3 cpfp aHash a256 = .ok chain := by
  obtain ⟨preAssert, hpre⟩ := PreAssertTx.new_returns henv claimTxid c0 cpfp a256 aHash
  obtain ⟨hout, -, -⟩ := PreAssertTx.of_new henv hpre
  obtain ⟨scripts, hscripts⟩ := Wots.exists_sized (n := numAssertDataTx)
    (l := (preAssert.unsignedTx.output.map TxOut.scriptPubkey).take numAssertDataTx)
    (by simp [hout, PreAssertTx.length_scripts])
  obtain ⟨postAssert, hpost⟩ := PostAssertTx.new_returns henv
    ((AssertDataTxBatch.new env ⟨preAssert.computeTxid env.toEnv, scripts⟩ a2 cpfp).toList.map
      fun psbt => env.computeTxid psbt.unsignedTx) a2 a3 cpfp
  refine exists_bind hpre ?_
  rw [hscripts]
  exact exists_bind hpost ⟨_, rfl⟩

omit henv in
/-- Slashing leaves a dust output to each of two inputs, so there has to be enough to burn. -/
theorem SlashStakeTx.new_returns_iff {stakeOutpoint claimOutpoint : OutPoint} {network : Network}
    {params : StakeChainParams} {stakeConn : ConnectorStake} :
    (∃ tx, SlashStakeTx.new env stakeOutpoint claimOutpoint network params nOfN stakeConn =
      .ok tx) ↔ segwitMinAmount ≤ params.burnAmount := by
  constructor
  · rintro ⟨tx, h⟩
    obtain ⟨remaining, hsub, -⟩ := bind_eq_ok.mp h
    exact (Amount.sub_eq_ok.mp hsub).1
  · intro h
    rw [SlashStakeTx.new, Amount.sub_of_le h]
    exact ⟨_, rfl⟩

/-- **When a graph is generated**: always, except that there has to be enough to burn when earlier
claims can slash the stake. -/
theorem generate_returns_iff {input : PegOutGraphInput} {ctx : TxBuildContext} {depositTxid : Txid}
    {graphParams : PegOutGraphParams} {connectorParams : ConnectorParams}
    {stakeChainParams : StakeChainParams} {prevClaimTxids : List Txid} :
    (∃ g, PegOutGraph.generate env input ctx depositTxid graphParams connectorParams
      stakeChainParams prevClaimTxids = .ok g) ↔
        prevClaimTxids = [] ∨ segwitMinAmount ≤ stakeChainParams.burnAmount := by
  constructor
  · rintro ⟨g, h⟩
    obtain ⟨claim, chain, hparts⟩ := PegOutGraph.parts_of_generate h
    have hslash := hparts.newSlashStake
    cases prevClaimTxids with
    | nil => exact .inl rfl
    | cons txid txids =>
      obtain ⟨tx, txs, hnew, -, -⟩ := forall₂_cons_left_iff.mp hslash
      exact .inr (SlashStakeTx.new_returns_iff.mp ⟨tx, hnew⟩)
  · intro hburn
    obtain ⟨slash, hslash, -⟩ := mapM_ok (l := prevClaimTxids)
      (f := fun txid => SlashStakeTx.new env input.stakeOutpoint ⟨txid, slashStakeVout⟩ ctx.network
        stakeChainParams
        (PegOutGraphConnectors.new env ctx depositTxid connectorParams input.operatorPubkey
          input.stakeHash stakeChainParams.delta input.wotsPublicKeys).nOfN
        (PegOutGraphConnectors.new env ctx depositTxid connectorParams input.operatorPubkey
          input.stakeHash stakeChainParams.delta input.wotsPublicKeys).stake)
      (by
        intro txid htxid
        rcases hburn with rfl | hburn
        · cases htxid
        · exact SlashStakeTx.new_returns_iff.mpr hburn)
    obtain ⟨claim, hclaim⟩ := ClaimTx.new_returns henv _ _ _ _ _ _
    obtain ⟨payoutOptimistic, hopt⟩ := PayoutOptimisticTx.new_returns henv _ _ _ _ _ _
    obtain ⟨chain, hchain⟩ := AssertChain.new_returns henv _ _ _ _ _ _ _
    obtain ⟨payout, hpayout⟩ := PayoutTx.new_returns henv _ _ _ _ _
    rw [PegOutGraph.generate]
    exact exists_bind hclaim (exists_bind hopt (exists_bind hchain
      (exists_bind hpayout (exists_bind hslash ⟨_, rfl⟩))))

end Returns

end StrataBridge
