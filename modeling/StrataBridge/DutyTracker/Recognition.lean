import StrataBridge.DutyTracker.Acceptance
import StrataBridge.DutyTracker.PhaseOrder
import StrataBridge.TxGraph.Generated
import StrataBridge.Instance.LinearGraph

/-!
# Challenges and disproofs that a contract recognizes

Two transactions of a graph are not known in advance. A challenge is presigned for its first input
and first output only, so whoever funds it adds inputs and outputs behind them. The output of the
post-assert is taken by whoever satisfies a disprove leaf, in a transaction of any shape. A contract
finds both by their shape: a challenge has one output, a disprove transaction has two inputs and
two outputs and spends the post-assert by the second input. The results say for each family exactly
which members are found; the others pass unseen and the contract stays where it is.
-/

namespace StrataBridge

open Rust List

/-! ### The transactions that are not known in advance -/

def Transaction.fund (tx : Transaction) (inputs : List TxIn) (outputs : List TxOut) : Transaction :=
  { tx with input := tx.input ++ inputs, output := tx.output ++ outputs }

namespace ContractCfg

variable (env : GraphEnv) (cfg : ContractCfg)

def connectors (input : PegOutGraphInput) : PegOutGraphConnectors :=
  PegOutGraphConnectors.new env (cfg.operatorTable.txBuildContext cfg.network)
    (cfg.depositTxid env.toEnv) cfg.connectorParams input.operatorPubkey input.stakeHash
    cfg.stakeChainParams.delta input.wotsPublicKeys

def challengeTx (active : ActiveGraph) : CovenantTx 1 :=
  ChallengeTx.new env
    ⟨⟨active.2.claimTxid, challengeVout⟩, cfg.pegOutGraphParams.challengeCost,
      active.1.operatorPubkey, cfg.network⟩
    (cfg.connectors env active.1).claimOut1

theorem challengeTx_of_generate (active : ActiveGraph) {prevClaimTxids : List Txid}
    {g : GeneratedGraph}
    (h : PegOutGraph.generate env active.1 (cfg.operatorTable.txBuildContext cfg.network)
      (cfg.depositTxid env.toEnv) cfg.pegOutGraphParams cfg.connectorParams cfg.stakeChainParams
      prevClaimTxids = .ok g)
    (hsummary : active.2 = g.graph.summarize env.toEnv) :
    cfg.challengeTx env active = g.graph.challengeTx := by
  obtain ⟨claim, chain, hparts⟩ := PegOutGraph.parts_of_generate h
  have hclaim : active.2.claimTxid = claim.tx.computeTxid env.toEnv := by
    rw [hsummary, ← hparts.claimTx]
    rfl
  rw [hparts.challengeTx, hparts.connectors, challengeTx, hclaim]
  rfl

end ContractCfg

/-- A transaction that takes the output of a post-assert by a disprove leaf. The leaves ask for no
signature of the operators, so nothing else is fixed; no transaction spends an output twice. -/
structure DisproveSpend (env : GraphEnv) (connectorA3 : ConnectorA3) (postAssertTxid : Txid) where
  tx : Transaction
  index : ℕ
  input : TxIn
  spends : tx.input[index]? = some input
  outpoint : input.previousOutput = ⟨postAssertTxid, 0⟩
  leafWitness : List Bytes
  leaf : ScriptBuf
  isLeaf : leaf ∈ connectorA3.disproveLeaves env
  witness : input.witness = leafWitness ++ [leaf, connectorA3.controlBlock env leaf]
  distinct : (tx.input.map TxIn.previousOutput).Nodup

namespace DisproveSpend

variable {env : GraphEnv} {connectorA3 : ConnectorA3} {postAssertTxid : Txid} {leaf : ScriptBuf}

/-- The disprove transaction of a graph, as the bridge finalizes it. -/
def finalized (stakeOutpoint : OutPoint) (hstake : stakeOutpoint ≠ ⟨postAssertTxid, 0⟩)
    (network : Network) (stakeAmount burnAmount : ℕ) (connectorStake : ConnectorStake)
    (reward : TxOut) (signature : Bytes) (leafWitness : List Bytes)
    (hleaf : leaf ∈ connectorA3.disproveLeaves env) :
    DisproveSpend env connectorA3 postAssertTxid where
  tx := DisproveTx.finalize env
    (DisproveTx.new env postAssertTxid stakeOutpoint network stakeAmount burnAmount connectorA3
      connectorStake) reward signature leafWitness leaf connectorA3
  index := 1
  input := ⟨⟨postAssertTxid, 0⟩, [], enableRbfNoLocktime,
    leafWitness ++ [leaf, connectorA3.controlBlock env leaf]⟩
  spends := rfl
  outpoint := rfl
  leafWitness := leafWitness
  leaf := leaf
  isLeaf := hleaf
  witness := rfl
  distinct := by
    simpa [DisproveTx.finalize, DisproveTx.new, createTx, createTxIns, postAssertInputIndex] using
      hstake

def alone (outputs : List TxOut) (leafWitness : List Bytes)
    (hleaf : leaf ∈ connectorA3.disproveLeaves env) :
    DisproveSpend env connectorA3 postAssertTxid where
  tx := createTx [⟨⟨postAssertTxid, 0⟩, [], enableRbfNoLocktime,
    leafWitness ++ [leaf, connectorA3.controlBlock env leaf]⟩] outputs
  index := 0
  input := _
  spends := rfl
  outpoint := rfl
  leafWitness := leafWitness
  leaf := leaf
  isLeaf := hleaf
  witness := rfl
  distinct := nodup_singleton _

/-- `is_disprove` in terms of where the output is spent. -/
theorem isDisprove_iff (d : DisproveSpend env connectorA3 postAssertTxid) :
    isDisprove postAssertTxid d.tx ↔
      d.index = postAssertInputIndex ∧ d.tx.input.length = 2 ∧ d.tx.output.length = 2 := by
  have hspends : (d.tx.input.map TxIn.previousOutput)[d.index]? = some ⟨postAssertTxid, 0⟩ := by
    rw [getElem?_map, d.spends, Option.map_some, d.outpoint]
  rw [isDisprove, Bool.and_eq_true, Bool.and_eq_true, and_assoc, decide_eq_true_iff,
    decide_eq_true_iff]
  refine and_congr_left fun _ => ⟨fun h => ?_, fun hindex => ?_⟩
  · cases hget : d.tx.input[postAssertInputIndex]? with
    | none => simp [hget] at h
    | some input =>
      have hother : (d.tx.input.map TxIn.previousOutput)[postAssertInputIndex]? =
          some ⟨postAssertTxid, 0⟩ := by
        simpa [hget] using h
      -- no output is spent twice, so there is one place only
      obtain ⟨hlt, -⟩ := List.getElem?_eq_some_iff.mp hspends
      exact (getElem?_inj hlt d.distinct).mp (hspends.trans hother.symm)
  · rw [← hindex, d.spends]
    simpa using d.outpoint

end DisproveSpend

namespace ContractSM

/-! ### What a contract recognizes -/

def Recognizes (env : Env) (sm : ContractSM) (tx : Transaction) (height : BitcoinBlockHeight)
    (s : ContractState) : Prop :=
  sm.transactionFilter env tx = true ∧ ∃ sm' duties,
    sm.processContractEvent env (.pegOutGraphConfirmation tx height) = .ok sm' duties ∧
      sm'.state.state = s

section Shapes

variable {env : Env} {cfg : ContractCfg} {height deadline : BitcoinBlockHeight} {sm : ContractSM}
  {s : ContractState} {w : Withdrawal}

private theorem summaries_of_withdrawal (h : s.withdrawal = some w) :
    s.summaries = (BTreeMap.vals w.pegOutGraphs).map Prod.snd := by
  cases s with
  | requested | deposited | disproved | resolved | aborted => cases h
  | _ =>
    cases h
    rfl

theorem transactionFilter_of_active (hr : Reachable env (.new cfg height deadline) sm)
    (hw : sm.state.state.withdrawal = some w) {tx : Transaction}
    (h : sm.inGraph env w.activeGraph.2 tx) : sm.transactionFilter env tx := by
  obtain ⟨k, claim, -, -, hgraph⟩ := hr.activeOf hw
  have hmem : w.activeGraph.2 ∈ sm.state.state.summaries := by
    rw [summaries_of_withdrawal hw]
    exact mem_map_of_mem (BTreeMap.mem_vals.mpr ⟨claim, hgraph⟩)
  rw [transactionFilter, Bool.or_eq_true]
  exact .inr (any_eq_true.mpr ⟨_, hmem, h⟩)

variable {tx : Transaction} {confirmedAt : BitcoinBlockHeight}

/-- Of the transactions that it wants a contract recognizes those that it accepts, by the phase
that they lead to. -/
theorem recognizes_iff : sm.Recognizes env tx confirmedAt s ↔
    sm.transactionFilter env tx = true ∧ sm.Accepts env tx ∧
      sm.confirmed env confirmedAt tx = s := by
  obtain ⟨hiff, hleaves⟩ := (sm.processPegOutGraphTxConfirmation_decided env confirmedAt tx).1
  rw [← hiff]
  refine and_congr_right fun _ => ⟨?_, fun ⟨hok, hs⟩ => ?_⟩
  · rintro ⟨sm', duties, hok, rfl⟩
    exact ⟨Outcome.succeeds_iff.mpr ⟨sm', duties, hok, trivial⟩, by rw [hleaves sm' duties hok]; rfl⟩
  · obtain ⟨sm', duties, hok, -⟩ := Outcome.succeeds_iff.mp hok
    exact ⟨sm', duties, hok, by rw [hleaves sm' duties hok]; exact hs⟩

theorem recognizes_shape_iff (hr : Reachable env (.new cfg height deadline) sm)
    (hw : sm.state.state.withdrawal = some w) {P : Prop}
    (haccepts : P → sm.inGraph env w.activeGraph.2 tx ∧ sm.Accepts env tx)
    (hconfirmed : sm.confirmed env confirmedAt tx = s ↔ P) :
    sm.Recognizes env tx confirmedAt s ↔ P := by
  rw [recognizes_iff]
  exact ⟨fun h => hconfirmed.mp h.2.2, fun h => ⟨transactionFilter_of_active hr hw (haccepts h).1,
    (haccepts h).2, hconfirmed.mpr h⟩⟩

theorem recognizes_challenged_iff {c : Claimed} (hr : Reachable env (.new cfg height deadline) sm)
    (hs : sm.state.state = .claimed c) :
    sm.Recognizes env tx confirmedAt (.challenged c) ↔
      isChallenge c.activeGraph.2.claimTxid tx := by
  refine recognizes_shape_iff hr (by rw [hs]; rfl) (fun h => by simp [inGraph, Accepts, hs, h]) ?_
  simp only [confirmed, hs]
  split_ifs <;> simp_all

theorem recognizes_disproved_iff {a : Asserted} (hr : Reachable env (.new cfg height deadline) sm)
    (hs : sm.state.state = .asserted a) :
    sm.Recognizes env tx confirmedAt .disproved ↔ isDisprove a.activeGraph.2.postAssertTxid tx := by
  refine recognizes_shape_iff hr (by rw [hs]; rfl) (fun h => by simp [inGraph, Accepts, hs, h]) ?_
  simp only [confirmed, hs]
  split_ifs <;> simp_all

end Shapes

/-! ### Challenges and disproofs -/

section Recognized

variable {env : GraphEnv} {cfg : ContractCfg} {height deadline : BitcoinBlockHeight}
  {sm : ContractSM}

theorem isChallenge_fund_iff (cfg : ContractCfg) (active : ActiveGraph) (signature : Bytes)
    (inputs : List TxIn) (outputs : List TxOut) :
    isChallenge active.2.claimTxid
      ((ChallengeTx.finalizePresigned (cfg.challengeTx env active) signature).fund inputs outputs) ↔
        outputs = [] := by
  simp [isChallenge, ChallengeTx.finalizePresigned, ContractCfg.challengeTx, ChallengeTx.new,
    Transaction.fund, createTx, createTxIns]

/-- **A funded challenge is recognized exactly when no output was added.** The challenge to the
claim of the active graph is presigned for its own input and output only; whatever inputs fund it,
a change output makes it invisible. -/
theorem recognizes_challenge_iff {c : Claimed}
    (hr : Reachable env.toEnv (.new cfg height deadline) sm) (hs : sm.state.state = .claimed c)
    (signature : Bytes) (inputs : List TxIn) (outputs : List TxOut)
    (confirmedAt : BitcoinBlockHeight) :
    sm.Recognizes env.toEnv
        ((ChallengeTx.finalizePresigned (sm.cfg.challengeTx env c.activeGraph) signature).fund
          inputs outputs)
        confirmedAt (.challenged c) ↔
      outputs = [] := by
  rw [recognizes_challenged_iff hr hs]
  exact isChallenge_fund_iff sm.cfg c.activeGraph signature inputs outputs

end Recognized

section Instance

open Linear

/-- Active graphs compared by the lists of their entries: a comparison of vectors looks every entry
up again when it is evaluated. -/
private def sameActive (a b : ActiveGraph) : Bool :=
  a.1.stakeOutpoint = b.1.stakeOutpoint ∧
  a.1.withdrawalFulfillmentOutpoint = b.1.withdrawalFulfillmentOutpoint ∧
  a.1.stakeHash = b.1.stakeHash ∧ a.1.operatorPubkey = b.1.operatorPubkey ∧
  a.1.wotsPublicKeys.withdrawalFulfillment = b.1.wotsPublicKeys.withdrawalFulfillment ∧
  a.1.wotsPublicKeys.groth16.publicInputs.toList = b.1.wotsPublicKeys.groth16.publicInputs.toList ∧
  a.1.wotsPublicKeys.groth16.fqs.toList = b.1.wotsPublicKeys.groth16.fqs.toList ∧
  a.1.wotsPublicKeys.groth16.hashes.toList = b.1.wotsPublicKeys.groth16.hashes.toList ∧
  a.2.stakeTxid = b.2.stakeTxid ∧ a.2.claimTxid = b.2.claimTxid ∧
  a.2.payoutOptimisticTxid = b.2.payoutOptimisticTxid ∧ a.2.preAssertTxid = b.2.preAssertTxid ∧
  a.2.assertDataTxids.toList = b.2.assertDataTxids.toList ∧
  a.2.postAssertTxid = b.2.postAssertTxid ∧ a.2.payoutTxid = b.2.payoutTxid ∧
  a.2.slashStakeTxids = b.2.slashStakeTxids

private theorem eq_of_sameActive {a b : ActiveGraph} (h : sameActive a b = true) : a = b := by
  obtain ⟨⟨stake, fulfillment, hash, ⟨key, pubs, fqs, hashes⟩, operator⟩, summary⟩ := a
  obtain ⟨⟨stake', fulfillment', hash', ⟨key', pubs', fqs', hashes'⟩, operator'⟩, summary'⟩ := b
  obtain ⟨s1, s2, s3, s4, s5, s6, s7, s8⟩ := summary
  obtain ⟨t1, t2, t3, t4, t5, t6, t7, t8⟩ := summary'
  simp only [sameActive, Vector.toList_inj, decide_eq_true_eq] at h
  simp only [Prod.mk.injEq, PegOutGraphInput.mk.injEq, Wots.PublicKeys.mk.injEq,
    Wots.Groth16PublicKeys.mk.injEq, PegOutGraphSummary.mk.injEq]
  tauto

private def claimedOn (active : PegOutGraphInput × PegOutGraphSummary) : ContractState → Bool
  | .claimed c => sameActive c.activeGraph active
  | _ => false

theorem exists_claimed : ∃ sm c,
    Reachable graphEnv.toEnv (contract twoOperators) sm ∧
      sm.state.state = .claimed c ∧
      c.activeGraph = (announced 1 3, (builtGraph 1 3).summarize graphEnv.toEnv) := by
  obtain ⟨sm, hr, h⟩ := exists_reachable graphEnv.toEnv (contract twoOperators) claimedEvents
    (fun sm => claimedOn (announced 1 3, (builtGraph 1 3).summarize graphEnv.toEnv) sm.state.state)
    (by decide +kernel)
  cases hs : sm.state.state with
  | claimed c => exact ⟨sm, c, hr, hs, eq_of_sameActive (by simpa [hs, claimedOn] using h)⟩
  | _ => simp [hs, claimedOn] at h

/-- A challenge that is funded by two more inputs, with no change. -/
theorem challenge_without_change : ∃ sm c,
    Reachable graphEnv.toEnv (contract twoOperators) sm ∧
    sm.state.state = .claimed c ∧
    sm.Recognizes graphEnv.toEnv
      ((ChallengeTx.finalizePresigned (sm.cfg.challengeTx graphEnv c.activeGraph) [0]).fund
        (createTxIns [⟨⟨90⟩, 0⟩, ⟨⟨91⟩, 0⟩]) []) 103 (.challenged c) := by
  obtain ⟨sm, c, hr, hs, -⟩ := exists_claimed
  exact ⟨sm, c, hr, hs, (recognizes_challenge_iff hr hs _ _ _ _).mpr rfl⟩

/-- The presigned challenge of a generated graph, funded by one more input with change, is not
recognized. -/
theorem challenge_with_change : ∃ sm c,
    Reachable graphEnv.toEnv (contract twoOperators) sm ∧
    sm.state.state = .claimed c ∧
    c.activeGraph = (announced 1 3, (builtGraph 1 3).summarize graphEnv.toEnv) ∧
    ¬sm.Recognizes graphEnv.toEnv
      ((ChallengeTx.finalizePresigned (builtGraph 1 3).challengeTx [0]).fund
        (createTxIns [⟨⟨90⟩, 0⟩]) [⟨700, [8]⟩]) 103 (.challenged c) := by
  obtain ⟨sm, c, hr, hs, hactive⟩ := exists_claimed
  refine ⟨sm, c, hr, hs, hactive, ?_⟩
  obtain ⟨g, hg⟩ := (generate_returns_iff taproot).mpr (.inl rfl)
  have hbuilt : builtGraph 1 3 = g.graph := generates hg
  have hchallenge := (Linear.cfg twoOperators 0 1).challengeTx_of_generate graphEnv c.activeGraph
    (by rw [hactive]; exact hg) (by rw [hactive, hbuilt])
  rw [recognizes_challenged_iff hr hs, hbuilt, ← hchallenge, isChallenge_fund_iff]
  exact cons_ne_nil _ _

end Instance

section Recognized

variable {env : GraphEnv} {cfg : ContractCfg} {height deadline : BitcoinBlockHeight}
  {sm : ContractSM}

/-- **A disproof is recognized exactly when it has the shape of the one that the bridge builds**:
the post-assert is spent by the second of two inputs, and there are two outputs. -/
theorem recognizes_disprove_iff {a : Asserted}
    (hr : Reachable env.toEnv (.new cfg height deadline) sm) (hs : sm.state.state = .asserted a)
    (d : DisproveSpend env (sm.cfg.connectors env a.activeGraph.1).postAssertOut0
      a.activeGraph.2.postAssertTxid)
    (confirmedAt : BitcoinBlockHeight) :
    sm.Recognizes env.toEnv d.tx confirmedAt .disproved ↔
      d.index = postAssertInputIndex ∧ d.tx.input.length = 2 ∧ d.tx.output.length = 2 := by
  rw [recognizes_disproved_iff hr hs]
  exact d.isDisprove_iff

end Recognized

section Instance

open Linear

private def assertedOnStake : ContractState → Bool
  | .asserted a => a.activeGraph.1.stakeOutpoint.vout = stakeVout
  | _ => false

theorem exists_asserted : ∃ sm a,
    Reachable graphEnv.toEnv (contract twoOperators) sm ∧
      sm.state.state = .asserted a ∧ a.activeGraph.1.stakeOutpoint.vout = stakeVout := by
  obtain ⟨sm, hr, h⟩ := exists_reachable graphEnv.toEnv
    (contract twoOperators) (claimedEvents ++ assertedEvents)
    (fun sm => assertedOnStake sm.state.state) (by decide +kernel)
  cases hs : sm.state.state with
  | asserted a => exact ⟨sm, a, hr, hs, by simpa [hs, assertedOnStake] using h⟩
  | _ => simp [hs, assertedOnStake] at h

/-- The disprove transaction of the bridge is recognized. -/
theorem finalized_disprove_recognized : ∃ sm a,
    ∃ d : DisproveSpend graphEnv (sm.cfg.connectors graphEnv a.activeGraph.1).postAssertOut0
      a.activeGraph.2.postAssertTxid,
    Reachable graphEnv.toEnv (contract twoOperators) sm ∧
    sm.state.state = .asserted a ∧
    sm.Recognizes graphEnv.toEnv d.tx 106 .disproved := by
  obtain ⟨sm, a, hr, hs, hvout⟩ := exists_asserted
  have hstake : a.activeGraph.1.stakeOutpoint ≠ ⟨a.activeGraph.2.postAssertTxid, 0⟩ := by
    intro h
    rw [h] at hvout
    cases hvout
  refine ⟨sm, a, .finalized a.activeGraph.1.stakeOutpoint hstake .regtest 500 50
    (sm.cfg.connectors graphEnv a.activeGraph.1).stake ⟨400, [9]⟩ [0] [] mem_cons_self, hr, hs,
    (recognizes_disprove_iff hr hs _ 106).mpr ⟨rfl, rfl, rfl⟩⟩

/-- Somebody takes the output of the post-assert by a disprove leaf and leaves the stake alone. The
contract does not see it. -/
theorem disprove_alone_unseen : ∃ sm a,
    ∃ d : DisproveSpend graphEnv (sm.cfg.connectors graphEnv a.activeGraph.1).postAssertOut0
      a.activeGraph.2.postAssertTxid,
    Reachable graphEnv.toEnv (contract twoOperators) sm ∧
    sm.state.state = .asserted a ∧
    d.tx.input.map TxIn.previousOutput = [⟨a.activeGraph.2.postAssertTxid, 0⟩] ∧
    ¬sm.Recognizes graphEnv.toEnv d.tx 106 .disproved := by
  obtain ⟨sm, a, hr, hs, -⟩ := exists_asserted
  refine ⟨sm, a, .alone [⟨400, [9]⟩] [] mem_cons_self, hr, hs, rfl, ?_⟩
  rw [recognizes_disproved_iff hr hs, DisproveSpend.isDisprove_iff]
  rintro ⟨hindex, -⟩
  cases hindex

end Instance

end ContractSM

end StrataBridge
