import StrataBridge.DutyTracker.Phases

/-!
# What a contract accepts from a block

A contract meets a transaction of a block in one of three ways: it may assign its withdrawal, it
may be its deposit, or it may be a transaction of its graph. For each of them this file says, in
terms of the phase alone, when the contract accepts it and what the contract is afterwards.

## Main definitions

* `ContractSM.AcceptsAssignment`, `ContractSM.reassigned`: assignments
* `ContractSM.TakesDeposit`, `ContractSM.deposited`: the deposit
* `ContractSM.Accepts`, `ContractSM.confirmed`: transactions of the active graph

## Main results

* `ContractSM.processAssignment_decided`, `ContractSM.takesDeposit_cases`,
  `ContractSM.processPegOutGraphTxConfirmation_decided`: the handlers do what these say
-/

namespace StrataBridge

open Rust ContractState BTreeMap List

namespace ContractState

def assignedFrom : ContractState → Option GraphData
  | .deposited d => some d
  | .assigned a => some a.toGraphData
  | _ => none

/-- An assignment that the contract accepts leads to a duty. -/
def answersAssignment : ContractState → Bool
  | .deposited _ | .assigned _ | .aborted => true
  | _ => false

end ContractState

/-! ### The deposit -/

namespace Requested

/-- Every operator with a claim has an input, and every claim has a summary of its own. -/
def HasGraphs (r : Requested) : Prop :=
  (∀ e ∈ r.claimTxids.toList, e.1 ∈ r.pegOutGraphInputs ∧ e.2 ∈ r.pegOutGraphSummaries) ∧
    (r.claimTxids.toList.map Prod.snd).Nodup

theorem exists_takeGraphs_iff {l : List (P2POperatorPubKey × Txid)}
    (hkeys : (l.map Prod.fst).Nodup) {inputs : BTreeMap P2POperatorPubKey PegOutGraphInput}
    {summaries : BTreeMap Txid PegOutGraphSummary} :
    (∃ graphs, takeGraphs l inputs summaries = .ok graphs) ↔
      (∀ e ∈ l, e.1 ∈ inputs ∧ e.2 ∈ summaries) ∧ (l.map Prod.snd).Nodup := by
  induction l generalizing inputs summaries with
  | nil => simp [takeGraphs]
  | cons e l ih =>
    obtain ⟨hkey, hkeys⟩ := nodup_cons.mp hkeys
    -- what is left of the maps serves the other claims if none of them is the claim just taken
    have herase : ((∀ e' ∈ l, e'.1 ∈ inputs.erase e.1 ∧ e'.2 ∈ summaries.erase e.2) ∧
        (l.map Prod.snd).Nodup) ↔ (∀ e' ∈ l, e'.1 ∈ inputs ∧ e'.2 ∈ summaries) ∧
          e.2 ∉ l.map Prod.snd ∧ (l.map Prod.snd).Nodup := by
      have hne (e' : P2POperatorPubKey × Txid) (he' : e' ∈ l) : e.1 ≠ e'.1 :=
        fun heq => hkey (heq ▸ mem_map_of_mem he')
      rw [← and_assoc, mem_map, not_exists, ← forall_and]
      refine and_congr_left fun _ => forall_congr' fun e' => ?_
      by_cases he' : e' ∈ l
      · simp only [he', forall_const, Std.ExtTreeMap.mem_erase, Std.LawfulEqOrd.compare_eq_iff_eq,
          ne_eq, hne e' he', not_false_eq_true, true_and, eq_comm (a := e'.2)]
        tauto
      · simp [he']
    rw [forall_mem_cons, map_cons, nodup_cons, and_assoc, ← herase, ← ih hkeys,
      takeGraphs, mem_iff_exists, mem_iff_exists]
    cases inputs[e.1]? with
    | none => simp
    | some input =>
      cases summaries[e.2]? with
      | none => simp
      | some summary =>
        cases takeGraphs l (inputs.erase e.1) (summaries.erase e.2) <;> simp [Except.map]

theorem exists_intoGraphData_iff {r : Requested} :
    (∃ graphs, r.intoGraphData = .ok graphs) ↔ r.HasGraphs := by
  rw [HasGraphs, ← exists_takeGraphs_iff (nodup_map_fst_toList _), intoGraphData]
  cases takeGraphs r.claimTxids.toList r.pegOutGraphInputs r.pegOutGraphSummaries <;>
    simp [Except.map]

end Requested

namespace ContractSM

variable (env : Env) (sm : ContractSM)

/-- The deposit finds the graphs of the contract complete; a deposit of another contract, or one
that comes late, is only logged. -/
def TakesDeposit (tx : Transaction) : Prop :=
  ∀ r, sm.state.state = .requested r → env.computeTxid tx = sm.depositTxid env → r.HasGraphs

def deposited (env : Env) (sm : ContractSM) (tx : Transaction) : ContractSM :=
  if env.computeTxid tx = sm.depositTxid env then
    match sm.state.state with
    | .requested r =>
      match r.intoGraphData with
      | .ok graphs => { sm.setState (.deposited graphs) with pog := ∅ }
      | .error _ => sm
    | _ => sm
  else sm

/-- **What a deposit does to a contract.** -/
theorem takesDeposit_cases (tx : Transaction) :
    sm.TakesDeposit env tx ∧
      ((∃ e, sm.processDepositConfirmation env tx = .err (sm.deposited env tx) e) ∨
        sm.processDepositConfirmation env tx = .ok (sm.deposited env tx) []) ∨
    ¬sm.TakesDeposit env tx ∧ ∃ msg, sm.processDepositConfirmation env tx = .panic msg := by
  rw [processDepositConfirmation, deposited, TakesDeposit]
  by_cases htxid : env.computeTxid tx = sm.depositTxid env
  · cases hs : sm.state.state with
    | requested r =>
      have hgraphs := r.exists_intoGraphData_iff
      cases hr : r.intoGraphData with
      | ok graphs => simp_all
      | error msg => simp_all
    | _ => simp [htxid, hs, unexpected]
  · simp [htxid]

/-! ### Assignments -/

/-- The assignments that a contract accepts: those of its own deposit, to an operator of the
table, with a recipient and a withdrawal request; where there are graphs to choose from, with a
graph of the operator. -/
def AcceptsAssignment (entry : DepositEntry) : Prop :=
  entry.idx = sm.cfg.depositIdx ∧ ∃ dispatched key output request,
    entry.depositState = .dispatched dispatched ∧
    sm.cfg.operatorTable.idxToP2pKey dispatched.assignee = some key ∧
    dispatched.withdrawOutputs.head? = some output ∧
    entry.withdrawalRequestTxid = some request ∧
    ∀ graphs, sm.state.state.assignedFrom = some graphs →
      ∃ claim, graphs.claimTxids[key]? = some claim ∧ claim ∈ graphs.pegOutGraphs

/-- The assignment that an entry makes, where the contract has graphs to choose from. -/
def newAssignment (entry : DepositEntry) (l1StartHeight : BitcoinBlockHeight) : Option Assigned :=
  match entry.depositState with
  | .dispatched dispatched => do
    let d ← sm.state.state.assignedFrom
    let key ← sm.cfg.operatorTable.idxToP2pKey dispatched.assignee
    let output ← dispatched.withdrawOutputs.head?
    let withdrawalRequestTxid ← entry.withdrawalRequestTxid
    let claim ← d.claimTxids[key]?
    let activeGraph ← d.pegOutGraphs[claim]?
    return { d with
      fulfiller := dispatched.assignee
      recipient := output.destination
      deadline := dispatched.execDeadline
      activeGraph
      withdrawalRequestTxid
      l1StartHeight }
  | _ => none

def reassigned (entry : DepositEntry) (l1StartHeight : BitcoinBlockHeight) : ContractSM :=
  (sm.newAssignment entry l1StartHeight).elim sm fun a => sm.setState (.assigned a)

theorem reassigned_of_silent {sm : ContractSM} (h : sm.state.state.answersAssignment = false)
    (entry : DepositEntry) (l1StartHeight : BitcoinBlockHeight) :
    sm.reassigned entry l1StartHeight = sm := by
  have hnone : sm.state.state.assignedFrom = none := by
    cases hs : sm.state.state <;> simp_all [answersAssignment, assignedFrom]
  rw [reassigned, newAssignment, hnone]
  split <;> rfl

/-- **Which assignments a contract accepts.** -/
theorem processAssignment_decided (entry : DepositEntry) (stakeTx : StakeTxKind)
    (l1StartHeight : BitcoinBlockHeight) :
    (sm.processAssignment env entry stakeTx l1StartHeight).Decided (sm.AcceptsAssignment entry)
      fun sm' ds => sm' = sm.reassigned entry l1StartHeight ∧
        (ds = [] ↔ sm.state.state.answersAssignment = false) := by
  rw [processAssignment]
  by_cases hidx : entry.idx = sm.cfg.depositIdx
  swap
  · simp [hidx, AcceptsAssignment]
  rw [if_neg (not_not.mpr hidx)]
  cases hstate : entry.depositState with
  | dispatched dispatched =>
    dsimp only
    cases hkey : sm.cfg.operatorTable.idxToP2pKey dispatched.assignee with
    | none => simp [AcceptsAssignment, hstate, hkey]
    | some key =>
    cases houtput : dispatched.withdrawOutputs.head? with
    | none => simp [AcceptsAssignment, hstate, houtput]
    | some output =>
    cases hrequest : entry.withdrawalRequestTxid with
    | none => simp [AcceptsAssignment, hrequest]
    | some request =>
    have haccepts : sm.AcceptsAssignment entry ↔
        ∀ graphs, sm.state.state.assignedFrom = some graphs →
          ∃ claim, graphs.claimTxids[key]? = some claim ∧ claim ∈ graphs.pegOutGraphs := by
      simp [AcceptsAssignment, hidx, hstate, hkey, houtput, hrequest]
    have hassign (d : GraphData) (hd : sm.state.state.assignedFrom = some d) :
        (sm.assign env d dispatched key output.destination request stakeTx l1StartHeight).Decided
          (sm.AcceptsAssignment entry)
          fun sm' ds => sm' = sm.reassigned entry l1StartHeight ∧ ds ≠ [] := by
      rw [haccepts, hd, assign, reassigned, newAssignment, hstate, hd]
      cases hclaim : d.claimTxids[key]? with
      | none => simp [hclaim]
      | some claim =>
        cases hgraph : d.pegOutGraphs[claim]? with
        | none => simp [hclaim, notMem_iff.mpr hgraph]
        | some graph =>
          simp [hkey, houtput, hrequest, hclaim, mem_iff_exists.mpr ⟨graph, hgraph⟩]
    cases hs : sm.state.state with
    | deposited d =>
      exact (hassign d (by rw [hs]; rfl)).mono fun _ _ h => ⟨h.1, by simp [h.2, answersAssignment]⟩
    | assigned a =>
      exact (hassign a.toGraphData (by rw [hs]; rfl)).mono
        fun _ _ h => ⟨h.1, by simp [h.2, answersAssignment]⟩
    | _ =>
      simp [haccepts, reassigned, newAssignment, hstate, hs, assignedFrom, answersAssignment]
  | _ => simp [AcceptsAssignment, hstate]

/-! ### Transactions of the active graph -/

/-- The pre-assert of a claim; its operator reads the scripts of the first outputs. -/
def AcceptsPreAssert (c : Claimed) (tx : Transaction) : Prop :=
  env.computeTxid tx = c.activeGraph.2.preAssertTxid ∧
    (sm.isPov c.fulfiller = true → numAssertDataTx ≤ tx.output.length)

/-- The transactions a contract does not reject in its phase. Before a withdrawal is assigned and
after it is settled there are none. -/
def Awaits (tx : Transaction) : Prop :=
  match sm.state.state with
  | .assigned _ => True
  | .fulfilled f =>
    env.computeTxid tx = f.activeGraph.2.claimTxid ∧ ¬(ClaimTx.parseWitness tx).IsErr
  | .claimed c =>
    isChallenge c.activeGraph.2.claimTxid tx ∨
      env.computeTxid tx = c.activeGraph.2.payoutOptimisticTxid ∨
      env.computeTxid tx = c.activeGraph.2.preAssertTxid
  | .challenged c => env.computeTxid tx = c.activeGraph.2.preAssertTxid
  | .preAssertConfirmed p =>
    env.computeTxid tx ∈ p.activeGraph.2.assertDataTxids ∧
      ((p.collect (env.computeTxid tx) tx).signedAssertDataTxs.size < numAssertDataTx ∨
        sm.isPov p.fulfiller = false ∨ p.activeGraph.2.claimTxid ∈ p.graphSigs)
  | .assertDataConfirmed a =>
    env.computeTxid tx = a.activeGraph.2.postAssertTxid ∧
      ∀ txs, assertDataTxs a.activeGraph.2.assertDataTxids.toList a.signedAssertDataTxs = .ok txs →
        (env.parseWitnesses txs).isOk
  | .asserted a =>
    isDisprove a.activeGraph.2.postAssertTxid tx ∨ env.computeTxid tx = a.activeGraph.2.payoutTxid
  | .requested _ | .deposited _ | .disproved | .resolved _ | .aborted => False

/-- The transactions a contract accepts in its phase: those it awaits, unless reading their
witnesses or outputs fails. -/
def Accepts (tx : Transaction) : Prop :=
  match sm.state.state with
  | .assigned _ => True
  | .fulfilled f =>
    env.computeTxid tx = f.activeGraph.2.claimTxid ∧ (ClaimTx.parseWitness tx).IsOk
  | .claimed c =>
    isChallenge c.activeGraph.2.claimTxid tx ∨
      env.computeTxid tx = c.activeGraph.2.payoutOptimisticTxid ∨ sm.AcceptsPreAssert env c tx
  | .challenged c => sm.AcceptsPreAssert env c tx
  | .preAssertConfirmed p =>
    env.computeTxid tx ∈ p.activeGraph.2.assertDataTxids ∧
      ((p.collect (env.computeTxid tx) tx).signedAssertDataTxs.size < numAssertDataTx ∨
        sm.isPov p.fulfiller = false ∨ p.activeGraph.2.claimTxid ∈ p.graphSigs)
  | .assertDataConfirmed a =>
    a.signedAssertDataTxs.size = numAssertDataTx ∧
      env.computeTxid tx = a.activeGraph.2.postAssertTxid ∧
      ∃ txs, assertDataTxs a.activeGraph.2.assertDataTxids.toList a.signedAssertDataTxs = .ok txs ∧
        (env.parseWitnesses txs).isOk
  | .asserted a =>
    isDisprove a.activeGraph.2.postAssertTxid tx ∨ env.computeTxid tx = a.activeGraph.2.payoutTxid
  | .requested _ | .deposited _ | .disproved | .resolved _ | .aborted => False

/-- The phase after a transaction that the contract accepts. -/
def confirmed (height : BitcoinBlockHeight) (tx : Transaction) : ContractState :=
  match sm.state.state with
  | .assigned a =>
    if isFulfillmentTx env sm.cfg.network sm.cfg.pegOutGraphParams a.fulfiller sm.cfg.depositIdx
        (sm.depositTxid env) a.recipient tx then
      .fulfilled
        { a with
          withdrawalFulfillmentTxid := env.computeTxid tx
          withdrawalFulfillmentHeight := height }
    else .assigned a
  | .fulfilled f =>
    match ClaimTx.parseWitness tx with
    | .ok _ commitment =>
      .claimed { f with claimHeight := height, withdrawalFulfillmentCommitment := commitment }
    | _ => .fulfilled f
  | .claimed c =>
    if isChallenge c.activeGraph.2.claimTxid tx then .challenged c
    else if env.computeTxid tx = c.activeGraph.2.payoutOptimisticTxid then
      .resolved
        { c with
          claimTxid := c.activeGraph.2.claimTxid
          payoutTxid := env.computeTxid tx
          path := .optimistic }
    else .preAssertConfirmed { c with signedAssertDataTxs := ∅ }
  | .challenged c => .preAssertConfirmed { c with signedAssertDataTxs := ∅ }
  | .preAssertConfirmed p =>
    let p := p.collect (env.computeTxid tx) tx
    if p.signedAssertDataTxs.size < numAssertDataTx then .preAssertConfirmed p
    else .assertDataConfirmed p.assertDataConfirmed
  | .assertDataConfirmed a =>
    match (assertDataTxs a.activeGraph.2.assertDataTxids.toList
        a.signedAssertDataTxs).toOption.bind fun txs => (env.parseWitnesses txs).toOption with
    | some proofCommitment => .asserted { a with postAssertHeight := height, proofCommitment }
    | none => .assertDataConfirmed a
  | .asserted a =>
    if isDisprove a.activeGraph.2.postAssertTxid tx then .disproved
    else
      .resolved
        { a with
          claimTxid := a.activeGraph.2.claimTxid
          payoutTxid := env.computeTxid tx
          path := .contested }
  | s => s

private theorem setState_self : sm.setState sm.state.state = sm := rfl

theorem assertDataTxs_ok {signed : BTreeMap Txid Transaction} {txids : List Txid}
    (h : ∀ txid ∈ txids, txid ∈ signed) :
    ∃ txs, assertDataTxs txids signed = .ok txs ∧ txs.length = txids.length := by
  induction txids with
  | nil => exact ⟨[], rfl, rfl⟩
  | cons txid rest ih =>
    obtain ⟨tx, htx⟩ := mem_iff_exists.mp (h txid mem_cons_self)
    obtain ⟨txs, htxs, hlen⟩ := ih fun t ht => h t (mem_cons_of_mem _ ht)
    rw [assertDataTxs] at htxs
    exact ⟨tx :: txs, by simp [assertDataTxs, htx, htxs, bind, Except.bind, pure, Except.pure],
      by simp [hlen]⟩

theorem confirmPreAssert_decided (c : Claimed) (tx : Transaction) :
    (sm.confirmPreAssert env c tx).Decided (sm.AcceptsPreAssert env c tx)
      (fun sm' _ => sm' = sm.setState (.preAssertConfirmed { c with signedAssertDataTxs := ∅ })) ∧
    ((sm.confirmPreAssert env c tx).IsErr ↔
      ¬env.computeTxid tx = c.activeGraph.2.preAssertTxid) := by
  rw [confirmPreAssert, AcceptsPreAssert]
  by_cases htx : env.computeTxid tx = c.activeGraph.2.preAssertTxid
  swap
  · simp [htx, invalidTx]
  cases hpov : sm.isPov c.fulfiller with
  | false => simp [htx]
  | true =>
    by_cases hlen : numAssertDataTx ≤ tx.output.length <;> simp [htx, hlen, Wots.sized]

/-- **Which transactions of its graph a contract accepts**, and which it rejects. -/
theorem processPegOutGraphTxConfirmation_decided (height : BitcoinBlockHeight) (tx : Transaction) :
    (sm.processPegOutGraphTxConfirmation env height tx).Decided (sm.Accepts env tx)
      (fun sm' _ => sm' = sm.setState (sm.confirmed env height tx)) ∧
    (sm.state.state.CollectsActive →
      ((sm.processPegOutGraphTxConfirmation env height tx).IsErr ↔ ¬sm.Awaits env tx)) := by
  rw [processPegOutGraphTxConfirmation, Accepts, Awaits, confirmed]
  cases hs : sm.state.state with
  | assigned a =>
    simp only [processFulfillmentConfirmation, hs]
    split
    · simp
    · simp [← hs, setState_self]
  | fulfilled f =>
    simp only [processClaimConfirmation, hs]
    by_cases htx : env.computeTxid tx = f.activeGraph.2.claimTxid
    · cases ClaimTx.parseWitness tx <;> simp [htx]
    · simp [htx, invalidTx]
  | claimed c =>
    have hpre := sm.confirmPreAssert_decided env c tx
    by_cases hchallenge : isChallenge c.activeGraph.2.claimTxid tx
    · simp [processChallengeConfirmation, hs, hchallenge]
    by_cases hpayout : env.computeTxid tx = c.activeGraph.2.payoutOptimisticTxid
    · simp [processChallengeConfirmation, processOptimisticPayoutConfirmation, hs, hchallenge,
        hpayout, invalidTx]
    · simpa [processChallengeConfirmation, processOptimisticPayoutConfirmation,
        processPreAssertConfirmation, hs, hchallenge, hpayout, invalidTx] using
        ⟨hpre.1, fun _ => hpre.2⟩
  | challenged c =>
    simp only [processPreAssertConfirmation, hs]
    exact ⟨(sm.confirmPreAssert_decided env c tx).1,
      fun _ => (sm.confirmPreAssert_decided env c tx).2⟩
  | preAssertConfirmed p =>
    simp only [processAssertDataConfirmation, hs]
    by_cases hmem : env.computeTxid tx ∈ p.activeGraph.2.assertDataTxids
    swap
    · simp [hmem, invalidTx]
    rw [if_pos hmem, afterCollecting]
    by_cases hsize : (p.collect (env.computeTxid tx) tx).signedAssertDataTxs.size < numAssertDataTx
    · simp [hmem, hsize]
    rw [if_neg hsize, p.collect_fulfiller, p.collect_graphSigs, p.collect_activeGraph,
      mem_iff_exists]
    cases hpov : sm.isPov p.fulfiller with
    | false => simp [hmem, hsize]
    | true => cases p.graphSigs[p.activeGraph.2.claimTxid]? <;> simp [hmem, hsize]
  | assertDataConfirmed a =>
    have hcollects (hc : (ContractState.assertDataConfirmed a).CollectsActive) :
        a.signedAssertDataTxs.size = numAssertDataTx ∧ ∃ txs,
          assertDataTxs a.activeGraph.2.assertDataTxids.toList a.signedAssertDataTxs = .ok txs := by
      obtain ⟨hsize, hall⟩ := mem_of_length_le (l := a.activeGraph.2.assertDataTxids.toList)
        (fun txid htxid => by simpa using hc.1 txid htxid) (by simpa using hc.2)
      obtain ⟨txs, htxs, -⟩ := assertDataTxs_ok hall
      exact ⟨by rwa [Vector.length_toList] at hsize, txs, htxs⟩
    simp only [processPostAssertConfirmation, hs]
    by_cases hsize : a.signedAssertDataTxs.size = numAssertDataTx
    swap
    · exact ⟨by simp [hsize, unexpected], fun hc => absurd (hcollects hc).1 hsize⟩
    by_cases htx : env.computeTxid tx = a.activeGraph.2.postAssertTxid
    swap
    · simp [hsize, htx, invalidTx]
    cases htxs : assertDataTxs a.activeGraph.2.assertDataTxids.toList a.signedAssertDataTxs with
    | error txid =>
      refine ⟨by simp [hsize, htx], fun hc => ?_⟩
      obtain ⟨-, txs, hok⟩ := hcollects hc
      simp [htxs] at hok
    | ok txs =>
      cases hparse : env.parseWitnesses txs <;>
        simp [hsize, htx, hparse, Except.toBool, Except.toOption]
  | asserted a =>
    simp only [processDisproveConfirmation, processDefendedPayoutConfirmation, hs]
    by_cases hdisprove : isDisprove a.activeGraph.2.postAssertTxid tx
    · simp [hdisprove]
    by_cases hpayout : env.computeTxid tx = a.activeGraph.2.payoutTxid
    · simp [hs, hdisprove, hpayout, invalidTx]
    · simp [hs, hdisprove, hpayout, invalidTx]
  | requested | deposited | disproved | resolved | aborted => simp [unexpected]

end ContractSM

end StrataBridge
