import StrataBridge.DutyTracker.PhaseOrder
import StrataBridge.DutyTracker.TimedDuties

/-!
# Queries of the bridge node

The RPC server answers from a cache of the contracts: what becomes of a deposit request, which
withdrawals the operators are to serve, and how far the reimbursement of a claim has come. Every
answer is read off the phase of a contract. Three of them say more than has happened. An aborted
request counts as completed; the duties of an operator are those of all contracts in which it has a
claim, whoever is assigned; and the claim of one operator moves the claims of all.

## References

* `bin/alpen-bridge/src/rpc_server.rs`, lines 445–544 and 717–759
-/

namespace StrataBridge

open Rust Transition Linear BTreeMap List OperatorTable

/-- `ContractState::claim_txids` (`contract_state_machine.rs`, lines 754–775). -/
def ContractState.claimTxids : ContractState → List Txid
  | .requested r => vals r.claimTxids
  | .resolved r => [r.claimTxid]
  | s => (s.graphData.map fun d => vals d.claimTxids).getD []

namespace BridgeRpc

/-- `RpcDepositStatus` (`crates/rpc/src/types.rs`, lines 23–38). -/
inductive RpcDepositStatus
  | inProgress
  | failed (failureReason : String)
  | complete (depositTxid : Txid)
  deriving DecidableEq, Repr

/-- `RpcBridgeDutyStatus` (`crates/rpc/src/types.rs`, lines 132–149). -/
inductive RpcBridgeDutyStatus
  | deposit (depositRequestTxid : Txid)
  | withdrawal (withdrawalRequestTxid : Buf32) (assignedOperatorIdx : OperatorIdx)
  deriving DecidableEq, Repr

inductive ChallengeStep
  | claim
  | challenge
  | assert
  deriving DecidableEq, Repr

/-- `RpcReimbursementStatus` (`crates/rpc/src/types.rs`, lines 71–95). -/
inductive RpcReimbursementStatus
  | notStarted
  | inProgress (challengeStep : ChallengeStep)
  | challenged (challengeStep : ChallengeStep)
  | cancelled
  | complete (payoutTxid : Txid)
  deriving DecidableEq, Repr

/-! ### Queries

A cached contract is its record, with the deposit, the operator table and the state, beside its
configuration. -/

section Queries

variable (env : Env) (contracts : List ContractSM)

/-- `get_deposit_request_info` (lines 445–474), without the request that is returned beside the
status. A request that no contract has is an error. -/
def getDepositRequestInfo (depositRequestTxid : Txid) : Option RpcDepositStatus :=
  (contracts.find? fun sm => depositRequestTxid = sm.cfg.depositRequestTxid).map fun sm =>
    match sm.state.state with
    | .requested _ => .inProgress
    | _ => .complete (sm.depositTxid env)

def bridgeDuty (sm : ContractSM) : Option RpcBridgeDutyStatus :=
  match sm.state.state with
  | .requested _ => some (.deposit sm.cfg.depositRequestTxid)
  | .assigned a => some (.withdrawal a.withdrawalRequestTxid a.fulfiller)
  | _ => none

/-- `get_bridge_duties` (lines 476–502). -/
def getBridgeDuties : List RpcBridgeDutyStatus := contracts.filterMap bridgeDuty

def bridgeDutyByOperatorPk (operatorPk : PublicKey) (sm : ContractSM) :
    Option RpcBridgeDutyStatus :=
  match sm.cfg.operatorTable.btcKeyToP2pKey operatorPk with
  | none => none
  | some operatorP2pPk =>
    match sm.state.state with
    | .assigned a =>
      if operatorP2pPk ∈ a.claimTxids then some (.withdrawal a.withdrawalRequestTxid a.fulfiller)
      else none
    | _ => none

/-- `get_bridge_duties_by_operator_pk` (lines 504–544). -/
def getBridgeDutiesByOperatorPk (operatorPk : PublicKey) : List RpcBridgeDutyStatus :=
  contracts.filterMap (bridgeDutyByOperatorPk operatorPk)

/-- `contract_state_to_reimbursement_status` (lines 734–759). -/
def contractStateToReimbursementStatus : ContractState → RpcReimbursementStatus
  | .requested _ | .deposited _ | .assigned _ | .fulfilled _ | .aborted => .notStarted
  | .claimed _ => .inProgress .claim
  | .challenged _ => .challenged .challenge
  | .preAssertConfirmed _ | .assertDataConfirmed _ | .asserted _ => .challenged .assert
  | .resolved r => .complete r.payoutTxid
  | .disproved => .cancelled

/-- `get_claim_info` (lines 717–732), without the claim that is returned beside the status. -/
def getClaimInfo (claimTxid : Txid) : Option RpcReimbursementStatus :=
  (contracts.find? fun sm => claimTxid ∈ sm.state.state.claimTxids).map fun sm =>
    contractStateToReimbursementStatus sm.state.state

end Queries

end BridgeRpc

/-! ### What a run has confirmed -/

/-- The phases that a confirmed deposit leads to. -/
def ContractState.isDeposited : ContractState → Bool
  | .requested _ | .aborted => false
  | _ => true

def ContractState.confirmedClaim : ContractState → Option Txid
  | .claimed c | .challenged c => some c.activeGraph.2.claimTxid
  | .preAssertConfirmed p => some p.activeGraph.2.claimTxid
  | .assertDataConfirmed a => some a.activeGraph.2.claimTxid
  | .asserted a => some a.activeGraph.2.claimTxid
  | .resolved r => some r.claimTxid
  | _ => none

namespace ContractSM

open ContractState

variable {env : Env} {sm sm' : ContractSM} {cfg : ContractCfg} {ev : ContractEvent}
  {height deadline : BitcoinBlockHeight} {hist : List (ContractSM × Input)}
  {ds : List OperatorDuty}

def AcceptsDeposit (env : Env) (e : ContractSM × Input) : Prop :=
  ∃ tx sm' ds, e.2 = .event (.depositConfirmation tx) ∧
    env.computeTxid tx = e.1.depositTxid env ∧
    e.1.processContractEvent env (.depositConfirmation tx) = .ok sm' ds

theorem step_isDeposited (hev : ∀ tx, ev ≠ .depositConfirmation tx)
    (h : sm.step env ev = some (sm', ds)) :
    sm'.state.state.isDeposited = sm.state.state.isDeposited := by
  refine Outcome.Leaves.of_next (P := fun sm' => sm'.state.state.isDeposited = _)
    (sm.of_reaction env fun o ho => ?_) h
  cases ho with
  | @requested _ r o hs =>
    rw [hs]
    cases o <;> trivial
  | deposits | depositPanics => exact absurd rfl (hev _)
  | confirmationPanics => trivial
  | assigns hs => obtain hs | ⟨_, hs, -⟩ := hs <;> rw [hs] <;> rfl
  | preAsserts hs => obtain hs | hs := hs <;> rw [hs] <;> rfl
  | aborts _ hs | fulfills hs | claims hs | challenges hs | collects hs | collectsLate hs
  | collectsLast hs | postAsserts hs | disproves hs | paysOptimistic hs | pays hs =>
    rw [hs]
    rfl
  | _ => rfl

theorem processDepositConfirmation_cases (env : Env) (sm : ContractSM) (tx : Transaction) :
    (∃ sm', sm.processDepositConfirmation env tx = .ok sm' [] ∧
      env.computeTxid tx = sm.depositTxid env ∧ sm'.state.state.isDeposited = true) ∨
    (∃ e, sm.processDepositConfirmation env tx = .err sm e) ∨
    ∃ msg, sm.processDepositConfirmation env tx = .panic msg := by
  rw [processDepositConfirmation]
  split
  · exact .inr (.inl ⟨_, rfl⟩)
  next htx =>
  split
  · split
    · exact .inr (.inr ⟨_, rfl⟩)
    · exact .inl ⟨_, rfl, not_not.mp htx, rfl⟩
  · exact .inr (.inl ⟨_, rfl⟩)

theorem serve_isDeposited {i : Input} (h : sm.serve env i = some (sm', ds)) :
    sm'.state.state.isDeposited = true ↔
      sm.state.state.isDeposited = true ∨ AcceptsDeposit env (sm, i) := by
  have hother (hi : ∀ tx, i ≠ .event (.depositConfirmation tx)) :
      ¬AcceptsDeposit env (sm, i) := fun ⟨tx, _, _, htx, _⟩ => hi tx htx
  cases i with
  | event ev =>
    by_cases hev : ∃ tx, ev = .depositConfirmation tx
    · obtain ⟨tx, rfl⟩ := hev
      have hstep : (sm.processDepositConfirmation env tx).next = some (sm', ds) := h
      rcases sm.processDepositConfirmation_cases env tx with
        ⟨sm₁, ho, htx, hs⟩ | ⟨e, ho⟩ | ⟨msg, ho⟩
      · rw [ho] at hstep
        obtain ⟨rfl, -⟩ := Prod.mk.inj (Option.some.inj hstep)
        exact iff_of_true hs (.inr ⟨tx, sm₁, [], rfl, htx, ho⟩)
      · rw [ho] at hstep
        cases hstep
        refine (or_iff_left ?_).symm
        rintro ⟨tx', sm', ds, htx, -, hok⟩
        cases htx
        cases ho.symm.trans hok
      · rw [ho] at hstep
        cases hstep
    · have hev (tx : Transaction) : ev ≠ .depositConfirmation tx := fun h => hev ⟨tx, h⟩
      rw [step_isDeposited hev h, or_iff_left (hother fun tx htx => hev tx (Input.event.inj htx))]
  | _ => rw [(serve_request h (by simp)).1, or_iff_left (hother (by simp))]

/-- The phases after the deposit are those of runs that have accepted its confirmation. -/
theorem History.isDeposited_iff (h : History env (.new cfg height deadline) hist sm) :
    sm.state.state.isDeposited = true ↔ ∃ e ∈ hist, AcceptsDeposit env e := by
  refine h.invariant (I := fun hist sm => sm.state.state.isDeposited = true ↔
    ∃ e ∈ hist, AcceptsDeposit env e) (iff_of_false Bool.false_ne_true (by simp))
    fun hist sm i sm' os hI _ hs => ?_
  obtain ⟨⟨sm₁, ds⟩, hserve, heq⟩ := Option.map_eq_some_iff.mp hs
  cases heq
  rw [serve_isDeposited hserve, hI]
  simp

theorem confirmedClaim_of_advance {table : OperatorTable} {s s' : ContractState}
    (h : s.Advance env table s') (hs : Milestone.claim.awaited s = none) (hs' : s' ≠ .disproved) :
    s'.confirmedClaim = s.confirmedClaim := by
  cases h with
  | assign a hd => obtain rfl | ⟨a', rfl, -⟩ := hd <;> rfl
  | claim => cases hs
  | preAssert c hc => obtain rfl | rfl := hc <;> rfl
  | postAssert a a' hw =>
    exact congrArg (fun w => w.map fun w => w.activeGraph.2.claimTxid) hw
  | disprove => exact absurd rfl hs'
  | payoutOptimistic c r hr | payout c r hr => exact congrArg some hr
  | _ => rfl

theorem confirmedClaim_of_awaited {s : ContractState} {txid : Txid}
    (h : Milestone.claim.awaited s = some txid) : s.confirmedClaim = none := by
  cases s <;> first | rfl | cases h

theorem confirmedClaim_of_recorded {s : ContractState} {e : Txid × BitcoinBlockHeight}
    (h : Milestone.claim.recorded s = some e) : s.confirmedClaim = some e.1 := by
  cases s <;> cases h <;> rfl

theorem History.confirmedClaim_eq (h : History env (.new cfg height deadline) hist sm)
    (hs : sm.state.state ≠ .disproved) :
    (confirmations env .claim hist).map Prod.fst = sm.state.state.confirmedClaim.toList := by
  refine h.invariant (I := fun hist sm => sm.state.state ≠ .disproved →
    (confirmations env .claim hist).map Prod.fst = sm.state.state.confirmedClaim.toList)
    (fun _ => rfl) (fun hist sm i sm' os hI _ hs hend => ?_) hs
  obtain ⟨⟨sm₁, ds⟩, hserve, heq⟩ := Option.map_eq_some_iff.mp hs
  cases heq
  rw [confirmations_snoc, map_append]
  cases i with
  | event ev =>
    have hmove := advance_of_step hserve
    have hbefore : sm.state.state ≠ .disproved := fun hd => hend (by
      rw [hd] at hmove
      exact hmove.eq_of_isFinal rfl)
    rw [hI hbefore]
    cases hawaited : Milestone.claim.awaited sm.state.state with
    | none =>
      rw [confirmation_eq_none hawaited, confirmedClaim_of_advance hmove hawaited hend]
      exact append_nil _
    | some txid =>
      rcases step_of_awaited (.inl rfl) hawaited hserve with ⟨hs', hnone⟩ | ⟨h, hsome, hclaim, -⟩
      · rw [hs', hnone]
        exact append_nil _
      · rw [hsome, confirmedClaim_of_recorded hclaim, confirmedClaim_of_awaited hawaited]
        rfl
  | _ =>
    rw [(serve_request hserve (by simp)).1] at hend ⊢
    rw [hI hend]
    exact append_nil _

theorem History.mem_confirmations_iff (h : History env (.new cfg height deadline) hist sm)
    (hs : sm.state.state ≠ .disproved) {claim : Txid} :
    (∃ confirmedAt, (claim, confirmedAt) ∈ confirmations env .claim hist) ↔
      sm.state.state.confirmedClaim = some claim := by
  rw [← Option.mem_toList, ← h.confirmedClaim_eq hs]
  simp

end ContractSM

namespace BridgeRpc

variable {env : Env} {contracts : List ContractSM} {sm : ContractSM} {cfg : ContractCfg}
  {height deadline : BitcoinBlockHeight} {hist : List (ContractSM × ContractSM.Input)}

/-- **Deposits that are reported as complete.** That of a contract is found on the chain exactly
unless the contract was aborted. -/
theorem depositInfo_sound_iff {depositRequestTxid : Txid}
    (hrun : ContractSM.History env (.new cfg height deadline) hist sm)
    (hfind : contracts.find? (fun sm => depositRequestTxid = sm.cfg.depositRequestTxid) = some sm) :
    (∀ depositTxid,
      getDepositRequestInfo env contracts depositRequestTxid = some (.complete depositTxid) →
      depositTxid = sm.depositTxid env ∧ ∃ e ∈ hist, ContractSM.AcceptsDeposit env e) ↔
    sm.state.state ≠ .aborted := by
  rw [getDepositRequestInfo, hfind, ← hrun.isDeposited_iff]
  cases hs : sm.state.state <;> simp [hs, ContractState.isDeposited]

/-- A deposit that was confirmed is complete. -/
theorem depositInfo_sound_deposited : ∃ hist sm,
    ContractSM.History plain (contract oneOperator) hist sm ∧
    getDepositRequestInfo plain [sm] sm.cfg.depositRequestTxid =
      some (.complete (sm.depositTxid plain)) ∧
    ∃ e ∈ hist, ContractSM.AcceptsDeposit plain e := by
  obtain ⟨sm, hist, hrun, h⟩ := exists_run_of_exec (traced (ContractSM.serve plain))
    (fun _ _ => True) (contract oneOperator)
    [.event (setup 0 2), .event (.depositConfirmation (depositTx 1).tx.unsignedTx)]
    (fun sm _ => sm.state.state.isDeposited ∧
      getDepositRequestInfo plain [sm] sm.cfg.depositRequestTxid =
        some (.complete (sm.depositTxid plain))) (by decide +kernel)
  obtain ⟨hdeposited, hinfo⟩ := of_decide_eq_true h
  have hs : sm.state.state ≠ .aborted := fun hs => by
    rw [hs] at hdeposited
    cases hdeposited
  have hfind : [sm].find? (fun sm' => sm.cfg.depositRequestTxid = sm'.cfg.depositRequestTxid) =
      some sm := by simp
  obtain ⟨-, he⟩ := (depositInfo_sound_iff hrun hfind).mpr hs _ hinfo
  exact ⟨hist, sm, hrun, hinfo, he⟩

/-- A request that nobody serves is aborted at its deadline, and then reported as complete. -/
theorem aborted_is_complete : ∃ hist sm,
    ContractSM.History plain (.new (Linear.cfg oneOperator 0 1) 100 101) hist sm ∧
    getDepositRequestInfo plain [sm] sm.cfg.depositRequestTxid =
      some (.complete (sm.depositTxid plain)) ∧
    ¬∃ e ∈ hist, ContractSM.AcceptsDeposit plain e := by
  obtain ⟨sm, hist, hrun, h⟩ := exists_run_of_exec (traced (ContractSM.serve plain))
    (fun _ _ => True) (.new (Linear.cfg oneOperator 0 1) 100 101) [.event (.block 101)]
    (fun sm _ => sm.state.state.isDeposited = false ∧
      getDepositRequestInfo plain [sm] sm.cfg.depositRequestTxid =
        some (.complete (sm.depositTxid plain))) (by decide +kernel)
  obtain ⟨hdeposited, hinfo⟩ := of_decide_eq_true h
  exact ⟨hist, sm, hrun, hinfo, fun he => Bool.false_ne_true
    (hdeposited.symm.trans ((ContractSM.History.isDeposited_iff hrun).mpr he))⟩

theorem reimbursementStatus_eq_notStarted_iff (s : ContractState) :
    contractStateToReimbursementStatus s = .notStarted ↔
      s.confirmedClaim = none ∧ s ≠ .disproved := by
  cases s <;> simp [contractStateToReimbursementStatus, ContractState.confirmedClaim]

/-- **Claims that are reported as started.** A claim that a contract knows is reported so only if
it was confirmed, unless the contract has another claim confirmed. -/
theorem claimInfo_sound_iff {claimTxid : Txid}
    (hrun : ContractSM.History env (.new cfg height deadline) hist sm)
    (hfind : contracts.find? (fun sm => claimTxid ∈ sm.state.state.claimTxids) = some sm) :
    (∀ status, getClaimInfo contracts claimTxid = some status → status ≠ .notStarted →
      ∃ confirmedAt, (claimTxid, confirmedAt) ∈ ContractSM.confirmations env .claim hist) ↔
    ∀ claim, sm.state.state.confirmedClaim = some claim → claim = claimTxid := by
  have hmem : claimTxid ∈ sm.state.state.claimTxids := by simpa using find?_some hfind
  have hs : sm.state.state ≠ .disproved := fun hs => by
    rw [hs] at hmem
    cases hmem
  rw [getClaimInfo, hfind, hrun.mem_confirmations_iff hs]
  simp only [Option.map_some, Option.some.injEq, forall_eq', ne_eq,
    reimbursementStatus_eq_notStarted_iff, hs]
  cases sm.state.state.confirmedClaim <;> simp

private def linearFulfilledBy (i stake : ℕ) : List ContractEvent :=
  [setup 0 2, setup 1 3, .depositConfirmation (depositTx 1).tx.unsignedTx,
    assignment i 0 1, .pegOutGraphConfirmation (fulfillment i 0 1) 101,
    .pegOutGraphConfirmation (confirmedClaim i stake 1) 102]

theorem linear_claimed (i stake : ℕ) (p : ContractSM → Bool)
    (h : (exec (traced (ContractSM.serve plain)) (fun _ _ => True) (contract twoOperators)
      ((linearFulfilledBy i stake).map .event)).any (fun r => p r.1) = true) : ∃ hist sm,
    ContractSM.History plain (contract twoOperators) hist sm ∧
    p sm = true := by
  obtain ⟨sm, hist, hrun, h⟩ := exists_run_of_exec (traced (ContractSM.serve plain))
    (fun _ _ => True) (contract twoOperators)
    ((linearFulfilledBy i stake).map .event) (fun sm _ => p sm) h
  exact ⟨hist, sm, hrun, h⟩

/-- The claim of operator 0 is confirmed, and reported so. -/
theorem claimInfo_sound_claimed : ∃ hist sm,
    ContractSM.History plain (contract twoOperators) hist sm ∧
    getClaimInfo [sm] (Linear.claimTxid 0 2 1) = some (.inProgress .claim) ∧
    ∃ confirmedAt, (Linear.claimTxid 0 2 1, confirmedAt) ∈
      ContractSM.confirmations plain .claim hist := by
  obtain ⟨hist, sm, hrun, h⟩ := linear_claimed 0 2
    (fun sm => Linear.claimTxid 0 2 1 ∈ sm.state.state.claimTxids ∧
      getClaimInfo [sm] (Linear.claimTxid 0 2 1) = some (.inProgress .claim) ∧
      sm.state.state.confirmedClaim = some (Linear.claimTxid 0 2 1)) (by decide +kernel)
  obtain ⟨hmem, hinfo, hclaim⟩ := of_decide_eq_true h
  have hfind : [sm].find? (fun sm => Linear.claimTxid 0 2 1 ∈ sm.state.state.claimTxids) =
      some sm := by simp [hmem]
  exact ⟨hist, sm, hrun, hinfo, (claimInfo_sound_iff hrun hfind).mpr
    (fun claim h => Option.some.inj (h.symm.trans hclaim)) _ hinfo (by simp)⟩

/-- The claim of operator 1 is confirmed, and that of operator 0 is reported with it. -/
theorem other_claim_in_progress : ∃ hist sm,
    ContractSM.History plain (contract twoOperators) hist sm ∧
    getClaimInfo [sm] (Linear.claimTxid 0 2 1) = some (.inProgress .claim) ∧
    ∀ confirmedAt, (Linear.claimTxid 0 2 1, confirmedAt) ∉
      ContractSM.confirmations plain .claim hist := by
  obtain ⟨hist, sm, hrun, h⟩ := linear_claimed 1 3
    (fun sm => sm.state.state.phase = .claimed ∧
      getClaimInfo [sm] (Linear.claimTxid 0 2 1) = some (.inProgress .claim) ∧
      sm.state.state.confirmedClaim ≠ some (Linear.claimTxid 0 2 1)) (by decide +kernel)
  obtain ⟨hphase, hinfo, hclaim⟩ := of_decide_eq_true h
  refine ⟨hist, sm, hrun, hinfo, fun confirmedAt hmem => hclaim ?_⟩
  have hs : sm.state.state ≠ .disproved := fun hs => by
    rw [hs] at hphase
    cases hphase
  exact (hrun.mem_confirmations_iff hs).mp ⟨confirmedAt, hmem⟩

/-! ### The duties of an operator -/

def RpcBridgeDutyStatus.isAssignedTo (i : OperatorIdx) : RpcBridgeDutyStatus → Bool
  | .deposit _ => false
  | .withdrawal _ assignedOperatorIdx => assignedOperatorIdx = i

@[simp] theorem isAssignedTo_deposit (txid : Txid) (i : OperatorIdx) :
    (RpcBridgeDutyStatus.deposit txid).isAssignedTo i = false := rfl

@[simp] theorem isAssignedTo_withdrawal (txid : Buf32) (i j : OperatorIdx) :
    (RpcBridgeDutyStatus.withdrawal txid j).isAssignedTo i = decide (j = i) := rfl

private theorem filterMap_eq_filterMap_iff {α β : Type} {f g : α → Option β} {l : List α}
    (h : ∀ x ∈ l, g x = f x ∨ g x = none) :
    l.filterMap f = l.filterMap g ↔ ∀ x ∈ l, f x = g x := by
  refine ⟨fun heq => ?_, filterMap_congr⟩
  induction l with
  | nil => simp
  | cons x l ih =>
    obtain ⟨hx, hl⟩ := forall_mem_cons.mp h
    have hle : (l.filterMap g).length ≤ (l.filterMap f).length := by
      rw [length_filterMap_eq_countP, length_filterMap_eq_countP]
      refine countP_mono_left fun y hy hgy => ?_
      rcases hl y hy with hg | hg
      · rwa [hg] at hgy
      · simp [hg] at hgy
    cases hf : f x with
    | none =>
      have hg : g x = none := by simpa [hf] using hx
      rw [filterMap_cons_none hf, filterMap_cons_none hg] at heq
      simpa [hf, hg] using ih hl heq
    | some y =>
      cases hg : g x with
      | none =>
        rw [filterMap_cons_some hf, filterMap_cons_none hg] at heq
        have hlength := congrArg length heq
        rw [length_cons] at hlength
        omega
      | some z =>
        obtain rfl : z = y := by simpa [hf, hg] using hx
        rw [filterMap_cons_some hf, filterMap_cons_some hg] at heq
        simpa [hf, hg] using ih hl (cons.inj heq).2

section Duties

variable {table : OperatorTable} {pk : PublicKey} {i : OperatorIdx} {k : P2POperatorPubKey}
  {a : Assigned}

theorem mem_claimTxids_of_assigned (hr : ContractSM.Reachable env (.new cfg height deadline) sm)
    (hs : sm.state.state = .assigned a) : ∃ k ∈ a.claimTxids,
      sm.cfg.operatorTable.idxToP2pKey a.fulfiller = some k := by
  obtain ⟨k, claim, hk, hclaim, -⟩ := hr.activeOf (w := ⟨a.toGraphData, a.fulfiller, a.activeGraph,
    a.withdrawalRequestTxid⟩) (by rw [hs]; rfl)
  rw [hr.cfg_eq]
  exact ⟨k, mem_iff_exists.mpr ⟨claim, hclaim⟩, hk⟩

theorem bridgeDutyByOperatorPk_eq_iff (hr : ContractSM.Reachable env (.new cfg height deadline) sm)
    (hop : sm.cfg.operatorTable.idxKey[i]? = some (k, pk)) :
    ((bridgeDuty sm).filter (·.isAssignedTo i) = bridgeDutyByOperatorPk pk sm ∨
      (bridgeDuty sm).filter (·.isAssignedTo i) = none) ∧
    (bridgeDutyByOperatorPk pk sm = (bridgeDuty sm).filter (·.isAssignedTo i) ↔
      ∀ a, sm.state.state = .assigned a → k ∈ a.claimTxids → a.fulfiller = i) := by
  have hpk : sm.cfg.operatorTable.btcKeyToP2pKey pk = some k := by
    simp [btcKeyToP2pKey, (sm.cfg.operatorTable.btcKey_iff i k pk).mpr hop]
  rw [bridgeDuty, bridgeDutyByOperatorPk, hpk]
  cases hs : sm.state.state with
  | assigned a =>
    obtain ⟨k', hmem, hk'⟩ := mem_claimTxids_of_assigned hr hs
    by_cases hi : a.fulfiller = i
    · obtain rfl : k' = k := by simpa [idxToP2pKey, hi, hop] using hk'.symm
      simp [Option.filter_some, hi, hmem]
    · simp [Option.filter_some, hi]
  | _ => simp [Option.filter_some]

/-- **The duties of the operators.** In every cache of contracts that share a table, an operator
gets exactly the withdrawals that are assigned to it, so that the lists of the operators divide
all withdrawals, if and only if in every assigned contract the assigned operator is the only one
that has a claim. -/
theorem dutiesByOperatorPk_eq_iff
    (hcontracts : ∀ sm ∈ contracts, sm.cfg.operatorTable = table ∧
      ∃ cfg height deadline, ContractSM.Reachable env (.new cfg height deadline) sm) :
    ((∀ pk i, table.btcKeyToIdx pk = some i → getBridgeDutiesByOperatorPk contracts pk =
        (getBridgeDuties contracts).filter (·.isAssignedTo i)) ∧
      (∀ pk pk' i j, table.btcKeyToIdx pk = some i → table.btcKeyToIdx pk' = some j → i ≠ j →
        (getBridgeDutiesByOperatorPk contracts pk).Disjoint
          (getBridgeDutiesByOperatorPk contracts pk')) ∧
      ∀ txid i, .withdrawal txid i ∈ getBridgeDuties contracts → ∃ pk,
        table.btcKeyToIdx pk = some i ∧
        .withdrawal txid i ∈ getBridgeDutiesByOperatorPk contracts pk) ↔
    ∀ sm ∈ contracts, ∀ a, sm.state.state = .assigned a → ∀ k ∈ a.claimTxids, ∀ i,
      table.idxToP2pKey i = some k → a.fulfiller = i := by
  have hlist {pk : PublicKey} {i : OperatorIdx} {k : P2POperatorPubKey}
      (hop : table.idxKey[i]? = some (k, pk)) : getBridgeDutiesByOperatorPk contracts pk =
        (getBridgeDuties contracts).filter (·.isAssignedTo i) ↔
      ∀ sm ∈ contracts, ∀ a, sm.state.state = .assigned a → k ∈ a.claimTxids → a.fulfiller = i := by
    rw [getBridgeDutiesByOperatorPk, getBridgeDuties, filter_filterMap, filterMap_eq_filterMap_iff]
    · refine forall₂_congr fun sm hsm => ?_
      obtain ⟨rfl, cfg, height, deadline, hr⟩ := hcontracts sm hsm
      exact (bridgeDutyByOperatorPk_eq_iff hr hop).2
    · intro sm hsm
      obtain ⟨rfl, cfg, height, deadline, hr⟩ := hcontracts sm hsm
      exact (bridgeDutyByOperatorPk_eq_iff hr hop).1
  constructor
  · rintro ⟨hall, -, -⟩ sm hsm a hs k hk i hi
    obtain ⟨⟨_, pk⟩, hop, rfl⟩ := Option.map_eq_some_iff.mp hi
    exact (hlist hop).mp (hall pk i (by simp [btcKeyToIdx,
      (table.btcKey_iff i _ pk).mpr hop])) sm hsm a hs hk
  · intro hone
    have hall (pk : PublicKey) (i : OperatorIdx) (hpk : table.btcKeyToIdx pk = some i) :
        getBridgeDutiesByOperatorPk contracts pk =
          (getBridgeDuties contracts).filter (·.isAssignedTo i) := by
      obtain ⟨⟨_, k⟩, hb, rfl⟩ := Option.map_eq_some_iff.mp hpk
      have hop := (table.btcKey_iff _ k pk).mp hb
      exact (hlist hop).mpr fun sm hsm a hs hk =>
        hone sm hsm a hs k hk _ (by simp [idxToP2pKey, hop])
    refine ⟨hall, fun pk pk' i j hi hj hne d hd hd' => hne ?_, fun txid i hd => ?_⟩
    · rw [hall pk i hi, mem_filter] at hd
      rw [hall pk' j hj, mem_filter] at hd'
      cases d with
      | deposit txid => cases hd.2
      | withdrawal txid idx =>
        exact (of_decide_eq_true hd.2).symm.trans (of_decide_eq_true hd'.2)
    · obtain ⟨sm, hsm, hduty⟩ := mem_filterMap.mp hd
      obtain ⟨rfl, cfg, height, deadline, hr⟩ := hcontracts sm hsm
      obtain ⟨a, hs, rfl⟩ : ∃ a, sm.state.state = .assigned a ∧ a.fulfiller = i := by
        rw [bridgeDuty] at hduty
        split at hduty <;> cases hduty
        exact ⟨_, ‹_›, rfl⟩
      obtain ⟨k, -, hk⟩ := mem_claimTxids_of_assigned hr hs
      obtain ⟨⟨_, pk⟩, hop, rfl⟩ := Option.map_eq_some_iff.mp hk
      have hpk : sm.cfg.operatorTable.btcKeyToIdx pk = some a.fulfiller := by
        simp [btcKeyToIdx, (sm.cfg.operatorTable.btcKey_iff _ _ pk).mpr hop]
      refine ⟨pk, hpk, ?_⟩
      rw [hall pk _ hpk, mem_filter]
      exact ⟨hd, decide_eq_true rfl⟩

end Duties

/-- The only operator is told of the contract that it is assigned to. -/
theorem dutiesByOperatorPk_eq_alone : ∃ sm,
    ContractSM.Reachable plain (contract oneOperator) sm ∧
    getBridgeDuties [sm] = [.withdrawal ⟨60⟩ 0] ∧
    getBridgeDutiesByOperatorPk [sm] (operator 0).btc =
      (getBridgeDuties [sm]).filter (·.isAssignedTo 0) := by
  obtain ⟨sm, hr, h⟩ := ContractSM.exists_reachable plain (contract oneOperator)
    [setup 0 2, .depositConfirmation (depositTx 1).tx.unsignedTx, assignment 0 0 1]
    (fun sm => match sm.state.state with
      | .assigned a => a.fulfiller = 0 ∧ a.claimTxids.keys = [⟨10⟩] ∧
        getBridgeDuties [sm] = [.withdrawal ⟨60⟩ 0]
      | _ => false) (by decide +kernel)
  split at h
  next hs =>
    obtain ⟨hfulfiller, hkeys, hduties⟩ := of_decide_eq_true h
    have hcontracts : ∀ sm' ∈ [sm], sm'.cfg.operatorTable = oneOperator ∧
        ∃ cfg height deadline, ContractSM.Reachable plain (.new cfg height deadline) sm' := by
      simp only [mem_singleton, forall_eq]
      exact ⟨by rw [hr.cfg_eq]; rfl, _, _, _, hr⟩
    refine ⟨sm, hr, hduties, ((dutiesByOperatorPk_eq_iff hcontracts).mpr ?_).1 _ _ (by decide)⟩
    simp only [mem_singleton, forall_eq, hs, ContractState.assigned.injEq, forall_eq']
    intro k hk i hi
    obtain rfl : k = ⟨10⟩ := by simpa [hkeys] using Std.ExtTreeMap.mem_keys.mpr hk
    rw [← p2pKeyToIdx_eq_some] at hi
    exact hfulfiller.trans (Option.some.inj ((by decide :
      oneOperator.p2pKeyToIdx ⟨10⟩ = some 0).symm.trans hi))
  next => cases h

/-- The contract is assigned to operator 1, and operator 0 is told to serve it. -/
theorem other_operator_told : ∃ sm,
    ContractSM.Reachable plain (contract twoOperators) sm ∧
    twoOperators.btcKeyToIdx (operator 0).btc = some 0 ∧
    getBridgeDuties [sm] = [.withdrawal ⟨60⟩ 1] ∧
    getBridgeDutiesByOperatorPk [sm] (operator 0).btc = [.withdrawal ⟨60⟩ 1] := by
  exact exists_reachable_of_decide
    [setup 0 2, setup 1 3, .depositConfirmation (depositTx 1).tx.unsignedTx,
      assignment 1 0 1] (by decide +kernel)

end BridgeRpc

end StrataBridge
