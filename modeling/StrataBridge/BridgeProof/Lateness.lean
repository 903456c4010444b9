import StrataBridge.DutyTracker.Roles
import StrataBridge.Instance.LinearProof

/-!
# Claims for late fulfillments

A contract stores the deadline of the withdrawal it is assigned, but when the fulfillment is
confirmed it does not look at it: the operator is told to publish its claim at whatever height the
transaction is. The statement of the bridge proof does look at the deadline, so a claim for a
fulfillment far enough above it cannot be defended.

## References

* `crates/duty-tracker/src/contract_state_machine.rs`, lines 2429–2665;
  `crates/bridge-proof/protocol/src/statement.rs`, lines 156–161
-/

namespace StrataBridge

open Rust Linear

variable {ds : List OperatorDuty}

def ContractEvent.isAssignment : ContractEvent → Bool
  | .assignment .. => true
  | _ => false

namespace ContractSM

open ContractState

variable {env : Env} {sm sm' : ContractSM}

/-! ### The deadline of an assignment -/

/-- **Only assignments change an assignment.** A contract that is assigned after another event was
assigned in the same way before. -/
theorem assigned_of_step {ev : ContractEvent} {a : Assigned} (h : sm.step env ev = some (sm', ds))
    (hev : ev.isAssignment = false) (ha : sm'.state.state = .assigned a) :
    sm.state.state = .assigned a := by
  refine Outcome.Leaves.of_next (P := fun sm' => sm'.state.state = .assigned a →
    sm.state.state = .assigned a) (sm.of_reaction env fun o ho => ?_) h ha
  cases ho with
  | requested => exact Outcome.leaves_embed.mpr (.of_forall (fun _ => nofun) _)
  | assigns | assignsStub | passesAssignment => cases hev
  | rejects | passes | rejectsBlock | takes | takesLate | claimMatures | challengeMatures
  | assertionMatures | passesPayment | claimFails | assertionFails => exact id
  | depositPanics | confirmationPanics => trivial
  | _ => exact nofun

theorem deadline_of_processAssignment {entry : DepositEntry} {stakeTx : StakeTxKind}
    {height : BitcoinBlockHeight} {dispatched : DispatchedState}
    (h : sm.processAssignment env entry stakeTx height = .ok sm' ds)
    (hentry : entry.depositState = .dispatched dispatched) {a : Assigned}
    (ha : sm'.state.state = .assigned a) : a.deadline = dispatched.execDeadline := by
  have ho := sm.reaction env (.assignment entry stakeTx height)
  rw [processContractEvent] at ho
  generalize sm.processAssignment env entry stakeTx height = o at h ho
  cases ho with
  | rejects => cases h
  | passes hev | requested _ hev => cases hev
  | assigns _ hentry' _ _ _ _ _ hdeadline =>
    cases h
    cases ha
    obtain rfl := DepositState.dispatched.inj (hentry.symm.trans hentry')
    exact hdeadline
  | assignsStub hs =>
    cases h
    cases hs.symm.trans ha
  | passesAssignment _ hother =>
    cases h
    exact absurd ha (hother a)

private theorem assigned_of_fulfilled {ev : ContractEvent} (h : sm.step env ev = some (sm', ds))
    (hbefore : sm.phase ≠ .fulfilled) (hafter : sm'.phase = .fulfilled) :
    ∃ a, sm.state.state = .assigned a := by
  have hmove := advance_of_step h
  rw [phase] at hbefore hafter
  generalize sm.state.state = s at hmove hbefore
  generalize sm'.state.state = s' at hmove hafter
  cases hmove with
  | stay => exact absurd hafter hbefore
  | fulfill a f hw => exact ⟨a, rfl⟩
  | _ => cases hafter

/-! ### The proof of a claim -/

section Proof

variable {env : ProofEnv} {sm₀ sm₁ sm₂ sm₃ : ContractSM}

/-- **When a claim is not found late.** A withdrawal is assigned with a deadline, the fulfillment is
confirmed at a height, and the operator is told to publish its claim. A proof for a fulfillment in
the block with that height, from a chain state with that deadline, is not rejected for lateness if
and only if the height is at most one more than the deadline that the contract has stored, when the
heights fit into `usize`. -/
theorem defends_claim_iff {entry : DepositEntry} {dispatched : DispatchedState}
    {stakeTx : StakeTxKind} {l1StartHeight height : BitcoinBlockHeight} {tx : Transaction}
    {ds ds' : List OperatorDuty} (hentry : entry.depositState = .dispatched dispatched)
    (hassign : sm₀.processAssignment env.toEnv entry stakeTx l1StartHeight = .ok sm₁ ds)
    (hrun : Transition.Reachable (step env.toEnv) (fun _ ev => ev.isAssignment = false) sm₁ sm₂)
    (hconfirm : sm₂.processContractEvent env.toEnv (.pegOutGraphConfirmation tx height) =
      .ok sm₃ ds')
    (hfulfilled : sm₂.phase ≠ .fulfilled ∧ sm₃.phase = .fulfilled)
    (hclaim : ∃ txid stakeTxid depositTxid,
      .fulfillerDuty (.publishClaim txid stakeTxid depositTxid) ∈ ds')
    {rollupParams : RollupParams} {params : PegOutGraphParams} {input : BridgeProofInput}
    {headers : List Header} {chainstate : Chainstate} {info : WithdrawalInfo}
    {dispatched' : DispatchedState}
    (hproof : checkFulfillment env rollupParams params input headers =
      .ok () (chainstate, info, dispatched'))
    (hdeadline : dispatched'.execDeadline = dispatched.execDeadline)
    (hheight : chainstate.headerVs.lastVerifiedHeight + 1 + input.withdrawalFulfillmentTx.2 =
      height) :
    sm₂.ServedByPov ∧ ∃ a, sm₂.state.state = .assigned a ∧
      (processBridgeProof env rollupParams params input headers ≠ .err () .deadlineExceeded ↔
        (height - 1) % 2 ^ env.usizeBits ≤ a.deadline % 2 ^ env.usizeBits) := by
  have hstep : sm₂.step env.toEnv (.pegOutGraphConfirmation tx height) = some (sm₃, ds') :=
    congrArg Outcome.next hconfirm
  obtain ⟨txid, stakeTxid, depositTxid, hmem⟩ := hclaim
  have hserved : sm₂.Assigns (.fulfillerDuty (.publishClaim txid stakeTxid depositTxid)) :=
    (processContractEvent_assigns env.toEnv sm₂ _).of_next hstep _ hmem
  refine ⟨hserved, ?_⟩
  obtain ⟨a, ha⟩ := assigned_of_fulfilled hstep hfulfilled.1 hfulfilled.2
  -- between the assignment and the fulfillment the contract keeps the deadline
  have hstored : ∀ a, sm₂.state.state = .assigned a → a.deadline = dispatched.execDeadline := by
    refine hrun.invariant (I := fun sm => ∀ a, sm.state.state = .assigned a →
      a.deadline = dispatched.execDeadline) ?_ ?_
    · exact fun a ha => deadline_of_processAssignment hassign hentry ha
    · intro sm ev sm' ds hI hev hs a ha
      exact hI a (assigned_of_step hs hev ha)
  refine ⟨a, ha, ?_⟩
  have hcounted : withdrawalFulfillmentHeight env chainstate.headerVs
      input.withdrawalFulfillmentTx.2 = (height - 1) % 2 ^ env.usizeBits := by
    rw [withdrawalFulfillmentHeight_eq, ← hheight, Nat.add_right_comm, Nat.add_sub_cancel]
  rw [Ne, processBridgeProof_deadlineExceeded_iff, hstored a ha, ← hdeadline, ← hcounted]
  constructor
  · exact fun h => not_lt.mp fun hlate => h ⟨chainstate, info, dispatched', hproof, hlate⟩
  · rintro hle ⟨_, _, _, hproof', hlate⟩
    obtain ⟨⟩ := (Outcome.ok.inj (hproof.symm.trans hproof')).2
    exact absurd hlate (not_lt.mpr hle)

private def asksForClaim : OperatorDuty → Bool
  | .fulfillerDuty (.publishClaim ..) => true
  | _ => false

private theorem exists_publishClaim (h : ds.any asksForClaim = true) :
    ∃ txid stakeTxid depositTxid,
      .fulfillerDuty (.publishClaim txid stakeTxid depositTxid) ∈ ds := by
  obtain ⟨d, hd, hasks⟩ := List.any_eq_true.mp h
  match d with
  | .fulfillerDuty (.publishClaim txid stakeTxid depositTxid) =>
    exact ⟨txid, stakeTxid, depositTxid, hd⟩

private def claimsFor (deadline height : ℕ) (sm₀ : ContractSM) : Bool :=
  let env := (proofEnvUntil 1 deadline).toEnv
  match sm₀.processAssignment env (entryUntil 1 deadline) stakeTx 100 with
  | .ok sm₁ _ =>
    match sm₁.processContractEvent env (.pegOutGraphConfirmation (fulfillment 0 0 1) height) with
    | .ok sm₃ ds' => sm₁.phase ≠ .fulfilled && sm₃.phase = .fulfilled && ds'.any asksForClaim
    | _ => false
  | _ => false

private theorem exists_claim (deadline height : ℕ)
    (h : (Transition.exec (step (proofEnvUntil 1 deadline).toEnv) (fun _ _ => True)
      (.new (Linear.cfg oneOperator 0 1) 100 1100)
      [Linear.setup 0 2, .depositConfirmation (depositTx 1).tx.unsignedTx]).any
        (fun r => claimsFor deadline height r.1) = true) :
    ∃ sm₀ sm₁ sm₃ ds ds',
      Reachable (proofEnvUntil 1 deadline).toEnv (.new (Linear.cfg oneOperator 0 1) 100 1100) sm₀ ∧
      sm₀.processAssignment (proofEnvUntil 1 deadline).toEnv (entryUntil 1 deadline)
        stakeTx 100 = .ok sm₁ ds ∧
      sm₁.processContractEvent (proofEnvUntil 1 deadline).toEnv
        (.pegOutGraphConfirmation (fulfillment 0 0 1) height) = .ok sm₃ ds' ∧
      (sm₁.phase ≠ .fulfilled ∧ sm₃.phase = .fulfilled) ∧
      ∃ txid stakeTxid depositTxid,
        .fulfillerDuty (.publishClaim txid stakeTxid depositTxid) ∈ ds' := by
  obtain ⟨sm₀, hr, h⟩ := exists_reachable _ _ _ _ h
  rw [claimsFor] at h
  split at h
  next sm₁ ds hassign =>
    split at h
    next sm₃ ds' hconfirm =>
      simp only [Bool.and_eq_true, decide_eq_true_eq] at h
      exact ⟨sm₀, sm₁, sm₃, ds, ds', hr, hassign, hconfirm, h.1, exists_publishClaim h.2⟩
    · cases h
  · cases h

theorem claim_defended_linear : ∃ sm : ContractSM, sm.ServedByPov ∧
    ∃ a, sm.state.state = .assigned a ∧
      (prove 102 2 12 ≠ .err () .deadlineExceeded ↔ (103 - 1) % 2 ^ 64 ≤ a.deadline % 2 ^ 64) := by
  obtain ⟨sm₀, sm₁, sm₃, ds, ds', -, hassign, hconfirm, hfulfilled, hclaim⟩ :=
    exists_claim 102 103 (by decide +kernel)
  have hproof : checkFulfillment (proofEnvUntil 1 102) Linear.rollupParams
      graphParams (proofInput (fulfillment 0 0 1) 2)
      (Linear.headers (fulfillment 0 0 1) 2 12) = .ok ()
        (dispatchedUntil 1 102,
          ⟨graphParams.tag, 0, 0, Linear.depositTxid 1, toBeBytes 4 50, 900⟩,
          ⟨[⟨⟨50⟩, 900⟩], 0, 102⟩) := by
    decide +kernel
  exact ⟨sm₁, defends_claim_iff rfl hassign .refl hconfirm hfulfilled hclaim hproof rfl rfl⟩

/-- **A claim that cannot be defended is published.** The deadline is block 101 and the fulfillment
is in block 103, the third after the last block that the chain state has verified: the operator
publishes its claim, and the proof for it is rejected for lateness. -/
theorem late_claim_published : ∃ sm₀ sm₁ sm₃ ds ds',
    Reachable (proofEnvUntil 1 101).toEnv (.new (Linear.cfg oneOperator 0 1) 100 1100) sm₀ ∧
    sm₀.processAssignment (proofEnvUntil 1 101).toEnv (entryUntil 1 101) stakeTx 100 = .ok sm₁ ds ∧
    sm₁.processContractEvent (proofEnvUntil 1 101).toEnv
      (.pegOutGraphConfirmation (fulfillment 0 0 1) 103) = .ok sm₃ ds' ∧
    (sm₁.phase ≠ .fulfilled ∧ sm₃.phase = .fulfilled) ∧
    (∃ txid stakeTxid depositTxid,
      .fulfillerDuty (.publishClaim txid stakeTxid depositTxid) ∈ ds') ∧
    (dispatchedUntil 1 101).headerVs.lastVerifiedHeight + 1 +
      (proofInput (fulfillment 0 0 1) 2).withdrawalFulfillmentTx.2 = 103 ∧
    prove 101 2 12 = .err () .deadlineExceeded := by
  obtain ⟨sm₀, sm₁, sm₃, ds, ds', hr, hassign, hconfirm, hfulfilled, hclaim⟩ :=
    exists_claim 101 103 (by decide +kernel)
  exact ⟨sm₀, sm₁, sm₃, ds, ds', hr, hassign, hconfirm, hfulfilled, hclaim, rfl,
    by decide +kernel⟩

end Proof

end ContractSM

end StrataBridge
