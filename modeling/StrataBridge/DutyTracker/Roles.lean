import StrataBridge.DutyTracker.Delivery
import StrataBridge.DutyTracker.Duties
import StrataBridge.DutyTracker.PhaseOrder

/-!
# Who is asked for what

The operator that serves a withdrawal publishes the transactions of its graph; the other operators
verify its claim and its assertion. The handlers follow this rule with one exception: once the
post-assert of the operator is confirmed, the verification of the assertion is asked of that
operator, and of no other one.

## References

* `crates/duty-tracker/src/contract_state_machine.rs`, lines 2285–2426, 2592–3036
-/

namespace StrataBridge

open Rust Transition Linear

def OperatorDuty.isFulfillerWork : OperatorDuty → Bool
  | .fulfillerDuty (.publishClaim ..) | .fulfillerDuty (.publishPayoutOptimistic ..)
  | .fulfillerDuty (.publishPreAssert ..) | .fulfillerDuty (.publishAssertData ..)
  | .fulfillerDuty (.publishPostAssertData ..) | .fulfillerDuty (.publishPayout ..) => true
  | _ => false

def ContractEvent.isConfirmation : ContractEvent → Bool
  | .pegOutGraphConfirmation .. => true
  | _ => false

namespace ContractSM

variable {env : Env} {sm sm' : ContractSM}

def ServedByPov (sm : ContractSM) : Prop :=
  ∃ w, sm.state.state.withdrawal = some w ∧ sm.isPov w.fulfiller = true

def ServedByOther (sm : ContractSM) : Prop :=
  ∃ w, sm.state.state.withdrawal = some w ∧ sm.isPov w.fulfiller = false

/-- An event confirms a transaction and moves the contract from one phase to another. -/
def Confirms (p q : Phase) (sm : ContractSM) (ev : ContractEvent) (sm' : ContractSM) : Prop :=
  ev.isConfirmation = true ∧ sm.phase = p ∧ sm'.phase = q

/-- The roles are separated at an event: the work of the fulfiller is asked of the fulfiller only,
and the verification of a claim or of an assertion is asked exactly when its confirmation is
accepted and another operator serves the withdrawal. -/
def RoleSeparated (env : Env) (sm : ContractSM) (ev : ContractEvent) : Prop :=
  ∀ sm' ds, sm.step env ev = some (sm', ds) →
    (∀ d ∈ ds, d.isFulfillerWork = true → sm.ServedByPov) ∧
    (.verifierDuty .verifyClaim ∈ ds ↔
      Confirms .fulfilled .claimed sm ev sm' ∧ sm.ServedByOther) ∧
    (.verifierDuty .verifyAssertion ∈ ds ↔
      Confirms .assertDataConfirmed .asserted sm ev sm' ∧ sm.ServedByOther)

/-! ### What the handlers ask for -/

def Assigns (sm : ContractSM) : OperatorDuty → Prop
  | .fulfillerDuty (.publishClaim ..) | .fulfillerDuty (.publishPayoutOptimistic ..)
  | .fulfillerDuty (.publishPreAssert ..) | .fulfillerDuty (.publishAssertData ..)
  | .fulfillerDuty (.publishPostAssertData ..) | .fulfillerDuty (.publishPayout ..) =>
    sm.ServedByPov
  | .verifierDuty .verifyClaim => sm.phase = .fulfilled
  | .verifierDuty .verifyAssertion => sm.phase = .assertDataConfirmed
  | _ => True

private theorem assigns_of_isFulfillerWork {d : OperatorDuty} (h : sm.Assigns d)
    (hd : d.isFulfillerWork = true) : sm.ServedByPov := by
  cases d with
  | fulfillerDuty fd => cases fd <;> first | exact h | cases hd
  | _ => cases hd

/-- **The duties of the fulfiller are asked of the fulfiller**, and the verification of a claim or
an assertion in the phase it belongs to. -/
theorem processContractEvent_assigns (env : Env) (sm : ContractSM) (ev : ContractEvent) :
    (sm.processContractEvent env ev).Emits sm.Assigns := by
  have hone {sm' : ContractSM} {d : OperatorDuty} (h : sm.Assigns d) :
      (Outcome.ok sm' [d] : Outcome ContractSM TransitionErr _).Emits sm.Assigns := by
    simpa using h
  refine sm.of_reaction env fun o ho => ?_
  cases ho with
  | requested hs ho =>
    refine Outcome.emits_embed.mpr ((Requested.process_emits_signing ho).mono fun d hd => ?_)
    cases d with
    | fulfillerDuty duty => exact absurd rfl (hd.1 duty)
    | verifierDuty duty => exact absurd rfl (hd.2 duty)
    | _ => trivial
  | claimMatures _ hs _ hpov | challengeMatures _ hs _ hpov | assertionMatures _ hs _ hpov =>
    exact hone ⟨_, by rw [hs]; rfl, hpov⟩
  | fulfills hs =>
    split
    next hpov => exact hone ⟨_, by rw [hs]; rfl, hpov⟩
    next => simp
  | claims hs =>
    split
    · simp
    · exact hone (show sm.phase = .fulfilled by rw [phase, hs]; rfl)
  | preAsserts hs _ hds =>
    rcases hds with rfl | ⟨hpov, scripts, rfl⟩
    · simp
    · rcases hs with hs | hs <;> exact hone ⟨_, by rw [hs]; rfl, hpov⟩
  | collectsLast hs _ _ hds =>
    rcases hds with ⟨-, rfl⟩ | ⟨hpov, sigs, -, rfl⟩
    · simp
    · exact hone ⟨_, by rw [hs]; rfl, hpov⟩
  | postAsserts hs =>
    split
    · exact hone (show sm.phase = .assertDataConfirmed by rw [phase, hs]; rfl)
    · simp
  | _ => simp [Assigns, fulfillmentDuty]

/-! ### One event -/

private theorem processClaimConfirmation_cases (env : Env) {f : Fulfilled}
    (hs : sm.state.state = .fulfilled f) (height : BitcoinBlockHeight) (tx : Transaction) :
    (∃ c, sm.processClaimConfirmation env height tx = .ok (sm.setState (.claimed c))
      (if sm.isPov f.fulfiller then [] else [.verifierDuty .verifyClaim])) ∨
    (∃ e, sm.processClaimConfirmation env height tx = .err sm e) ∨
    ∃ msg, sm.processClaimConfirmation env height tx = .panic msg := by
  simp only [processClaimConfirmation, hs]
  split
  · exact .inr (.inl ⟨_, rfl⟩)
  split
  · exact .inr (.inr ⟨_, rfl⟩)
  · exact .inr (.inl ⟨_, rfl⟩)
  · exact .inl ⟨_, rfl⟩

private theorem processPostAssertConfirmation_cases (env : Env) {a : AssertDataConfirmed}
    (hs : sm.state.state = .assertDataConfirmed a) (height : BitcoinBlockHeight)
    (tx : Transaction) :
    (∃ a', sm.processPostAssertConfirmation env tx height = .ok (sm.setState (.asserted a'))
      (if sm.isPov a.fulfiller then [.verifierDuty .verifyAssertion] else [])) ∨
    ∃ e, sm.processPostAssertConfirmation env tx height = .err sm e := by
  simp only [processPostAssertConfirmation, hs]
  split
  · exact .inr ⟨_, rfl⟩
  split
  · exact .inr ⟨_, rfl⟩
  split
  · exact .inr ⟨_, rfl⟩
  split
  · exact .inr ⟨_, rfl⟩
  · exact .inl ⟨_, rfl⟩

theorem servedByOther_iff {w : Withdrawal} (hw : sm.state.state.withdrawal = some w) :
    sm.ServedByOther ↔ sm.isPov w.fulfiller = false := by
  constructor
  · rintro ⟨w', hw', h⟩
    rwa [Option.some.inj (hw.symm.trans hw')]
  · exact fun h => ⟨w, hw, h⟩

theorem isConfirmation_of_verify {ev : ContractEvent} {v : VerifierDuty}
    (h : ev.MayEmit (.verifierDuty v)) (hv : v = .verifyClaim ∨ v = .verifyAssertion) :
    ev.isConfirmation = true := by
  cases ev with
  | pegOutGraphConfirmation => rfl
  | _ => rcases hv with rfl | rfl <;> exact h.elim

private theorem verifyClaim_iff {ev : ContractEvent} {ds : List OperatorDuty}
    (h : sm.step env ev = some (sm', ds)) :
    .verifierDuty .verifyClaim ∈ ds ↔
      Confirms .fulfilled .claimed sm ev sm' ∧ sm.ServedByOther := by
  by_cases hphase : ev.isConfirmation = true ∧ sm.phase = .fulfilled
  · obtain ⟨hev, hphase⟩ := hphase
    cases ev with
    | pegOutGraphConfirmation tx height =>
      cases hs : sm.state.state with
      | fulfilled f =>
        rw [servedByOther_iff (by rw [hs]; rfl), Confirms, hphase]
        simp only [step, processContractEvent, processPegOutGraphTxConfirmation, hs] at h
        rcases processClaimConfirmation_cases env hs height tx with
          ⟨c, heq⟩ | ⟨e, heq⟩ | ⟨msg, heq⟩ <;> rw [heq] at h
        · cases h
          cases hpov : sm.isPov f.fulfiller <;>
            simp [ContractEvent.isConfirmation, phase, ContractState.phase]
        · cases h
          simp [hphase]
        · cases h
      | _ =>
        rw [phase, hs] at hphase
        cases hphase
    | _ => cases hev
  · refine iff_of_false (fun hd => hphase ⟨?_, ?_⟩) fun hc => hphase ⟨hc.1.1, hc.1.2.1⟩
    · exact isConfirmation_of_verify ((processContractEvent_emits env sm ev).of_next h _ hd)
        (.inl rfl)
    · exact (processContractEvent_assigns env sm ev).of_next h (.verifierDuty .verifyClaim) hd

private theorem not_asked_of_other {w : Withdrawal} (hw : sm.state.state.withdrawal = some w) :
    ¬(.verifierDuty .verifyAssertion ∈ (if sm.isPov w.fulfiller = true then
      [OperatorDuty.verifierDuty .verifyAssertion] else []) ↔ sm.ServedByOther) := by
  rw [servedByOther_iff hw]
  cases sm.isPov w.fulfiller <;> simp

/-- At a confirmation in the phase before the assertion, the verification is asked of the right
operator exactly when the transaction is not awaited. -/
private theorem verifyAssertion_iff_not_awaits {a : AssertDataConfirmed}
    (hs : sm.state.state = .assertDataConfirmed a) (hc : sm.state.state.CollectsActive)
    (tx : Transaction) (confirmedAt : BitcoinBlockHeight) :
    (∀ sm' ds, sm.step env (.pegOutGraphConfirmation tx confirmedAt) = some (sm', ds) →
      (.verifierDuty .verifyAssertion ∈ ds ↔ Confirms .assertDataConfirmed .asserted sm
        (.pegOutGraphConfirmation tx confirmedAt) sm' ∧ sm.ServedByOther)) ↔
    ¬sm.Awaits env tx := by
  have hphase : sm.phase = .assertDataConfirmed := by rw [phase, hs]; rfl
  rw [← (sm.processPegOutGraphTxConfirmation_decided env confirmedAt tx).2 hc]
  simp only [step, processContractEvent, processPegOutGraphTxConfirmation, hs]
  rcases processPostAssertConfirmation_cases env hs confirmedAt tx with ⟨a', heq⟩ | ⟨e, heq⟩
  · rw [heq]
    refine iff_of_false (fun h => ?_) (by simp)
    have hconfirms : Confirms .assertDataConfirmed .asserted sm
        (.pegOutGraphConfirmation tx confirmedAt) (sm.setState (.asserted a')) :=
      ⟨rfl, hphase, rfl⟩
    have hasked := (h _ _ rfl).trans (and_iff_right hconfirms)
    exact not_asked_of_other (w := ⟨a.toGraphData, a.fulfiller, a.activeGraph, _⟩)
      (by rw [hs]; rfl) hasked
  · rw [heq]
    refine iff_of_true (fun sm' ds hstep => ?_) (by simp)
    cases hstep
    simp [Confirms, hphase]

/-- **The roles are separated except at the confirmation of a post-assert.** In a reachable
contract, an event leads to duties of the right operators exactly when it is not the confirmation
of the post-assert that the contract awaits. -/
theorem roleSeparated_iff {cfg : ContractCfg} {height deadline : BitcoinBlockHeight}
    (hr : Reachable env (.new cfg height deadline) sm) (ev : ContractEvent) :
    sm.RoleSeparated env ev ↔ ¬(sm.phase = .assertDataConfirmed ∧
      ∃ tx confirmedAt, ev = .pegOutGraphConfirmation tx confirmedAt ∧ sm.Awaits env tx) := by
  -- only the verification of an assertion is ever asked of the wrong operator
  have hsep : sm.RoleSeparated env ev ↔ ∀ sm' ds, sm.step env ev = some (sm', ds) →
      (.verifierDuty .verifyAssertion ∈ ds ↔
        Confirms .assertDataConfirmed .asserted sm ev sm' ∧ sm.ServedByOther) := by
    refine ⟨fun h sm' ds hstep => (h sm' ds hstep).2.2, fun h sm' ds hstep => ⟨?_, ?_, ?_⟩⟩
    · exact fun d hd => assigns_of_isFulfillerWork
        ((processContractEvent_assigns env sm ev).of_next hstep d hd)
    · exact verifyClaim_iff hstep
    · exact h sm' ds hstep
  rw [hsep]
  by_cases hphase : ev.isConfirmation = true ∧ sm.phase = .assertDataConfirmed
  · obtain ⟨hev, hphase⟩ := hphase
    cases ev with
    | pegOutGraphConfirmation tx confirmedAt =>
      cases hs : sm.state.state with
      | assertDataConfirmed a =>
        rw [verifyAssertion_iff_not_awaits hs hr.collectsActive, not_iff_not]
        refine ⟨fun h => ⟨hphase, tx, confirmedAt, rfl, h⟩, ?_⟩
        rintro ⟨-, tx', confirmedAt', heq, h⟩
        cases heq
        exact h
      | _ =>
        rw [phase, hs] at hphase
        cases hphase
    | _ => cases hev
  · refine iff_of_true (fun sm' ds hstep => ?_) ?_
    · refine iff_of_false (fun hd => hphase ⟨?_, ?_⟩) fun hc => hphase ⟨hc.1.1, hc.1.2.1⟩
      · exact isConfirmation_of_verify ((processContractEvent_emits env sm ev).of_next hstep _ hd)
          (.inr rfl)
      · exact (processContractEvent_assigns env sm ev).of_next hstep
          (.verifierDuty .verifyAssertion) hd
    · rintro ⟨hp, tx, confirmedAt, rfl, -⟩
      exact hphase ⟨rfl, hp⟩

/-! ### Runs in the linear instance -/

private def linearFulfilled : List ContractEvent :=
  [setup 0 2, setup 1 3, .depositConfirmation (depositTx 1).tx.unsignedTx,
    assignment 1 0 1, .pegOutGraphConfirmation (fulfillment 1 0 1) 101]

/-- The confirmation of the claim of operator 1 leads to its verification by operator 0. -/
theorem roleSeparated_at_claim : ∃ sm ev,
    Reachable plain (contract twoOperators) sm ∧
    sm.phase = .fulfilled ∧ sm.RoleSeparated plain ev ∧
    ∃ sm' d, sm.step plain ev = some (sm', [d]) ∧ sm'.phase = .claimed := by
  let ev : ContractEvent := .pegOutGraphConfirmation (confirmedClaim 1 3 1) 102
  obtain ⟨sm, hr, h⟩ := exists_reachable plain (contract twoOperators) linearFulfilled
    (fun sm => sm.phase = .fulfilled ∧ (sm.step plain ev).any fun p =>
      p.2.length = 1 ∧ p.1.phase = .claimed) (by decide +kernel)
  obtain ⟨hphase, h⟩ := of_decide_eq_true h
  obtain ⟨⟨sm', ds⟩, hstep, h⟩ := (Option.any_eq_true _ _).mp h
  obtain ⟨hlength, hclaimed⟩ := of_decide_eq_true h
  obtain ⟨d, rfl⟩ := List.length_eq_one_iff.mp hlength
  refine ⟨sm, ev, hr, hphase, (roleSeparated_iff hr ev).mpr ?_, sm', d, hstep, hclaimed⟩
  rintro ⟨hp, -⟩
  cases hp.symm.trans hphase

/-- The post-assert of operator 1 is confirmed, and operator 0 is not asked to verify it. -/
theorem assertion_not_verified : ∃ sm sm' ev,
    Reachable plain (contract twoOperators) sm ∧
    sm.step plain ev = some (sm', []) ∧
    Confirms .assertDataConfirmed .asserted sm ev sm' ∧ sm.ServedByOther := by
  let graph := graph 1 3 1
  let ev : ContractEvent := .pegOutGraphConfirmation graph.assertChain.postAssert.unsignedTx 105
  obtain ⟨sm, hr, h⟩ := exists_reachable plain (contract twoOperators)
    (linearFulfilled ++ [.pegOutGraphConfirmation (confirmedClaim 1 3 1) 102,
      .pegOutGraphConfirmation graph.assertChain.preAssert.unsignedTx 103] ++
      graph.assertChain.assertData.toList.map fun tx => .pegOutGraphConfirmation tx 104)
    (fun sm => sm.phase = .assertDataConfirmed ∧
      (sm.state.state.withdrawal.any fun w => sm.isPov w.fulfiller = false) ∧
      (sm.step plain ev).any fun p => p.1.phase = .asserted ∧ p.2.isEmpty)
    (by decide +kernel)
  obtain ⟨hphase, hother, h⟩ := of_decide_eq_true h
  obtain ⟨w, hw, hpov⟩ := (Option.any_eq_true _ _).mp hother
  obtain ⟨⟨sm', ds⟩, hstep, h⟩ := (Option.any_eq_true _ _).mp h
  obtain ⟨hasserted, hempty⟩ := of_decide_eq_true h
  obtain rfl := List.isEmpty_iff.mp hempty
  exact ⟨sm, sm', ev, hr, hstep, ⟨rfl, hphase, hasserted⟩, w, hw, of_decide_eq_true hpov⟩

end ContractSM

end StrataBridge
