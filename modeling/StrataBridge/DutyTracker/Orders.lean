import StrataBridge.DutyTracker.Duties

/-!
# The arguments of the duties of a fulfiller

The operator that serves a withdrawal is told step by step which transaction of its graph to
publish next. Each of these duties carries identifiers for the executor to work with. They are
those of the graph on record, whatever event the duty answers.

## References

* `crates/duty-tracker/src/contract_state_machine.rs`, lines 2285–2957
-/

namespace StrataBridge

open Rust

def FulfillerDuty.Orders (env : Env) (cfg : ContractCfg) (active : ActiveGraph) :
    FulfillerDuty → Prop
  | .publishClaim _ stakeTxid depositTxid =>
    stakeTxid = active.2.stakeTxid ∧ depositTxid = cfg.depositTxid env
  | .publishPayoutOptimistic depositTxid claimTxid stakeTxid stakeIndex _ =>
    depositTxid = cfg.depositTxid env ∧ claimTxid = active.2.claimTxid ∧
      stakeTxid = active.2.stakeTxid ∧ stakeIndex = cfg.depositIdx
  | .publishPreAssert _ depositTxid claimTxid _ =>
    depositTxid = cfg.depositTxid env ∧ claimTxid = active.2.claimTxid
  | .publishAssertData _ _ _ depositTxid preAssertTxid _ =>
    depositTxid = cfg.depositTxid env ∧ preAssertTxid = active.2.preAssertTxid
  | .publishPostAssertData depositTxid assertDataTxids _ =>
    depositTxid = cfg.depositTxid env ∧ assertDataTxids = active.2.assertDataTxids
  | .publishPayout depositIdx depositTxid postAssertTxid claimTxid stakeTxid _ =>
    depositIdx = cfg.depositIdx ∧ depositTxid = cfg.depositTxid env ∧
      postAssertTxid = active.2.postAssertTxid ∧ claimTxid = active.2.claimTxid ∧
      stakeTxid = active.1.stakeOutpoint.txid
  | .initStakeChain => False
  | .handleFulfillment .. => True

namespace ContractSM

/-- The duties for the graph of the withdrawal a contract is busy with, and those that are not
about a graph. -/
def MayOrder (env : Env) (sm : ContractSM) : OperatorDuty → Prop
  | .fulfillerDuty (.handleFulfillment ..) => True
  | .fulfillerDuty duty => ∃ w, sm.state.state.withdrawal = some w ∧
      duty.Orders env sm.cfg w.activeGraph
  | _ => True

variable {env : Env} {sm : ContractSM}

theorem MayOrder.orders {duty : FulfillerDuty} {w : Withdrawal}
    (h : sm.MayOrder env (.fulfillerDuty duty)) (hw : sm.state.state.withdrawal = some w) :
    duty.Orders env sm.cfg w.activeGraph := by
  cases duty with
  | handleFulfillment => trivial
  | _ =>
    obtain ⟨w', hw', horders⟩ := h
    obtain rfl := Option.some.inj (hw.symm.trans hw')
    exact horders

/-- **The duties of a fulfiller have the arguments of its graph.** -/
theorem processContractEvent_orders (env : Env) (sm : ContractSM) (ev : ContractEvent) :
    (sm.processContractEvent env ev).Emits (sm.MayOrder env) := by
  have hone {sm' : ContractSM} {d : OperatorDuty} (h : sm.MayOrder env d) :
      (Outcome.ok sm' [d] : Outcome ContractSM TransitionErr _).Emits (sm.MayOrder env) := by
    simpa using h
  refine sm.of_reaction env fun o ho => ?_
  cases ho with
  | requested hs ho =>
    refine Outcome.emits_embed.mpr ((Requested.process_emits_signing ho).mono fun d hd => ?_)
    cases d with
    | fulfillerDuty duty => exact absurd rfl (hd.1 duty)
    | _ => trivial
  | claimMatures _ hs => exact hone ⟨_, by rw [hs]; rfl, rfl, rfl, rfl, rfl⟩
  | challengeMatures _ hs => exact hone ⟨_, by rw [hs]; rfl, rfl, rfl⟩
  | assertionMatures _ hs => exact hone ⟨_, by rw [hs]; rfl, rfl, rfl, rfl, rfl, rfl⟩
  | fulfills hs =>
    split
    · exact hone ⟨_, by rw [hs]; rfl, rfl, rfl⟩
    · simp
  | preAsserts hs htx hds =>
    rcases hds with rfl | ⟨-, scripts, rfl⟩
    · simp
    · rcases hs with hs | hs <;> exact hone ⟨_, by rw [hs]; rfl, rfl, htx⟩
  | collectsLast hs _ _ hds =>
    rcases hds with ⟨-, rfl⟩ | ⟨-, sigs, -, rfl⟩
    · simp
    · exact hone ⟨_, by rw [hs]; rfl, rfl, rfl⟩
  | claims | postAsserts =>
    split <;> simp [MayOrder]
  | _ => simp [MayOrder, fulfillmentDuty]

theorem step_of_fulfillment {a : Assigned} {tx : Transaction} (height : BitcoinBlockHeight)
    (hs : sm.state.state = .assigned a)
    (htx : isFulfillmentTx env sm.cfg.network sm.cfg.pegOutGraphParams a.fulfiller
      sm.cfg.depositIdx (sm.depositTxid env) a.recipient tx = true)
    (hpov : sm.isPov a.fulfiller = true) :
    ∃ sm', sm.step env (.pegOutGraphConfirmation tx height) =
      some (sm', [.fulfillerDuty (.publishClaim (env.computeTxid tx) a.activeGraph.2.stakeTxid
        (sm.depositTxid env))]) := by
  rw [step, processContractEvent, processPegOutGraphTxConfirmation]
  simp only [processFulfillmentConfirmation, hs, htx, hpov]
  exact ⟨_, rfl⟩

end ContractSM

end StrataBridge
