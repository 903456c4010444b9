import StrataBridge.DutyTracker.Acceptance
import StrataBridge.Instance.Linear

/-!
# Which delivered transactions a contract accepts

A contract names the transactions it wants by `ContractSM.transactionFilter`; a confirmation it
then rejects stops the whole node. The filter looks at the graphs of all operators, whatever the
phase; the handlers look at the phase first and then at the active graph only.
`ContractSM.Awaits` says, phase by phase, which transactions are accepted.
-/

namespace StrataBridge

open Rust Linear

namespace ContractSM

variable {env : Env} {sm : ContractSM}

/-- **A delivered transaction is not rejected exactly when the contract awaits it.** -/
theorem delivery_accepted_iff {cfg : ContractCfg} {height deadline : BitcoinBlockHeight}
    (hr : Reachable env (.new cfg height deadline) sm) (tx : Transaction)
    (confirmedAt : BitcoinBlockHeight) :
    (sm.transactionFilter env tx →
      ¬(sm.processContractEvent env (.pegOutGraphConfirmation tx confirmedAt)).IsErr) ↔
    (sm.transactionFilter env tx → sm.Awaits env tx) := by
  rw [processContractEvent,
    (sm.processPegOutGraphTxConfirmation_decided env confirmedAt tx).2 hr.collectsActive, not_not]

private def isAssigned : ContractState → Bool
  | .assigned _ => true
  | _ => false

/-- An assigned contract accepts the payment of its operator. -/
theorem assigned_accepts_fulfillment : ∃ sm,
    Reachable plain (contract oneOperator) sm ∧
    sm.transactionFilter plain (fulfillment 0 0 1) ∧
    ¬(sm.processContractEvent plain (.pegOutGraphConfirmation (fulfillment 0 0 1) 101)).IsErr := by
  obtain ⟨sm, hr, h⟩ := exists_reachable plain (contract oneOperator)
    [setup 0 2, .depositConfirmation (depositTx 1).tx.unsignedTx, assignment 0 0 1]
    (fun sm => sm.transactionFilter plain (fulfillment 0 0 1) && isAssigned sm.state.state)
    (by decide +kernel)
  rw [Bool.and_eq_true] at h
  refine ⟨sm, hr, h.1, (delivery_accepted_iff hr _ 101).mpr (fun _ => ?_) h.1⟩
  unfold Awaits
  cases hs : sm.state.state with
  | assigned a => trivial
  | _ => simp [hs, isAssigned] at h

/-- A contract that knows its graphs and sees its deposit is delivered the claim of an operator
who was never assigned, and rejects it. -/
theorem unassigned_claim_rejected : ∃ sm,
    Reachable plain (contract oneOperator) sm ∧
    sm.transactionFilter plain (graph 0 2 1).claimTx.unsignedTx ∧
    (sm.processContractEvent plain
      (.pegOutGraphConfirmation (graph 0 2 1).claimTx.unsignedTx 101)).IsErr := by
  exact Transition.exists_reachable_of_decide
    [setup 0 2, .depositConfirmation (depositTx 1).tx.unsignedTx]
    (by decide +kernel)

end ContractSM

end StrataBridge
