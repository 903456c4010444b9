import StrataBridge.DutyTracker.ContractSM
import StrataBridge.Transition.Runs

/-!
# Answering requests of peers

A peer that misses nonces or partial signatures asks for them, and the manager builds the duty
to publish them from the state of the contract, which it does not change. So a contract lives
under two kinds of inputs: events, and requests that read it.

## References

* `crates/duty-tracker/src/contract_manager.rs`, lines 1263–1476
-/

namespace StrataBridge

open Rust

namespace ContractSM

variable (env : Env) (sm : ContractSM)

/-- `process_graph_nonces_request` (lines 1263–1307). -/
def processGraphNoncesRequest (claim : Txid) : MayPanic (Option OperatorDuty) :=
  match sm.state.state with
  | .requested r =>
    match sm.state.state.claimToOperator claim with
    | none => .ok none
    | some owner =>
      match r.pegOutGraphInputs[owner]? with
      | none => .error "graph input must exist if claim_txid exists"
      | some input =>
        let graph := sm.cfg.cachedGraph env sm.pog input
        let existing := r.graphNonces[claim]?.bind fun session =>
          session[sm.cfg.operatorTable.povP2pKey]?
        .ok (some (.publishGraphNonces claim (graph.musigInpoints env) graph.musigWitnesses
          existing))
  | _ => .ok none

/-- `process_root_nonces_request` (lines 1309–1342): only once the graphs of all operators are
signed. -/
def processRootNoncesRequest (requestTxid : Txid) : Option OperatorDuty :=
  match sm.state.state with
  | .requested r =>
    if r.graphSigs.size ≠ sm.cfg.operatorTable.cardinality then none
    else some (.publishRootNonce requestTxid (sm.cfg.depositTx.tx.witnesses.get 0)
      r.rootNonces[sm.cfg.operatorTable.povP2pKey]?)
  | _ => none

/-- `process_graph_signatures_request` (lines 1374–1434), for the operator with the given key. -/
def processGraphSignaturesRequest (ourP2pKey : P2POperatorPubKey) (claim : Txid) :
    MayPanic (Option OperatorDuty) :=
  match sm.state.state with
  | .requested r =>
    let existing := r.graphPartials[claim]?.bind fun session => session[ourP2pKey]?
    match sm.state.state.claimToOperator claim with
    | none => .ok none
    | some owner =>
      match r.pegOutGraphInputs[owner]? with
      | none => .error "graph input must exist if claim_txid exists"
      | some input =>
        match r.aggNonces[claim]? with
        | none => .ok none
        | some aggnonces => .ok (some (Requested.signatureDuty env claim aggnonces
            (sm.cfg.cachedGraph env sm.pog input) existing))
  | _ => .ok none

/-- `process_root_signatures_request` (lines 1436–1476): the sum of the nonces that are there. -/
def processRootSignaturesRequest (requestTxid : Txid) : MayPanic (Option OperatorDuty) :=
  match sm.state.state with
  | .requested r =>
    match sm.cfg.operatorTable.convertMapP2pToBtc r.rootNonces with
    | .error _ => .error "valid operator table"
    | .ok rootNonces => .ok (some (.publishRootSignature requestTxid
        (AggNonce.sum (BTreeMap.vals rootNonces)) (Requested.depositSighash env sm.cfg)
        (sm.cfg.depositTx.tx.witnesses.get 0)
        r.rootPartials[sm.cfg.operatorTable.povP2pKey]?))
  | _ => .ok none

/-! ### Events and requests together -/

inductive Input where
  | event (ev : ContractEvent)
  | graphNoncesRequest (claim : Txid)
  | rootNoncesRequest (requestTxid : Txid)
  | graphSignaturesRequest (claim : Txid)
  | rootSignaturesRequest (requestTxid : Txid)

def answer (duty : MayPanic (Option OperatorDuty)) : Option (ContractSM × List OperatorDuty) :=
  match duty with
  | .error _ => none
  | .ok duty => some (sm, duty.toList)

def serve : Input → Option (ContractSM × List OperatorDuty)
  | .event ev => sm.step env ev
  | .graphNoncesRequest claim => sm.answer (sm.processGraphNoncesRequest env claim)
  | .rootNoncesRequest requestTxid => sm.answer (.ok (sm.processRootNoncesRequest requestTxid))
  | .graphSignaturesRequest claim => sm.answer
      (sm.processGraphSignaturesRequest env sm.cfg.operatorTable.povP2pKey claim)
  | .rootSignaturesRequest requestTxid =>
    sm.answer (sm.processRootSignaturesRequest env requestTxid)

def FromTable : Input → Prop
  | .event ev => ∀ k, ev.sender = some k → k ∈ sm.cfg.operatorTable.p2pKey
  | _ => True

instance (i : Input) : Decidable (sm.FromTable i) :=
  match i with
  | .event ev => decidable_of_iff (ev.sender.all (· ∈ sm.cfg.operatorTable.p2pKey) = true) <| by
      cases h : ev.sender <;> simp [FromTable, h]
  | .graphNoncesRequest _ | .rootNoncesRequest _ | .graphSignaturesRequest _
  | .rootSignaturesRequest _ => .isTrue trivial

end ContractSM

end StrataBridge
