import StrataBridge.DutyTracker.ClaimIndex
import StrataBridge.DutyTracker.ContractOrigins
import StrataBridge.DutyTracker.DepositRequests
import StrataBridge.DutyTracker.Numbering
import StrataBridge.Instance.LinearGraph

/-!
# Asking for missing messages

A deposit goes through six stages before it is signed, and in each of them the manager needs a
message of every operator, or one for each claim. Every now and then it asks for what it misses: of
every contract, for what is missing in the first stage that is not complete. A request names the
session under which the message is sent, and so the session has to lead back to the contract. For
graphs that is the index of claims. For the signature of the deposit itself it is the txid of the
deposit request, and it leads to the contract as long as no two contracts have the same request.

## Main definitions

* `ContractManagerCtx.dueRequests`: what is missing
* `NagItem.Routed`: a session leads back to its contract

## Main results

* `ContractManagerCtx.nag_exact_and_routed`: what is missing is asked for, and nothing else

## References

* `crates/duty-tracker/src/contract_manager.rs`, lines 1486–1703
-/

namespace StrataBridge

open Rust Transition Linear BTreeMap List ContractManagerCtx

variable {idx : ℕ} {tx : Transaction} {es : List Emission}

structure Nag where
  operatorPk : P2POperatorPubKey
  request : GetMessageRequest
  deriving DecidableEq, Repr

namespace ContractManagerCtx

section Nag

variable (ctx : ContractManagerCtx)

def nagUnless (has : P2POperatorPubKey → Bool) (request : GetMessageRequest) : List Nag :=
  (ctx.cfg.operatorTable.p2pKeys.filter fun op => !has op).map fun op => ⟨op, request⟩

def inSession {T : Type} (sessions : BTreeMap Txid (Session T)) (claim : Txid)
    (op : P2POperatorPubKey) : Bool :=
  match sessions[claim]? with
  | some session => op ∈ session
  | none => false

/-- The requests for one contract, up to the first stage in which something is missing (lines
1526–1699). Stake data are asked for in every phase. -/
def nagContract (txid : Txid) (sm : ContractSM) : List Nag :=
  let requests := ctx.nagUnless
    (fun op => (ctx.stakeChains.stakeTxid op sm.cfg.depositIdx).isSome) (.depositSetup txid)
  if !requests.isEmpty then requests
  else
    match sm.state.state with
    | .requested r =>
      let requests := ctx.nagUnless (· ∈ r.pegOutGraphInputs) (.depositSetup txid)
      if !requests.isEmpty then requests
      else
        let requests := (vals r.claimTxids).flatMap fun claim =>
          ctx.nagUnless (inSession r.graphNonces claim) (.musig2NoncesExchange claim)
        if !requests.isEmpty then requests
        else
          let requests := (vals r.claimTxids).flatMap fun claim =>
            ctx.nagUnless (inSession r.graphPartials claim) (.musig2SignaturesExchange claim)
          if !requests.isEmpty then requests
          else
            let requests := ctx.nagUnless (· ∈ r.rootNonces)
              (.musig2NoncesExchange r.depositRequestTxid)
            if !requests.isEmpty then requests
            else
              ctx.nagUnless (· ∈ r.rootPartials) (.musig2SignaturesExchange r.depositRequestTxid)
    | _ => []

/-- `nag` (lines 1486–1703): the operators without a stake chain are asked for their exchange, and
then come the requests of the contracts. -/
def nag : List Nag :=
  ctx.nagUnless (· ∈ ctx.stakeChains.stakeChains) .stakeChainExchange ++
    ctx.activeContracts.toList.flatMap fun e => ctx.nagContract e.1 e.2

end Nag

end ContractManagerCtx

/-! ### Stages -/

inductive NagStage where
  | stakeData
  | depositSetup
  | graphNonces
  | graphSigs
  | rootNonces
  | rootSigs
  deriving DecidableEq, Repr

def NagStage.all : List NagStage :=
  [.stakeData, .depositSetup, .graphNonces, .graphSigs, .rootNonces, .rootSigs]

inductive NagItem where
  | stakeData
  | depositSetup
  | graphNonces (claim : Txid)
  | graphSigs (claim : Txid)
  | rootNonce
  | rootSig
  deriving DecidableEq, Repr

def NagStage.items (r : Requested) : NagStage → List NagItem
  | .stakeData => [.stakeData]
  | .depositSetup => [.depositSetup]
  | .graphNonces => (vals r.claimTxids).map .graphNonces
  | .graphSigs => (vals r.claimTxids).map .graphSigs
  | .rootNonces => [.rootNonce]
  | .rootSigs => [.rootSig]

def NagItem.request (k : Txid) (r : Requested) : NagItem → GetMessageRequest
  | .stakeData | .depositSetup => .depositSetup k
  | .graphNonces claim => .musig2NoncesExchange claim
  | .graphSigs claim => .musig2SignaturesExchange claim
  | .rootNonce => .musig2NoncesExchange r.depositRequestTxid
  | .rootSig => .musig2SignaturesExchange r.depositRequestTxid

namespace ContractManagerCtx

section Stages

variable (ctx : ContractManagerCtx) (k : Txid) (sm : ContractSM) (r : Requested)

def holds (op : P2POperatorPubKey) : NagItem → Bool
  | .stakeData => (ctx.stakeChains.stakeTxid op sm.cfg.depositIdx).isSome
  | .depositSetup => op ∈ r.pegOutGraphInputs
  | .graphNonces claim => inSession r.graphNonces claim op
  | .graphSigs claim => inSession r.graphPartials claim op
  | .rootNonce => op ∈ r.rootNonces
  | .rootSig => op ∈ r.rootPartials

def missing (stage : NagStage) : List (P2POperatorPubKey × NagItem) :=
  (stage.items r).flatMap fun item =>
    (ctx.cfg.operatorTable.p2pKeys.filter fun op => !ctx.holds sm r op item).map (·, item)

def firstIncomplete : Option NagStage :=
  NagStage.all.find? fun stage => !(ctx.missing sm r stage).isEmpty

def dueRequests : List Nag :=
  match ctx.firstIncomplete sm r with
  | none => []
  | some stage => (ctx.missing sm r stage).map fun p => ⟨p.1, p.2.request k r⟩

end Stages

variable {ctx : ContractManagerCtx} {k : Txid} {sm : ContractSM} {r : Requested}

theorem mem_missing {stage : NagStage} {op : P2POperatorPubKey} {item : NagItem} :
    (op, item) ∈ ctx.missing sm r stage ↔
      item ∈ stage.items r ∧ op ∈ ctx.cfg.operatorTable.p2pKeys ∧
        ctx.holds sm r op item = false := by
  simp only [missing, mem_flatMap, mem_map, mem_filter, Prod.mk.injEq]
  constructor
  · rintro ⟨item', hitem, op', ⟨hop, hholds⟩, rfl, rfl⟩
    exact ⟨hitem, hop, by simpa using hholds⟩
  · rintro ⟨hitem, hop, hholds⟩
    exact ⟨item, hitem, op, ⟨hop, by simp [hholds]⟩, rfl, rfl⟩

def stageRequests (ctx : ContractManagerCtx) (k : Txid) (sm : ContractSM) (r : Requested)
    (stage : NagStage) : List Nag :=
  (stage.items r).flatMap fun item =>
    ctx.nagUnless (fun op => ctx.holds sm r op item) (item.request k r)

theorem map_missing (stage : NagStage) :
    ((ctx.missing sm r stage).map fun p => (⟨p.1, p.2.request k r⟩ : Nag)) =
      ctx.stageRequests k sm r stage := by
  rw [missing, map_flatMap]
  refine flatMap_congr fun item _ => ?_
  rw [map_map]
  rfl

private theorem find_missing (stages : List NagStage) :
    (match stages.find? fun stage => !(ctx.missing sm r stage).isEmpty with
      | none => []
      | some stage => (ctx.missing sm r stage).map fun p => (⟨p.1, p.2.request k r⟩ : Nag)) =
    stages.foldr (fun stage rest => if !(ctx.stageRequests k sm r stage).isEmpty then
      ctx.stageRequests k sm r stage else rest) [] := by
  induction stages with
  | nil => rfl
  | cons stage stages ih =>
    have hempty : (ctx.stageRequests k sm r stage).isEmpty = (ctx.missing sm r stage).isEmpty := by
      rw [← map_missing, isEmpty_map]
    rw [foldr_cons, ← ih, hempty]
    cases hstage : (ctx.missing sm r stage).isEmpty with
    | true => simp [hstage]
    | false => simp [hstage, ← map_missing]

/-- **What a contract is missing is asked for**, stage by stage. -/
theorem nagContract_eq (hr : sm.state.state = .requested r) :
    ctx.nagContract k sm = ctx.dueRequests k sm r := by
  rw [dueRequests, firstIncomplete, find_missing, nagContract, hr]
  simp only [NagStage.all, foldr_cons, foldr_nil, stageRequests, NagStage.items,
    flatMap_map, flatMap_singleton]
  have hlast (l : List Nag) : (if !l.isEmpty then l else []) = l := by
    cases l <;> rfl
  rw [hlast]
  rfl

end ContractManagerCtx

/-! ### Routing -/

/-- **Messages for an item reach the contract.** An announcement under the deposit goes to the
contract once the stake chain has taken it. Nonces and signatures under a claim are given to the
contract as nonces and signatures of the graph, and those under the deposit request, of which there
has to be one, as those of the deposit. -/
def NagItem.Routed (env : Env) (ctx : ContractManagerCtx) (k : Txid) (sm : ContractSM)
    (r : Requested) (op : P2POperatorPubKey) : NagItem → Prop
  | .stakeData | .depositSetup => ∀ setup stakeChains txid,
      ctx.stakeChains.processSetup env op setup = .ok stakeChains (some txid) →
        ctx.processUnsignedGossipMsg env op (.depositSetup k setup) =
          setupContract env { ctx with stakeChains } op k sm setup
  | .graphNonces claim => ∀ nonces,
      ctx.processUnsignedGossipMsg env op (.musig2NoncesExchange claim nonces) =
        ctx.deliver env k sm (.graphNonces op claim nonces)
  | .graphSigs claim => ∀ signatures,
      ctx.processUnsignedGossipMsg env op (.musig2SignaturesExchange claim signatures) =
        (ctx.deliver env k sm (.graphSigs op claim signatures)).bind fun ctx duties =>
          .ok (if duties.isEmpty then ctx else ctx.commit claim k) duties
  | .rootNonce => ∀ nonce,
      ctx.processUnsignedGossipMsg env op (.musig2NoncesExchange r.depositRequestTxid [nonce]) =
        ctx.deliver env k sm (.rootNonce op nonce)
  | .rootSig => ∀ signature,
      ctx.processUnsignedGossipMsg env op
          (.musig2SignaturesExchange r.depositRequestTxid [signature]) =
        ctx.deliver env k sm (.rootSig op signature)

namespace ContractManagerCtx

/-- The deposit requests of the contracts are told apart by their txids, and none is a claim: the
second output of a request carries data. -/
structure RequestsApart (env : Env) (txs : List Transaction) (ctx : ContractManagerCtx) :
    Prop where
  requests : ∀ (k : Txid) sm, ctx.activeContracts[k]? = some sm → ∃ tx ∈ txs,
    env.computeTxid tx = sm.cfg.depositRequestTxid ∧
      ∃ out, tx.output[1]? = some out ∧ isP2tr out.scriptPubkey = false
  apart : ∀ (k : Txid) sm (k' : Txid) sm', ctx.activeContracts[k]? = some sm →
    ctx.activeContracts[k']? = some sm' →
      sm.cfg.depositRequestTxid = sm'.cfg.depositRequestTxid → k = k'

section Routing

variable {env : Env} {txs : List Transaction} {ctx : ContractManagerCtx} {k : Txid}
  {sm : ContractSM} {r : Requested}

theorem findByClaim_of_indexed (hsm : ctx.activeContracts[k]? = some sm) {claim : Txid}
    (h : ctx.claimTxids[claim]? = some k) : ctx.findByClaim claim = some (k, sm) := by
  rw [findByClaim, h, Option.bind_some, hsm, Option.map_some]

theorem findByClaim_request (htxs : env.TxidsDistinct txs) (hindexed : Indexed env txs ctx)
    (hapart : RequestsApart env txs ctx) (hsm : ctx.activeContracts[k]? = some sm) :
    ctx.findByClaim sm.cfg.depositRequestTxid = none := by
  rw [findByClaim]
  cases hclaim : ctx.claimTxids[sm.cfg.depositRequestTxid]? with
  | none => rfl
  | some k' =>
    obtain ⟨idx, tx, htx, htxid, -, out, hout, hp2tr⟩ := hindexed.known _ k' hclaim
    obtain ⟨tx', htx', htxid', out', hout', hdata⟩ := hapart.requests k sm hsm
    have hsame := Transaction.output_eq_of_withoutWitness
      (htxs tx htx tx' htx' (htxid.trans htxid'.symm))
    rw [hsame, hout'] at hout
    cases hout
    rw [hp2tr] at hdata
    cases hdata

theorem findByRequest_of_apart (hapart : RequestsApart env txs ctx)
    (hsm : ctx.activeContracts[k]? = some sm) :
    ctx.findByRequest sm.cfg.depositRequestTxid = some (k, sm) := by
  rw [findByRequest]
  cases hfind : ctx.activeContracts.toList.find? fun e =>
      e.2.cfg.depositRequestTxid = sm.cfg.depositRequestTxid with
  | none =>
    have hnone := find?_eq_none.mp hfind (k, sm) (mem_toList.mpr hsm)
    simp at hnone
  | some e =>
    have hmem := mem_toList.mp (mem_of_find?_eq_some hfind)
    have hrequest : e.2.cfg.depositRequestTxid = sm.cfg.depositRequestTxid := by
      simpa using find?_some hfind
    obtain rfl := hapart.apart e.1 e.2 k sm hmem hsm hrequest
    rw [hsm] at hmem
    rw [Option.some.inj hmem]

/-- **Messages reach the contract** in whose name they are asked for. -/
theorem routed_of_mem_items (htxs : env.TxidsDistinct txs) (hindexed : Indexed env txs ctx)
    (hapart : RequestsApart env txs ctx) (hsm : ctx.activeContracts[k]? = some sm)
    (hr : sm.state.state = .requested r)
    (hrequest : r.depositRequestTxid = sm.cfg.depositRequestTxid) {stage : NagStage}
    {item : NagItem} (hitem : item ∈ stage.items r) (op : P2POperatorPubKey) :
    item.Routed env ctx k sm r op := by
  have hclaim {claim : Txid} (hmem : claim ∈ vals r.claimTxids) :
      ctx.findByClaim claim = some (k, sm) := by
    obtain ⟨owner, howner⟩ := mem_vals.mp hmem
    exact findByClaim_of_indexed hsm (hindexed.indexed k sm r owner claim hsm hr howner)
  have hnone := findByClaim_request htxs hindexed hapart hsm
  have hfound := findByRequest_of_apart hapart hsm
  cases item with
  | stakeData | depositSetup =>
    intro setup stakeChains txid hsetup
    rw [processUnsignedGossipMsg, processDepositSetup, hsm]
    rw [hsetup]
  | graphNonces claim =>
    have hmem : claim ∈ vals r.claimTxids := by
      cases stage <;> simp [NagStage.items] at hitem
      exact hitem
    intro nonces
    rw [processUnsignedGossipMsg, processNonces, hclaim hmem]
  | graphSigs claim =>
    have hmem : claim ∈ vals r.claimTxids := by
      cases stage <;> simp [NagStage.items] at hitem
      exact hitem
    intro signatures
    rw [processUnsignedGossipMsg, processSignatures, hclaim hmem]
  | rootNonce =>
    intro nonce
    rw [processUnsignedGossipMsg, processNonces, hrequest, hnone]
    rw [hfound]
    rfl
  | rootSig =>
    intro signature
    rw [processUnsignedGossipMsg, processSignatures, hrequest, hnone]
    rw [hfound]

end Routing

/-! ### Deposit requests -/

section Requests

variable {env : Env} {txs : List Transaction} {ctx ctx' : ContractManagerCtx}

theorem opReturnData_of_isP2tr {script : ScriptBuf} (h : isP2tr script = true) :
    opReturnData script = none := by
  rw [isP2tr, Bool.and_eq_true, decide_eq_true_eq, decide_eq_true_eq] at h
  obtain ⟨rest, rfl⟩ : ∃ rest, script = 0x51 :: rest := by
    cases script with
    | nil => cases h.2
    | cons b rest => exact ⟨rest, by rw [(cons.inj h.2).1]⟩
  rfl

theorem exists_of_depositAt {depositTx : DepositTx}
    (h : ctx.depositAt env idx tx = some depositTx) : ∃ data,
      ctx.requestIn env idx tx = .ok (some data) ∧ ctx.depositFor env data = .ok depositTx := by
  rw [depositAt] at h
  split at h
  · rename_i data hdata
    refine ⟨data, hdata, ?_⟩
    cases hnew : ctx.depositFor env data with
    | error _ => rw [hnew] at h; cases h
    | ok built =>
      rw [hnew] at h
      rw [← Option.some.inj h]
  · cases h

theorem second_of_requestMetadata {sidesystemParams : RollupParams} {params : PegOutGraphParams}
    {shown : TxOut × Bytes} (h : requestMetadata sidesystemParams params tx = some shown) :
    ∃ out, tx.output[1]? = some out ∧ isP2tr out.scriptPubkey = false := by
  rw [requestMetadata] at h
  rcases hout : tx.output with - | ⟨request, - | ⟨second, rest⟩⟩
  · rw [hout] at h
    cases h
  · rw [hout] at h
    cases h
  · rw [hout] at h
    refine ⟨second, rfl, Bool.eq_false_iff.mpr fun hp2tr => ?_⟩
    dsimp only at h
    rw [magicTaggedData, opReturnData_of_isP2tr hp2tr] at h
    split at h <;> cases h

theorem AcceptsRequest.request {depositTx : DepositTx}
    (h : AcceptsRequest env ctx idx tx depositTx) : depositTx.requestTxid = env.computeTxid tx ∧
      ∃ out, tx.output[1]? = some out ∧ isP2tr out.scriptPubkey = false := by
  obtain ⟨data, hdata, hnew⟩ := exists_of_depositAt h.builds
  rw [DepositTx.requestTxid_of_new hnew]
  rw [requestIn, depositRequestInfo_eq] at hdata
  cases hshown : requestMetadata ctx.cfg.sidesystemParams ctx.cfg.pegOutGraphParams tx with
  | none =>
    rw [hshown] at hdata
    cases hdata
  | some shown =>
    refine ⟨?_, second_of_requestMetadata hshown⟩
    rw [hshown] at hdata
    dsimp only at hdata
    split at hdata
    · cases hdata
    · split at hdata
      · cases hdata
        rfl
      · cases hdata

theorem Numbers.requests {deposits : List DepositTx} (h : Numbers env ctx idx txs deposits) :
    (deposits.map DepositTx.requestTxid).Sublist (txs.map env.computeTxid) := by
  induction h with
  | nil => exact List.Sublist.refl []
  | pass _ ih => exact ih.cons _
  | accept htx _ ih =>
    rw [map_cons, htx.request.1]
    exact ih.cons_cons _

/-- No transaction of a block comes twice, and none is the deposit request of a contract. -/
def FreshRequests (env : Env) (ctx : ContractManagerCtx) : Input → Prop
  | .block b => (b.txdata.map env.computeTxid).Nodup ∧
      ∀ tx ∈ b.txdata, (ctx.findByRequest (env.computeTxid tx)).isNone
  | .message .. | .request _ => True

instance (env : Env) (ctx : ContractManagerCtx) (i : Input) :
    Decidable (ctx.FreshRequests env i) :=
  match i with
  | .block b => inferInstanceAs (Decidable ((b.txdata.map env.computeTxid).Nodup ∧
      ∀ tx ∈ b.txdata, (ctx.findByRequest (env.computeTxid tx)).isNone))
  | .message .. | .request _ => .isTrue trivial

theorem ne_of_findByRequest {request : Txid} (h : (ctx.findByRequest request).isNone)
    {k : Txid} {sm : ContractSM} (hsm : ctx.activeContracts[k]? = some sm) :
    sm.cfg.depositRequestTxid ≠ request := by
  have hnone := find?_eq_none.mp (Option.isNone_iff_eq_none.mp h) (k, sm) (mem_toList.mpr hsm)
  simpa using hnone

namespace RequestsApart

variable (h : RequestsApart env txs ctx)
include h

theorem of_moves {G : ContractEvent → Prop}
    (hmoves : Moves env G ctx ctx') : RequestsApart env txs ctx' where
  requests k sm' hsm' := by
    obtain ⟨sm, hsm, hr⟩ := hmoves.exists_of_get hsm'
    rw [hr.cfg]
    exact h.requests k sm hsm
  apart k sm k' sm' hsm hsm' hsame := by
    obtain ⟨sm₀, hsm₀, hr⟩ := hmoves.exists_of_get hsm
    obtain ⟨sm₀', hsm₀', hr'⟩ := hmoves.exists_of_get hsm'
    rw [hr.cfg, hr'.cfg] at hsame
    exact h.apart k sm₀ k' sm₀' hsm₀ hsm₀' hsame

theorem addContracts {ctx₀ : ContractManagerCtx} {b : Block} {deposits : List DepositTx}
    (hnum : Numbers env ctx₀ ctx₀.depositIdxOffset b.txdata deposits)
    (hmet : ∀ tx ∈ b.txdata, tx ∈ txs) (hnodup : (b.txdata.map env.computeTxid).Nodup)
    (hfresh : ∀ (k : Txid) sm, ctx.activeContracts[k]? = some sm →
      ∀ tx ∈ b.txdata, sm.cfg.depositRequestTxid ≠ env.computeTxid tx) :
    RequestsApart env txs (ctx.addContracts env
      (ctx₀.newContracts b.height ctx₀.depositIdxOffset deposits)) := by
  have hnew {sm : ContractSM}
      (hsm : sm ∈ ctx₀.newContracts b.height ctx₀.depositIdxOffset deposits) :
      ∃ (j : ℕ) (depositTx : DepositTx), deposits[j]? = some depositTx ∧
        sm = ctx₀.newContract b.height (ctx₀.depositIdxOffset + j) depositTx ∧
        sm.cfg.depositRequestTxid = depositTx.requestTxid ∧ ∃ tx ∈ b.txdata,
          depositTx.requestTxid = env.computeTxid tx ∧
            ∃ out, tx.output[1]? = some out ∧ isP2tr out.scriptPubkey = false := by
    obtain ⟨j, depositTx, hj, rfl⟩ := exists_of_mem_newContracts hsm
    obtain ⟨tx, htx, hacc⟩ := hnum.exists_of_get hj
    exact ⟨j, depositTx, hj, rfl, rfl, tx, htx, hacc.request⟩
  have hunique := hnodup.sublist hnum.requests
  refine ⟨fun k sm hsm => ?_, fun k sm k' sm' hsm hsm' hsame => ?_⟩
  · rcases get_addContracts hsm with ⟨hmem, -⟩ | hold
    · obtain ⟨j, depositTx, -, -, hrequest, tx, htx, htxid, hout⟩ := hnew hmem
      exact ⟨tx, hmet tx htx, by rw [hrequest, htxid], hout⟩
    · exact h.requests k sm hold
  · rcases get_addContracts hsm with ⟨hmem, rfl⟩ | hold <;>
      rcases get_addContracts hsm' with ⟨hmem', rfl⟩ | hold'
    · obtain ⟨j, depositTx, hj, rfl, hrequest, -⟩ := hnew hmem
      obtain ⟨j', depositTx', hj', rfl, hrequest', -⟩ := hnew hmem'
      obtain rfl := inj_on_of_nodup_map hunique (mem_of_getElem? hj)
        (mem_of_getElem? hj') (hrequest.symm.trans (hsame.trans hrequest'))
      rfl
    · obtain ⟨j, depositTx, -, -, hrequest, tx, htx, htxid, -⟩ := hnew hmem
      exact absurd (hsame.symm.trans (hrequest.trans htxid)) (hfresh k' sm' hold' tx htx)
    · obtain ⟨j, depositTx, -, -, hrequest, tx, htx, htxid, -⟩ := hnew hmem'
      exact absurd (hsame.trans (hrequest.trans htxid)) (hfresh k sm hold tx htx)
    · exact h.apart k sm k' sm' hold hold' hsame

theorem processBlock {b : Block}
    (hmet : ∀ tx ∈ b.txdata, tx ∈ txs) (hfresh : ctx.FreshRequests env (.block b))
    (hs : (ctx.processBlock env b).next = some (ctx', es)) : RequestsApart env txs ctx' := by
  cases hblock : ctx.processBlock env b with
  | panic msg => simp [hblock] at hs
  | err ctx₁ e =>
    have herr := processBlock_errLeaves env ctx b
    rw [hblock] at hs herr
    cases hs
    exact h.of_moves herr.toMoves
  | ok ctx₂ duties =>
    rw [hblock] at hs
    cases hs
    obtain ⟨ctx₁, hevolves, -, rfl⟩ := processBlock_numbers hblock
    have hother (k : Txid) (sm₁ : ContractSM) (hsm₁ : ctx₁.activeContracts[k]? = some sm₁)
        (tx : Transaction) (htx : tx ∈ b.txdata) :
        sm₁.cfg.depositRequestTxid ≠ env.computeTxid tx := by
      obtain ⟨sm, hsm, hr⟩ := hevolves.exists_of_get hsm₁
      rw [hr.cfg]
      exact ne_of_findByRequest (hfresh.2 tx htx) hsm
    have hadd := (h.of_moves hevolves.toMoves).addContracts (newRequests_numbers env ctx b) hmet
      hfresh.1 hother
    exact ⟨hadd.requests, hadd.apart⟩

theorem serve {i : Input} (hmet : ctx.MeetsOnly env txs i)
    (hfresh : ctx.FreshRequests env i) (hs : ctx.serve env i = some (ctx', es)) :
    RequestsApart env txs ctx' := by
  cases i with
  | block b => exact h.processBlock hmet hfresh hs
  | message key msg => exact h.of_moves ((processP2pMessage_moves env ctx key msg).of_next hs)
  | request req => rwa [serve_request hs]

end RequestsApart

/-- **Requests are apart in every run** in which none comes a second time. -/
theorem requestsApart_of_reachable {cfg : ExecutionConfig}
    (hreach : Reachable (serve env)
      (fun ctx i => ctx.MeetsOnly env txs i ∧ ctx.FreshRequests env i) (.new cfg) ctx) :
    RequestsApart env txs ctx := by
  refine hreach.invariant (I := RequestsApart env txs) ⟨?_, ?_⟩
    fun _ _ _ _ h hinput hs => h.serve hinput.1 hinput.2 hs
  · intro k sm hsm
    simp [new] at hsm
  · intro k sm k' sm' hsm
    simp [new] at hsm

end Requests

/-! ### Requests in a run -/

/-- The requests in the name of a contract: for what a deposit needs next, and in the later phases
for stake data only. -/
def wanted (ctx : ContractManagerCtx) (k : Txid) (sm : ContractSM) : List Nag :=
  match sm.state.state with
  | .requested r => ctx.dueRequests k sm r
  | _ => ctx.nagUnless (fun op => (ctx.stakeChains.stakeTxid op sm.cfg.depositIdx).isSome)
      (.depositSetup k)

theorem nagContract_eq_wanted (ctx : ContractManagerCtx) (k : Txid) (sm : ContractSM) :
    ctx.nagContract k sm = ctx.wanted k sm := by
  rw [wanted]
  split
  next r hr => exact nagContract_eq hr
  next hother =>
    rw [nagContract]
    split
    next => rfl
    next hempty =>
      split
      next r hr => exact absurd hr (hother r)
      next =>
        rw [Bool.not_eq_true, Bool.not_eq_false', List.isEmpty_iff] at hempty
        exact hempty.symm

theorem dueRequests_eq_nil_iff {ctx : ContractManagerCtx} {k : Txid} {sm : ContractSM}
    {r : Requested} :
    ctx.dueRequests k sm r = [] ↔ ∀ stage ∈ NagStage.all, ctx.missing sm r stage = [] := by
  rw [dueRequests]
  cases hfirst : ctx.firstIncomplete sm r with
  | none =>
    have hall := find?_eq_none.mp hfirst
    simpa using hall
  | some stage =>
    have hmissing : ctx.missing sm r stage ≠ [] := by simpa using find?_some hfirst
    have hstage := mem_of_find?_eq_some hfirst
    simp only [map_eq_nil_iff, hmissing, false_iff]
    exact fun hall => hmissing (hall stage hstage)

/-- **Requests are exact, and answers to them reach the contract.** In every run in which no
deposit request comes a second time, the manager asks for the stake chains that it does not know,
and then in the name of every contract: of one in the requested phase, for exactly what is missing
in the first stage that is not complete, so for nothing once all are. And a message with what is
asked for, under the session that the request names, is routed to that contract. That txids tell
transactions apart is assumed of those that the manager meets. -/
theorem nag_exact_and_routed {env : GraphEnv} (henv : env.Taproot) (hgen : env.Generates)
    {txs : List Transaction} (htxs : env.toEnv.TxidsDistinct txs) {cfg : ExecutionConfig}
    {ctx : ContractManagerCtx}
    (hreach : Reachable (serve env.toEnv)
      (fun ctx i => ctx.MeetsOnly env.toEnv txs i ∧ ctx.FreshRequests env.toEnv i)
      (.new cfg) ctx) :
    ctx.nag = ctx.nagUnless (· ∈ ctx.stakeChains.stakeChains) .stakeChainExchange ++
      ctx.activeContracts.toList.flatMap (fun e => ctx.wanted e.1 e.2) ∧
    ∀ (k : Txid) sm r, ctx.activeContracts[k]? = some sm → sm.state.state = .requested r →
      ctx.wanted k sm = ctx.dueRequests k sm r ∧
      (ctx.dueRequests k sm r = [] ↔ ∀ stage ∈ NagStage.all, ctx.missing sm r stage = []) ∧
      ∀ stage op item, ctx.firstIncomplete sm r = some stage →
        (op, item) ∈ ctx.missing sm r stage → item.Routed env.toEnv ctx k sm r op := by
  refine ⟨?_, fun k sm r hsm hr => ⟨by rw [wanted, hr], dueRequests_eq_nil_iff, ?_⟩⟩
  · simp only [nag, nagContract_eq_wanted]
  · intro stage op item _ hmissing
    have hindexed := indexed_of_reachable htxs (GraphEnv.claimsSpend henv hgen)
      (hreach.mono fun _ _ hinput => hinput.1)
    obtain ⟨idx, depositTx, height, deadline, horigin⟩ := hasOrigin_of_reachable hreach hsm
    have hrequest : r.depositRequestTxid = sm.cfg.depositRequestTxid := by
      rw [horigin.depositRequestTxid_eq hr, horigin.cfg_eq]
    exact routed_of_mem_items htxs hindexed (requestsApart_of_reachable hreach) hsm hr hrequest
      (mem_missing.mp hmissing).1 op

private def nagRequest : Transaction :=
  requestTxIn graphEnv.toEnv oneOperator 6

private def nagDeposit (idx : ℕ) : Txid :=
  depositTxidIn graphEnv.toEnv oneOperator 6 idx

private def announcedInputs : List Input :=
  [exchange 0, block 100 [nagRequest], announce 0 (nagDeposit 0) 0 40 true]

private def nagTxs (is : List Input) : List Transaction :=
  observed (serve graphEnv.toEnv) (builds graphEnv.toEnv) (manager oneOperator) is

theorem reachable_nagTxs {G : ContractManagerCtx → Input → Prop}
    [∀ ctx i, Decidable (G ctx i)] {is : List Input} {ctx : ContractManagerCtx}
    (hexec : exec (serve graphEnv.toEnv) G (manager oneOperator) is = some (ctx, es)) :
    Reachable (serve graphEnv.toEnv)
      (fun ctx i => ctx.MeetsOnly graphEnv.toEnv (nagTxs is) i ∧ G ctx i)
      (manager oneOperator) ctx :=
  .of_along .refl (along_of_observed fun _ htx => htx) hexec

/-- A deposit whose graph is built: nonces for the graph are asked for, and reach the contract. -/
theorem nag_exact_and_routed_announced : ∃ ctx sm r,
    Reachable (serve graphEnv.toEnv) (FreshRequests graphEnv.toEnv) (manager oneOperator) ctx ∧
    ctx.activeContracts[nagDeposit 0]? = some sm ∧ sm.state.state = .requested r ∧
    ctx.firstIncomplete sm r = some .graphNonces ∧
    ∀ op item, (op, item) ∈ ctx.missing sm r .graphNonces →
      item.Routed graphEnv.toEnv ctx (nagDeposit 0) sm r op := by
  have hfound : (exec (serve graphEnv.toEnv) (FreshRequests graphEnv.toEnv)
      (manager oneOperator) announcedInputs).any
        (fun e : ContractManagerCtx × List Emission =>
          e.1.activeContracts[nagDeposit 0]?.any fun sm =>
            match sm.state.state with
            | .requested r => e.1.firstIncomplete sm r = some .graphNonces
            | _ => false) = true := by decide +kernel
  obtain ⟨⟨ctx, es⟩, hexec, hfound⟩ := (Option.any_eq_true _ _).mp hfound
  obtain ⟨sm, hsm, hfound⟩ := (Option.any_eq_true _ _).mp hfound
  cases hr : sm.state.state with
  | requested r =>
    rw [hr] at hfound
    have hfirst := of_decide_eq_true hfound
    have hdistinct : graphEnv.toEnv.TxidsDistinct (nagTxs announcedInputs) := by
      decide +kernel
    have hreach := reachable_nagTxs hexec
    have hrouted := (nag_exact_and_routed taproot generates hdistinct hreach).2
      (nagDeposit 0) sm r hsm hr
    exact ⟨ctx, sm, r, hreach.mono fun _ _ h => h.2, hsm, hr, hfirst,
      fun op item => hrouted.2.2 .graphNonces op item hfirst⟩
  | _ =>
    rw [hr] at hfound
    cases hfound

private def repeatedInputs : List Input := announcedInputs ++ [block 101 [nagRequest]]

private def nagGraph : Option PegOutGraph :=
  (exec (serve graphEnv.toEnv) (fun _ _ => True) (manager oneOperator)
    announcedInputs).bind fun e => e.1.activeContracts[nagDeposit 0]?.bind fun sm =>
      (vals sm.pog).head?

private def nagSigning : List Input :=
  let claim := nagGraph.elim (stakeTxid 0) fun graph =>
    graph.claimTx.computeTxid graphEnv.toEnv
  [.message ⟨10⟩ (.musig2NoncesExchange claim (replicate 51 ⟨1⟩)),
    .message ⟨10⟩ (.musig2SignaturesExchange claim (nagGraph.elim [] (shares oneOperator [1] 0)))]

private def hasRootNonce (sm : ContractSM) : Bool :=
  match sm.state.state with
  | .requested r => (⟨10⟩ : P2POperatorPubKey) ∈ r.rootNonces
  | _ => false

/-- A deposit request that comes a second time gets a second contract. The nonce that is asked for
in the name of the first contract then goes to the second one. -/
theorem repeated_request_misrouted : ∃ txs ctx sm ctx' es sm' other,
    graphEnv.toEnv.TxidsDistinct txs ∧
    Reachable (serve graphEnv.toEnv) (MeetsOnly graphEnv.toEnv txs) (manager oneOperator) ctx ∧
    ctx.activeContracts[nagDeposit 0]? = some sm ∧
    ⟨⟨10⟩, .musig2NoncesExchange sm.cfg.depositRequestTxid⟩ ∈ ctx.nagContract (nagDeposit 0) sm ∧
    (ctx.processUnsignedGossipMsg graphEnv.toEnv ⟨10⟩
      (.musig2NoncesExchange sm.cfg.depositRequestTxid [⟨1⟩])).next = some (ctx', es) ∧
    ctx'.activeContracts[nagDeposit 0]? = some sm' ∧ hasRootNonce sm' = false ∧
    ctx'.activeContracts[nagDeposit 1]? = some other ∧ hasRootNonce other = true := by
  have hfound : (exec (serve graphEnv.toEnv) (fun _ _ => True)
      (manager oneOperator) repeatedInputs).any
        (fun e₀ : ContractManagerCtx × List Emission =>
          (exec (serve graphEnv.toEnv) (fun _ _ => True) e₀.1 nagSigning).any fun e =>
            e.1.activeContracts[nagDeposit 0]?.any fun sm =>
              decide (⟨⟨10⟩, .musig2NoncesExchange sm.cfg.depositRequestTxid⟩ ∈
                e.1.nagContract (nagDeposit 0) sm) &&
              (e.1.processUnsignedGossipMsg graphEnv.toEnv ⟨10⟩
                (.musig2NoncesExchange sm.cfg.depositRequestTxid [⟨1⟩])).next.any fun e' =>
                  (e'.1.activeContracts[nagDeposit 0]?.any fun sm => !hasRootNonce sm) &&
                    e'.1.activeContracts[nagDeposit 1]?.any hasRootNonce) = true := by
    decide +kernel
  obtain ⟨⟨ctx₀, es₀⟩, hexec₀, hfound⟩ := (Option.any_eq_true _ _).mp hfound
  obtain ⟨⟨ctx, es⟩, hexec, hfound⟩ := (Option.any_eq_true _ _).mp hfound
  obtain ⟨sm, hsm, hfound⟩ := (Option.any_eq_true _ _).mp hfound
  obtain ⟨hnag, hfound⟩ := Bool.and_eq_true_iff.mp hfound
  obtain ⟨⟨ctx', es'⟩, hnext, hfound⟩ := (Option.any_eq_true _ _).mp hfound
  obtain ⟨hfirst, hsecond⟩ := Bool.and_eq_true_iff.mp hfound
  obtain ⟨sm', hsm', hlacks⟩ := (Option.any_eq_true _ _).mp hfirst
  obtain ⟨other, hother, hhas⟩ := (Option.any_eq_true _ _).mp hsecond
  have hdistinct : graphEnv.toEnv.TxidsDistinct (nagTxs repeatedInputs) := by
    decide +kernel
  -- the manager meets no transaction with nonces and signatures
  have hsigning : Along (serve graphEnv.toEnv)
      (MeetsOnly graphEnv.toEnv (nagTxs repeatedInputs)) ctx₀ nagSigning :=
    ⟨forall_mem_nil _, fun _ _ => ⟨forall_mem_nil _, fun _ _ => trivial⟩⟩
  have hreach := (reachable_nagTxs hexec₀).of_along hsigning hexec
  exact ⟨nagTxs repeatedInputs, ctx, sm, ctx', es', sm', other, hdistinct,
    hreach.mono fun _ _ h => h.1, hsm, of_decide_eq_true hnag, hnext, hsm', by simpa using hlacks,
    hother, hhas⟩

end ContractManagerCtx

end StrataBridge
