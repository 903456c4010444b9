import Mathlib.Logic.Function.Basic
import StrataBridge.DutyTracker.Acceptance
import StrataBridge.DutyTracker.ManagerSteps

/-!
# A block, transaction by transaction

While the manager goes through a block two things change: the contracts, and the list of deposits
whose requests it has accepted. `ContractManagerCtx.BlockView` keeps just these.
`ContractManagerCtx.afterTx` says what a transaction does to them, in terms of what the contracts
accept, and `ContractManagerCtx.AcceptsTx` when it is accepted at all; neither runs the manager.

## Main definitions

* `ContractManagerCtx.BlockView`: contracts and accepted requests
* `ContractManagerCtx.AcceptsTx`, `ContractManagerCtx.afterTx`: a transaction and its effect
* `ContractManagerCtx.newRequests`: the deposits of the requests that a block adds

## Main results

* `ContractManagerCtx.processTxs_decided`: the manager does what `afterTx` says
-/

namespace StrataBridge

open Rust BTreeMap List Emission

variable {env : Env} {tx : Transaction} {entry : DepositEntry} {height : BitcoinBlockHeight}
  {es : List Emission}

/-- The deposit request that a duty answers. -/
def Emission.request (e : Emission) : Option Txid :=
  match e.origin with
  | .depositRequest requestTxid => some requestTxid
  | _ => none

namespace ContractSM

variable {sm sm' : ContractSM}

/-! ### Heights -/

abbrev KeepsHeight (sm : ContractSM) (o : ContractSM.Reply) : Prop :=
  o.Leaves fun sm' => sm'.state.blockHeight = sm.state.blockHeight

theorem keepsHeight_of_not_block {ev : ContractEvent} (hev : ∀ height, ev ≠ .block height) :
    sm.KeepsHeight (sm.processContractEvent env ev) := by
  refine sm.of_reaction env fun o ho => ?_
  cases ho with
  | requested => exact Outcome.leaves_embed.mpr (.of_forall (fun _ => rfl) _)
  | takes | takesLate | aborts | claimMatures | challengeMatures | assertionMatures =>
    exact absurd rfl (hev _)
  | _ => trivial

theorem keepsHeight_of_isTx {ev : ContractEvent} (hev : ev.isTx = true) :
    sm.KeepsHeight (sm.processContractEvent env ev) := by
  refine keepsHeight_of_not_block ?_
  rintro height rfl
  cases hev

theorem ReachableBy.blockHeight (h : ReachableBy env (fun ev => ev.isTx = true) sm sm') :
    sm'.state.blockHeight = sm.state.blockHeight :=
  Transition.Reachable.invariant
    (I := fun sm' => sm'.state.blockHeight = sm.state.blockHeight) h rfl
    fun _ _ _ _ hs hev hstep => ((keepsHeight_of_isTx hev).of_next hstep).trans hs

end ContractSM

/-! ### The view -/

namespace ContractManagerCtx

/-- Contracts by the txids of their deposits, and the deposits whose requests were accepted. -/
structure BlockView where
  contracts : Txid → Option ContractSM
  requests : List DepositTx

def contracts (ctx : ContractManagerCtx) : Txid → Option ContractSM :=
  fun k => ctx.activeContracts[k]?

def BlockProgress.view (p : BlockProgress) : BlockView where
  contracts := p.ctx.contracts
  requests := p.newContracts.map fun sm => sm.cfg.depositTx

def HasRequest (ctx : ContractManagerCtx) (requestTxid : Txid) : Prop :=
  ∃ (k : Txid) (sm : ContractSM), ctx.activeContracts[k]? = some sm ∧
    sm.cfg.depositRequestTxid = requestTxid

section View

variable (env : Env) (ctx : ContractManagerCtx)

/-- This operator has the stake transaction for the deposit of an entry; otherwise the manager
passes the entry over. -/
def hasStakeTx (entry : DepositEntry) : Bool :=
  match ctx.stakeChains.stakeTx env ctx.cfg.operatorTable.povP2pKey entry.idx with
  | .ok (some _) => true
  | _ => false

def AcceptsEntry (contracts : Txid → Option ContractSM) (entry : DepositEntry) : Prop :=
  ∃ sm, contracts entry.output.txid = some sm ∧
    (ctx.hasStakeTx env entry = true → sm.AcceptsAssignment entry)

/-- An entry leads to a duty. -/
def answersEntry (contracts : Txid → Option ContractSM) (entry : DepositEntry) : Bool :=
  ctx.hasStakeTx env entry &&
    (contracts entry.output.txid).any fun sm => sm.state.state.answersAssignment

def entries (tx : Transaction) : List DepositEntry := txEntries env ctx.cfg.sidesystemParams tx

/-- The first height after the checkpoint that a transaction carries. -/
def l1StartHeight (tx : Transaction) : BitcoinBlockHeight :=
  match parseStrataCheckpoint env ctx.cfg.sidesystemParams tx with
  | .ok (some checkpoint) => checkpoint.l1EndHeight + 1
  | _ => 0

def afterEntry (l1StartHeight : BitcoinBlockHeight) (contracts : Txid → Option ContractSM)
    (entry : DepositEntry) : Txid → Option ContractSM :=
  if ctx.hasStakeTx env entry then
    Function.update contracts entry.output.txid
      ((contracts entry.output.txid).map fun sm => sm.reassigned entry l1StartHeight)
  else contracts

/-- An entry of a checkpoint: what it does to the contracts, and whether it, or one before it, leads
to a duty. -/
def assign (tx : Transaction) (q : (Txid → Option ContractSM) × Bool) (entry : DepositEntry) :
    (Txid → Option ContractSM) × Bool :=
  (ctx.afterEntry env (ctx.l1StartHeight env tx) q.1 entry, q.2 || ctx.answersEntry env q.1 entry)

def assignAll (contracts : Txid → Option ContractSM) (tx : Transaction) :
    (Txid → Option ContractSM) × Bool :=
  (ctx.entries env tx).foldl (ctx.assign env tx) (contracts, false)

def AcceptsAssignments (contracts : Txid → Option ContractSM) (tx : Transaction) : Prop :=
  (parseStrataCheckpoint env ctx.cfg.sidesystemParams tx).isOk = true ∧
    Outcome.Along (fun q => ctx.AcceptsEntry env q.1) (ctx.assign env tx) (contracts, false)
      (ctx.entries env tx)

/-- The deposit that the manager builds for a transaction that is a deposit request. -/
def depositAt (depositIdx : ℕ) (tx : Transaction) : Option DepositTx :=
  match ctx.requestIn env depositIdx tx with
  | .ok (some data) => (ctx.depositFor env data).toOption
  | _ => none

/-- A transaction is taken as a new deposit request: a deposit is built for it, and the deposit has
no contract. -/
structure AcceptsRequest (depositIdx : ℕ) (tx : Transaction) (depositTx : DepositTx) : Prop where
  builds : ctx.depositAt env depositIdx tx = some depositTx
  fresh : depositTx.tx.computeTxid env ∉ ctx.activeContracts

variable (v : BlockView)

def nextIdx : ℕ := ctx.depositIdxOffset + v.requests.length

def acceptedRequest (tx : Transaction) : Option DepositTx :=
  (ctx.depositAt env (ctx.nextIdx v) tx).filter fun depositTx =>
    depositTx.tx.computeTxid env ∉ ctx.activeContracts

/-- The contracts after a transaction that is no deposit request: it is the deposit of a contract,
or goes to every contract that wants it. -/
def confirmTx (height : BitcoinBlockHeight) (contracts : Txid → Option ContractSM)
    (tx : Transaction) : Txid → Option ContractSM :=
  match contracts (env.computeTxid tx) with
  | some sm => Function.update contracts (env.computeTxid tx) (some (sm.deposited env tx))
  | none => fun k => (contracts k).map fun sm =>
      if sm.transactionFilter env tx then sm.setState (sm.confirmed env height tx) else sm

def afterOther (height : BitcoinBlockHeight) (tx : Transaction) : BlockView :=
  match ctx.requestIn env (ctx.nextIdx v) tx with
  | .ok (some _) => { v with requests := v.requests ++ (ctx.acceptedRequest env v tx).toList }
  | _ => { v with contracts := confirmTx env height v.contracts tx }

/-- What a transaction does: it assigns withdrawals, or it is a deposit request, or it is confirmed
for the contracts. -/
def afterTx (height : BitcoinBlockHeight) (v : BlockView) (tx : Transaction) : BlockView :=
  if (ctx.assignAll env v.contracts tx).2 then
    { v with contracts := (ctx.assignAll env v.contracts tx).1 }
  else ctx.afterOther env v height tx

def afterTxs (b : Block) : BlockView :=
  b.txdata.foldl (ctx.afterTx env b.height) ⟨ctx.contracts, []⟩

/-- The deposits of the requests that a block adds, in the order of the block. -/
def newRequests (b : Block) : List DepositTx := (ctx.afterTxs env b).requests

/-- A transaction that assigns nothing is accepted: for a new deposit request, this operator has a
stake chain; the contract of a deposit has its graphs; any other transaction is accepted by every
contract that wants it. -/
def AcceptsOther (tx : Transaction) : Prop :=
  match ctx.requestIn env (ctx.nextIdx v) tx with
  | .error _ => False
  | .ok (some _) => (ctx.acceptedRequest env v tx).isSome = true →
      ctx.cfg.operatorTable.povP2pKey ∈ ctx.stakeChains.stakeChains
  | .ok none =>
    match v.contracts (env.computeTxid tx) with
    | some sm => sm.TakesDeposit env tx
    | none => ∀ k sm, v.contracts k = some sm → sm.transactionFilter env tx = true →
        sm.Accepts env tx

/-- A transaction is accepted: all assignments in its checkpoint are, and if none of them leads
to a duty then so is what else it may be. -/
def AcceptsTx (tx : Transaction) : Prop :=
  ctx.AcceptsAssignments env v.contracts tx ∧
    ((ctx.assignAll env v.contracts tx).2 = true ∨ ctx.AcceptsOther env v tx)

end View

variable {ctx ctx' : ContractManagerCtx} {p p' : BlockProgress}

theorem contracts_putContract (ctx : ContractManagerCtx) (k : Txid) (sm : ContractSM) :
    (ctx.putContract k sm).contracts = Function.update ctx.contracts k (some sm) := by
  funext k'
  rw [contracts, putContract, get_insert, Function.update_apply]
  simp only [eq_comm (a := k), contracts]

theorem deliver_decided {k : Txid} {sm : ContractSM} {C : Prop}
    {Q : ContractSM → List OperatorDuty → Prop} (ev : ContractEvent)
    (h : (sm.processContractEvent env ev).Decided C Q) :
    (ctx.deliver env k sm ev).Decided C fun ctx' es => es.filterMap request = [] ∧
      ∃ sm' ds, Q sm' ds ∧ ctx' = ctx.putContract k sm' ∧ (es = [] ↔ ds = []) := by
  refine (h.embed fun sm' ds hq => ?_).map fun _ _ h => h
  exact ⟨by simp [filterMap_map, Function.comp_def, request], sm', ds, hq, rfl,
    by simp⟩

/-! ### Assignments -/

def withContracts (ctx : ContractManagerCtx) (m : BTreeMap Txid ContractSM) : ContractManagerCtx :=
  { ctx with activeContracts := m }

private theorem assignEntry_decided (m : BTreeMap Txid ContractSM)
    (l1StartHeight : BitcoinBlockHeight) (entry : DepositEntry) :
    ((ctx.withContracts m).assignEntry env l1StartHeight entry).Decided
      (ctx.AcceptsEntry env (ctx.withContracts m).contracts entry) fun ctx' es =>
      es.filterMap request = [] ∧ (∃ m', ctx' = ctx.withContracts m') ∧
      ctx'.contracts = ctx.afterEntry env l1StartHeight (ctx.withContracts m).contracts entry ∧
      (es = [] ↔ ctx.answersEntry env (ctx.withContracts m).contracts entry = false) ∧
      (es = [] → ctx' = ctx.withContracts m) := by
  have hget : (ctx.withContracts m).activeContracts[entry.output.txid]? =
      (ctx.withContracts m).contracts entry.output.txid := rfl
  have hstake : (ctx.withContracts m).stakeChains.stakeTx env
      (ctx.withContracts m).cfg.operatorTable.povP2pKey entry.idx =
      ctx.stakeChains.stakeTx env ctx.cfg.operatorTable.povP2pKey entry.idx := rfl
  rw [assignEntry, hstake, AcceptsEntry, afterEntry, answersEntry, hget]
  cases hsm : (ctx.withContracts m).contracts entry.output.txid with
  | none => simp
  | some sm =>
  dsimp only
  split
  next stakeTx htx =>
    have hhas : ctx.hasStakeTx env entry = true := by rw [hasStakeTx, htx]
    simp only [hhas, Option.some.injEq, exists_eq_left', Option.any_some, Option.map_some,
      true_implies, Bool.true_and, if_true]
    refine (deliver_decided (.assignment entry stakeTx l1StartHeight)
      (sm.processAssignment_decided env entry stakeTx l1StartHeight)).mono ?_
    rintro ctx' es ⟨hevents, sm', ds, ⟨rfl, hds⟩, rfl, hes⟩
    refine ⟨hevents, ⟨_, rfl⟩, contracts_putContract _ _ _, hes.trans hds, fun hnil => ?_⟩
    rw [ContractSM.reassigned_of_silent (hds.mp (hes.mp hnil)), putContract,
      insert_eq_self (hget.trans hsm)]
  next hnone =>
    have hhas : ctx.hasStakeTx env entry = false := by
      rw [hasStakeTx]
      split <;> simp_all
    simp [hhas]

private theorem processAssignments_cases (env : Env) (ctx : ContractManagerCtx) (tx : Transaction) :
    ((parseStrataCheckpoint env ctx.cfg.sidesystemParams tx).isOk = false ∧
      ∃ msg, ctx.processAssignments env tx = .panic msg) ∨
    ((parseStrataCheckpoint env ctx.cfg.sidesystemParams tx).isOk = true ∧
      ctx.processAssignments env tx = Outcome.forEach
        (fun ctx' entry => ctx'.assignEntry env (ctx.l1StartHeight env tx) entry) ctx
          (ctx.entries env tx)) := by
  rw [processAssignments, entries, txEntries, l1StartHeight]
  rcases parseStrataCheckpoint env ctx.cfg.sidesystemParams tx with msg | _ | checkpoint
  · exact .inl ⟨rfl, msg, rfl⟩
  · exact .inr ⟨rfl, rfl⟩
  · refine .inr ⟨rfl, ?_⟩
    dsimp only
    cases env.decodeChainstate checkpoint.sidecar with
    | none => rfl
    | some chainstate => rfl

theorem processAssignments_decided (env : Env) (ctx : ContractManagerCtx) (tx : Transaction) :
    (ctx.processAssignments env tx).Decided (ctx.AcceptsAssignments env ctx.contracts tx)
      fun ctx' es => es.filterMap request = [] ∧ (es = [] → ctx' = ctx) ∧
        (ctx'.contracts, !es.isEmpty) = ctx.assignAll env ctx.contracts tx := by
  rw [AcceptsAssignments]
  rcases processAssignments_cases env ctx tx with ⟨hparse, msg, heq⟩ | ⟨hparse, heq⟩
  · simp [heq, hparse]
  rw [heq, hparse, eq_self, true_and]
  refine (Outcome.Decided.forEach [] (v := fun ctx' es => (ctx'.contracts, !es.isEmpty))
    (I := fun ctx' es => es.filterMap request = [] ∧ (es = [] → ctx' = ctx) ∧
      ∃ m, ctx' = ctx.withContracts m) ⟨rfl, fun _ => rfl, _, rfl⟩ ?_).mono
    fun ctx' es h => ⟨h.1.1, h.1.2.1, h.2⟩
  rintro _ es ⟨hevents, hsame, m, rfl⟩ entry -
  refine (assignEntry_decided m _ entry).mono fun ctx' es' ⟨hevents', hframe, hview, hnil, hput⟩ =>
    ⟨⟨by simp [hevents, hevents'], fun h => ?_, hframe⟩, ?_⟩
  · obtain ⟨h, h'⟩ := append_eq_nil_iff.mp h
    rw [hput h', hsame h]
  · rw [assign, hview]
    cases es with
    | cons e es => simp
    | nil =>
      cases hanswers : ctx.answersEntry env (ctx.withContracts m).contracts entry <;>
        simp [hnil, hanswers]

/-! ### Confirmations -/

def moveContract (q : ContractSM → Bool) (next : ContractSM → ContractSM)
    (cs : Txid → Option ContractSM) (e : Txid × ContractSM) : Txid → Option ContractSM :=
  if q e.2 then Function.update cs e.1 (some (next e.2)) else cs

private theorem foldl_moveContract {l : List (Txid × ContractSM)} (hl : (l.map Prod.fst).Nodup)
    (q : ContractSM → Bool) (next : ContractSM → ContractSM) (cs : Txid → Option ContractSM)
    (k : Txid) :
    (∀ sm, (k, sm) ∈ l → l.foldl (moveContract q next) cs k =
      if q sm then some (next sm) else cs k) ∧
    (k ∉ l.map Prod.fst → l.foldl (moveContract q next) cs k = cs k) := by
  induction l generalizing cs with
  | nil => simp
  | cons e l ih =>
    rw [map_cons, nodup_cons] at hl
    simp only [foldl_cons]
    refine ⟨fun sm hmem => ?_, fun hk => ?_⟩
    · rcases mem_cons.mp hmem with rfl | hmem
      · rw [(ih hl.2 _).2 hl.1, moveContract]
        split_ifs <;> simp
      · have hne : k ≠ e.1 := by
          rintro rfl
          exact hl.1 (mem_map.mpr ⟨_, hmem, rfl⟩)
        rw [(ih hl.2 _).1 sm hmem, moveContract]
        split_ifs <;> simp [hne]
    · rw [map_cons, mem_cons, not_or] at hk
      rw [(ih hl.2 _).2 hk.2, moveContract]
      split_ifs <;> simp [hk.1]

theorem foldl_moveContract_toList (ctx : ContractManagerCtx) (q : ContractSM → Bool)
    (next : ContractSM → ContractSM) :
    ctx.activeContracts.toList.foldl (moveContract q next) ctx.contracts =
      fun k => (ctx.contracts k).map fun sm => if q sm then next sm else sm := by
  funext k
  have h := foldl_moveContract (nodup_map_fst_toList ctx.activeContracts) q next ctx.contracts k
  cases hk : ctx.contracts k with
  | none =>
    have hnot : k ∉ ctx.activeContracts.toList.map Prod.fst := by
      simpa using notMem_iff.mpr hk
    rw [h.2 hnot, hk]
    rfl
  | some sm =>
    rw [h.1 sm (mem_toList.mpr hk), hk, Option.map_some]
    split_ifs <;> rfl

theorem confirmPegOutGraphTx_decided
    (hbelow : ∀ k sm, ctx.contracts k = some sm → sm.state.blockHeight < height) :
    (ctx.confirmPegOutGraphTx env height tx).Decided
      (∀ k sm, ctx.contracts k = some sm → sm.transactionFilter env tx = true → sm.Accepts env tx)
      fun ctx' es => es.filterMap request = [] ∧
        ctx'.contracts = fun k => (ctx.contracts k).map fun sm =>
          if sm.transactionFilter env tx then sm.setState (sm.confirmed env height tx) else sm := by
  have hloop := Outcome.Decided.forEach [] (s := ctx) (l := ctx.activeContracts.toList)
    (f := fun ctx e => ctx.confirmFor env height tx e)
    (I := fun _ es => es.filterMap request = []) (v := fun ctx' _ => ctx'.contracts)
    (A := fun _ e => e.2.transactionFilter env tx = true → e.2.Accepts env tx)
    (g := moveContract (fun sm => sm.transactionFilter env tx)
      fun sm => sm.setState (sm.confirmed env height tx)) rfl fun ctx' es hes e he => ?_
  · rw [Outcome.along_const, foldl_moveContract_toList] at hloop
    simpa [confirmPegOutGraphTx, contracts] using hloop
  have hlt := hbelow e.1 e.2 (mem_toList.mp he)
  rw [confirmFor, if_neg (Nat.not_le.mpr hlt), moveContract]
  split_ifs with hfilter
  · rw [hfilter, eq_self, true_implies]
    refine (deliver_decided (.pegOutGraphConfirmation tx height)
      (e.2.processPegOutGraphTxConfirmation_decided env height tx).1).mono ?_
    rintro _ es' ⟨hes', _, _, rfl, rfl, -⟩
    exact ⟨by simp [hes, hes'], contracts_putContract _ _ _⟩
  · simp [hfilter, hes]

theorem confirmDeposit_decided {sm : ContractSM} (hlt : sm.state.blockHeight < height) :
    (ctx.confirmDeposit env height sm tx).Decided (sm.TakesDeposit env tx) fun ctx' es =>
      es.filterMap request = [] ∧ ctx'.contracts =
        Function.update ctx.contracts (env.computeTxid tx) (some (sm.deposited env tx)) := by
  rw [confirmDeposit, if_neg (Nat.not_le.mpr hlt), deliver, ContractSM.processContractEvent]
  rcases sm.takesDeposit_cases env tx with ⟨haccepts, ⟨e, heq⟩ | heq⟩ | ⟨hrejects, msg, heq⟩
  · simp [heq, haccepts, contracts_putContract]
  · simp [heq, haccepts, contracts_putContract]
  · simp [heq, hrejects]

/-! ### Deposit requests -/

theorem acceptedRequest_eq_some {v : BlockView} {depositTx : DepositTx} :
    ctx.acceptedRequest env v tx = some depositTx ↔
      AcceptsRequest env ctx (ctx.nextIdx v) tx depositTx := by
  rw [acceptedRequest, Option.filter_eq_some_iff, decide_eq_true_eq]
  exact ⟨fun h => ⟨h.1, h.2⟩, fun h => ⟨h.builds, h.fresh⟩⟩

/-- The duties that were handed out on the way answer the requests that were accepted. -/
def Answers (p p' : BlockProgress) (es : List Emission) : Prop :=
  p'.view.requests.map DepositTx.requestTxid =
    p.view.requests.map DepositTx.requestTxid ++ es.filterMap request

theorem nextIdx_view (ctx : ContractManagerCtx) (p : BlockProgress) :
    ctx.nextIdx p.view = ctx.depositIdxOffset + p.newContracts.length := by
  rw [nextIdx, BlockProgress.view, length_map]

private theorem createContract_decided {data : DepositRequestData} (hp : Progress env ctx height p)
    (hdata : ctx.requestIn env (ctx.nextIdx p.view) tx = .ok (some data)) :
    (createContract env p height (ctx.nextIdx p.view) data).Decided
      ((ctx.acceptedRequest env p.view tx).isSome = true →
        ctx.cfg.operatorTable.povP2pKey ∈ ctx.stakeChains.stakeChains)
      fun p' es => Answers p p' es ∧ p'.view = { p.view with
        requests := p.view.requests ++ (ctx.acceptedRequest env p.view tx).toList } := by
  have hat : ctx.depositAt env (ctx.nextIdx p.view) tx = (ctx.depositFor env data).toOption := by
    rw [depositAt, hdata]
  have hfor : p.ctx.depositFor env data = ctx.depositFor env data := by
    rw [depositFor, depositFor, txBuildContext, txBuildContext, hp.evolves.cfg]
  rw [createContract, hfor, acceptedRequest, hat]
  cases ctx.depositFor env data with
  | error e => simp [Except.toOption, Answers]
  | ok depositTx =>
    dsimp only
    rw [if_congr (hp.evolves.mem_iff _) rfl rfl, hp.evolves.stakeChains, hp.evolves.cfg,
      mem_iff_exists (k := ctx.cfg.operatorTable.povP2pKey)]
    split_ifs with hknown
    · simp [Except.toOption, Option.filter, hknown, Answers]
    · cases ctx.stakeChains.stakeChains[ctx.cfg.operatorTable.povP2pKey]? <;>
        simp [Except.toOption, Option.filter, hknown, Answers, BlockProgress.view, contractCfg,
          ContractSM.new, request]

/-! ### Transactions -/

private theorem processOther_decided (tx : Transaction) (hp : Progress env ctx height p)
    (hbelow : ∀ k sm, p.ctx.contracts k = some sm → sm.state.blockHeight < height) :
    (processOther env p height (ctx.nextIdx p.view) tx).Decided (ctx.AcceptsOther env p.view tx)
      fun p' es => Answers p p' es ∧ p'.view = ctx.afterOther env p.view height tx := by
  have hrequestIn : p.ctx.requestIn env (ctx.nextIdx p.view) tx =
      ctx.requestIn env (ctx.nextIdx p.view) tx := by
    rw [requestIn, requestIn, txBuildContext, txBuildContext, hp.evolves.cfg]
  have hget : p.ctx.activeContracts[env.computeTxid tx]? =
      p.view.contracts (env.computeTxid tx) := rfl
  rw [processOther, AcceptsOther, afterOther, hrequestIn, hget]
  rcases hrequest : ctx.requestIn env (ctx.nextIdx p.view) tx with msg | _ | data
  · simp
  · dsimp only
    rw [confirmTx]
    cases hsm : p.view.contracts (env.computeTxid tx) with
    | some sm =>
      refine (confirmDeposit_decided (hbelow _ sm hsm)).embed ?_
      rintro ctx' es ⟨hes, hview⟩
      exact ⟨by simp [Answers, hes, BlockProgress.view], by rw [BlockProgress.view, hview]; rfl⟩
    | none =>
      refine (confirmPegOutGraphTx_decided hbelow).embed ?_
      rintro ctx' es ⟨hes, hview⟩
      exact ⟨by simp [Answers, hes, BlockProgress.view], by rw [BlockProgress.view, hview]; rfl⟩
  · exact createContract_decided hp hrequest

private theorem processTx_decided (hp : Progress env ctx height p)
    (hbelow : ∀ k sm, ctx.contracts k = some sm → sm.state.blockHeight < height) :
    (processTx env height ctx.depositIdxOffset p tx).Decided (ctx.AcceptsTx env p.view tx)
      fun p' es => Answers p p' es ∧ p'.view = ctx.afterTx env height p.view tx := by
  obtain ⟨ctx₁, sms⟩ := p
  obtain ⟨m, rfl⟩ : ∃ m, ctx₁ = ctx.withContracts m := ⟨_, hp.evolves.frame⟩
  have hassign : (((ctx.withContracts m).processAssignments env tx).embed (BlockProgress.mk · sms)
      (id : ContractManagerErr → _)).Decided
      (ctx.AcceptsAssignments env (ctx.withContracts m).contracts tx) fun p' es =>
      es.filterMap request = [] ∧ (es = [] → p' = ⟨ctx.withContracts m, sms⟩) ∧
      p'.newContracts = sms ∧ ctx.assignAll env (BlockProgress.view ⟨ctx.withContracts m,
        sms⟩).contracts tx = (p'.ctx.contracts, !es.isEmpty) :=
    (processAssignments_decided env (ctx.withContracts m) tx).embed
      fun ctx' es ⟨hes, hsame, hall⟩ => ⟨hes, fun h => by rw [hsame h], rfl, hall.symm⟩
  refine hassign.bind fun p' es ⟨hes, hsame, hsms, hall⟩ => ?_
  simp only [afterTx, hall]
  cases hnil : es.isEmpty with
  | true =>
    rw [hsame (isEmpty_iff.mp hnil)]
    have hlt (k : Txid) (sm : ContractSM)
        (hk : (ctx.withContracts m).contracts k = some sm) : sm.state.blockHeight < height := by
      obtain ⟨sm₀, hsm₀, hreach⟩ := hp.evolves.exists_of_get hk
      rw [hreach.blockHeight]
      exact hbelow k sm₀ hsm₀
    have hother := processOther_decided tx hp hlt
    rw [nextIdx_view] at hother
    simpa using hother
  | false => simp [Answers, hes, BlockProgress.view, hsms]

/-- **The manager goes through a block as the view says.** -/
theorem processTxs_decided (env : Env) {b : Block}
    (hbelow : ∀ k sm, ctx.contracts k = some sm → sm.state.blockHeight < b.height) :
    (Outcome.forEach (processTx env b.height ctx.depositIdxOffset) ⟨ctx, []⟩ b.txdata).Decided
      (Outcome.Along (ctx.AcceptsTx env) (ctx.afterTx env b.height) ⟨ctx.contracts, []⟩ b.txdata)
      fun p es => p.view = ctx.afterTxs env b ∧
        es.filterMap request = (ctx.newRequests env b).map DepositTx.requestTxid := by
  have hloop := Outcome.Decided.forEach [] (s := ⟨ctx, []⟩) (l := b.txdata)
    (f := processTx env b.height ctx.depositIdxOffset) (v := fun p _ => p.view)
    (A := ctx.AcceptsTx env) (g := ctx.afterTx env b.height)
    (I := fun p es => Progress env ctx b.height p ∧ Answers ⟨ctx, []⟩ p es)
    ⟨.refl env ctx b.height, rfl⟩ fun p es ⟨hp, hes⟩ tx _ => ?_
  · refine hloop.mono fun p es ⟨⟨_, hes⟩, hview⟩ => ⟨hview, ?_⟩
    rw [newRequests, ← show p.view = ctx.afterTxs env b from hview]
    exact hes.symm
  · refine ((processTx_decided hp hbelow).of_leaves (processTx_progress hp tx)).mono
      fun p' es' ⟨hp', hes', hview⟩ => ⟨⟨hp', ?_⟩, hview⟩
    rw [Answers, hes', hes, filterMap_append, append_assoc]

end ContractManagerCtx

end StrataBridge
