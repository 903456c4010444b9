import Mathlib.Data.List.Fold
import Mathlib.Data.List.MinMax
import StrataBridge.DutyTracker.ContractManager
import StrataBridge.DutyTracker.Phases

/-!
# What the manager does to its contracts

Every entry point of the manager moves its contracts along their own steps. This file says so
once: `ContractManagerCtx.Moves` relates two states of the manager in which every contract of
the second is reached from the contract of the first by events of a given kind, and
`ContractManagerCtx.Evolves` says that nothing else has changed. A block is such a change, followed
by new contracts and a commit; a message moves the contracts and may change the books that are
kept about claims, stakes and the rows on disk.
-/

namespace StrataBridge

open Rust Transition BTreeMap List Outcome

variable {sm : ContractSM} {k : Txid} {height : BitcoinBlockHeight} {sms : List ContractSM}
  {es : List Emission}

variable {sm' : ContractSM} {G' : ContractEvent → Prop} {ev : ContractEvent} {p : BlockProgress}

/-- The events that a transaction of a block leads to. -/
def ContractEvent.isTx : ContractEvent → Bool
  | .assignment .. | .depositConfirmation _ | .pegOutGraphConfirmation .. => true
  | _ => false

/-- The events of a signing session. -/
def ContractEvent.isSession : ContractEvent → Bool
  | .graphNonces .. | .graphSigs .. | .rootNonce .. | .rootSig .. => true
  | _ => false

/-- The events that a block leads to. -/
def ContractEvent.IsChain (ev : ContractEvent) : Prop :=
  ev.isTx = true ∨ ∃ height, ev = .block height

/-- A contract is reached from another by events of a kind. -/
def ContractSM.ReachableBy (env : Env) (G : ContractEvent → Prop) :
    ContractSM → ContractSM → Prop :=
  Transition.Reachable (ContractSM.step env) fun _ ev => G ev

theorem ContractSM.ReachableBy.cfg {env : Env} {G : ContractEvent → Prop}
    (h : ReachableBy env G sm sm') : sm'.cfg = sm.cfg :=
  Transition.Reachable.invariant (I := fun sm' => sm'.cfg = sm.cfg) h rfl
    fun _ _ _ _ hs _ hstep => (cfg_of_step hstep).trans hs

theorem ContractSM.ReachableBy.mono {env : Env} {G : ContractEvent → Prop}
    (h : ReachableBy env G sm sm') (hG : ∀ ev, G ev → G' ev) : ReachableBy env G' sm sm' := by
  obtain ⟨ds, hrun⟩ := h
  exact ⟨ds, hrun.mono fun _ ev => hG ev⟩

namespace ContractManagerCtx

variable {env : Env} {G : ContractEvent → Prop} {ctx ctx' : ContractManagerCtx}

/-- The contracts have moved by events of a kind; none has come or gone. -/
structure Moves (env : Env) (G : ContractEvent → Prop) (ctx ctx' : ContractManagerCtx) :
    Prop where
  cfg : ctx'.cfg = ctx.cfg
  contracts : ∀ k : Txid, Option.Rel (ContractSM.ReachableBy env G) ctx.activeContracts[k]?
    ctx'.activeContracts[k]?

namespace Moves

theorem of_eq (hcfg : ctx'.cfg = ctx.cfg) (h : ctx'.activeContracts = ctx.activeContracts) :
    Moves env G ctx ctx' := by
  refine ⟨hcfg, fun k => ?_⟩
  rw [h]
  cases ctx.activeContracts[k]? with
  | none => exact .none
  | some sm => exact .some .refl

variable (h : Moves env G ctx ctx')
include h

theorem trans {ctx'' : ContractManagerCtx}
    (h' : Moves env G ctx' ctx'') : Moves env G ctx ctx'' := by
  refine ⟨h'.cfg.trans h.cfg, fun k => ?_⟩
  have hk := h.contracts k
  have hk' := h'.contracts k
  revert hk hk'
  cases ctx.activeContracts[k]? <;> cases ctx'.activeContracts[k]? <;>
    cases ctx''.activeContracts[k]? <;> intro hk hk' <;> cases hk <;> cases hk'
  · exact .none
  · exact .some (Transition.Reachable.trans ‹_› ‹_›)

theorem mono (hG : ∀ ev, G ev → G' ev) : Moves env G' ctx ctx' := by
  refine ⟨h.cfg, fun k => ?_⟩
  have hk := h.contracts k
  generalize ctx.activeContracts[k]? = before, ctx'.activeContracts[k]? = after at hk ⊢
  cases hk with
  | none => exact .none
  | some hr => exact .some (hr.mono hG)

/-- A contract comes from the one that was there before. -/
theorem exists_of_get (hk : ctx'.activeContracts[k]? = some sm') :
    ∃ sm, ctx.activeContracts[k]? = some sm ∧ ContractSM.ReachableBy env G sm sm' := by
  have hrel := h.contracts k
  rw [hk] at hrel
  generalize ctx.activeContracts[k]? = before at hrel ⊢
  cases hrel with
  | some hr => exact ⟨_, rfl, hr⟩

theorem exists_get_of (hk : ctx.activeContracts[k]? = some sm) :
    ∃ sm', ctx'.activeContracts[k]? = some sm' ∧ ContractSM.ReachableBy env G sm sm' := by
  have hrel := h.contracts k
  rw [hk] at hrel
  generalize ctx'.activeContracts[k]? = after at hrel ⊢
  cases hrel with
  | some hr => exact ⟨_, rfl, hr⟩

theorem mem_iff (k : Txid) :
    k ∈ ctx'.activeContracts ↔ k ∈ ctx.activeContracts := by
  rw [mem_iff_exists, mem_iff_exists]
  constructor
  · rintro ⟨sm', hk⟩
    obtain ⟨sm, hsm, -⟩ := h.exists_of_get hk
    exact ⟨sm, hsm⟩
  · rintro ⟨sm, hk⟩
    obtain ⟨sm', hsm', -⟩ := h.exists_get_of hk
    exact ⟨sm', hsm'⟩

theorem putContract (hk : ctx.activeContracts[k]? = some sm)
    (hr : ContractSM.ReachableBy env G sm sm') : Moves env G ctx (ctx'.putContract k sm') := by
  refine ⟨h.cfg, fun k' => ?_⟩
  rw [ContractManagerCtx.putContract, get_insert]
  split_ifs with heq
  · rw [← heq, hk]
    exact .some hr
  · exact h.contracts k'

end Moves

/-- The contracts have moved by events of a kind, and nothing else has changed. -/
structure Evolves (env : Env) (G : ContractEvent → Prop) (ctx ctx' : ContractManagerCtx) : Prop
    extends Moves env G ctx ctx' where
  frame : ctx' = { ctx with activeContracts := ctx'.activeContracts }

namespace Evolves

theorem refl (ctx : ContractManagerCtx) : Evolves env G ctx ctx := ⟨.of_eq rfl rfl, rfl⟩

variable (h : Evolves env G ctx ctx')
include h

theorem trans {ctx'' : ContractManagerCtx}
    (h' : Evolves env G ctx' ctx'') : Evolves env G ctx ctx'' :=
  ⟨h.toMoves.trans h'.toMoves, by rw [h'.frame, h.frame]⟩

theorem mono (hG : ∀ ev, G ev → G' ev) : Evolves env G' ctx ctx' :=
  ⟨h.toMoves.mono hG, h.frame⟩

theorem stakeChains : ctx'.stakeChains = ctx.stakeChains := by
  rw [h.frame]

theorem contractPersister :
    ctx'.contractPersister = ctx.contractPersister := by rw [h.frame]

theorem putContract (hk : ctx.activeContracts[k]? = some sm)
    (hr : ContractSM.ReachableBy env G sm sm') : Evolves env G ctx (ctx'.putContract k sm') :=
  ⟨h.toMoves.putContract hk hr, by rw [ContractManagerCtx.putContract, h.frame]⟩

end Evolves

/-- The contracts have moved by transactions of a block. -/
abbrev EvolvesByTx (env : Env) : ContractManagerCtx → ContractManagerCtx → Prop :=
  Evolves env fun ev => ev.isTx = true

/-- The contracts have moved by a block and its transactions. -/
abbrev EvolvesByChain (env : Env) : ContractManagerCtx → ContractManagerCtx → Prop :=
  Evolves env ContractEvent.IsChain

/-! ### Events -/

/-- An event leaves what the contract's step leaves, also when it is rejected. -/
theorem deliver_leaves {P : ContractManagerCtx → Prop}
    (h : ∀ sm' ds, sm.step env ev = some (sm', ds) → P (ctx.putContract k sm')) :
    (ctx.deliver env k sm ev).Leaves P := by
  rw [deliver, leaves_map]
  rw [ContractSM.step] at h
  cases hr : sm.processContractEvent env ev with
  | ok sm' ds => exact h sm' ds (by rw [hr]; rfl)
  | err sm' e => exact h sm' [] (by rw [hr]; rfl)
  | panic msg => trivial

theorem deliver_evolves (h : Evolves env G ctx ctx') (hk : ctx.activeContracts[k]? = some sm)
    (hG : G ev) : (ctx'.deliver env k sm ev).Leaves (Evolves env G ctx) :=
  deliver_leaves fun _ _ hstep => h.putContract hk (Transition.Reachable.refl.snoc hG hstep)

/-- The duties of an event name it and its contract. -/
theorem deliver_emits (ctx : ContractManagerCtx) (env : Env) (k : Txid) (sm : ContractSM)
    (ev : ContractEvent) :
    (ctx.deliver env k sm ev).Emits fun e => e.origin = .event k ev := by
  rw [deliver]
  cases sm.processContractEvent env ev with
  | ok sm' ds =>
    intro e he
    obtain ⟨d, -, rfl⟩ := mem_map.mp he
    rfl
  | err | panic => trivial

/-- A loop over the contracts moves them if its body does. -/
theorem forEach_contracts_evolves
    {f : ContractManagerCtx → Txid × ContractSM → ContractManagerCtx.Reply}
    (hf : ∀ ctx', Evolves env G ctx ctx' → ∀ e : Txid × ContractSM,
      ctx.activeContracts[e.1]? = some e.2 → (f ctx' e).Leaves (Evolves env G ctx)) :
    (forEach f ctx ctx.activeContracts.toList).Leaves (Evolves env G ctx) :=
  Outcome.Leaves.forEach (.refl ctx) fun ctx' h e he =>
    hf ctx' h e (mem_toList.mp he)

/-! ### Blocks -/

/-- The dispatched deposits of the checkpoint that a transaction carries. -/
def txEntries (env : Env) (params : RollupParams) (tx : Transaction) : List DepositEntry :=
  match parseStrataCheckpoint env params tx with
  | .ok (some checkpoint) =>
    match env.decodeChainstate checkpoint.sidecar with
    | none => []
    | some chainstate => chainstate.depositsTable.filter DepositEntry.isDispatched
  | _ => []

private theorem assignEntry_evolves (h : EvolvesByTx env ctx ctx')
    (l1StartHeight : BitcoinBlockHeight) (entry : DepositEntry) :
    (ctx'.assignEntry env l1StartHeight entry).Leaves (EvolvesByTx env ctx) := by
  rw [assignEntry]
  split
  · trivial
  next sm hsm =>
  split
  next stakeTx _ =>
    have hdeliver : (ctx'.deliver env entry.output.txid sm
        (.assignment entry stakeTx l1StartHeight)).Leaves (EvolvesByTx env ctx') :=
      deliver_evolves (.refl ctx') hsm rfl
    exact hdeliver.mono fun _ h' => h.trans h'
  · exact h

theorem processAssignments_evolves (env : Env) (ctx : ContractManagerCtx) (tx : Transaction) :
    (ctx.processAssignments env tx).Leaves (EvolvesByTx env ctx) := by
  rw [processAssignments]
  split
  · trivial
  · exact .refl ctx
  split
  · exact .refl ctx
  · exact Outcome.Leaves.forEach (.refl ctx) fun ctx' h entry _ => assignEntry_evolves h _ entry

theorem confirmDeposit_evolves {tx : Transaction}
    (hsm : ctx.activeContracts[env.computeTxid tx]? = some sm) :
    (ctx.confirmDeposit env height sm tx).Leaves (EvolvesByTx env ctx) := by
  have hdeliver : (ctx.deliver env (env.computeTxid tx) sm (.depositConfirmation tx)).Leaves
      (EvolvesByTx env ctx) := deliver_evolves (.refl ctx) hsm rfl
  rw [confirmDeposit]
  split
  · exact .refl ctx
  · revert hdeliver
    cases ctx.deliver env (env.computeTxid tx) sm (.depositConfirmation tx) <;> exact id

theorem confirmPegOutGraphTx_evolves (env : Env) (ctx : ContractManagerCtx)
    (height : BitcoinBlockHeight) (tx : Transaction) :
    (ctx.confirmPegOutGraphTx env height tx).Leaves (EvolvesByTx env ctx) := by
  refine forEach_contracts_evolves fun ctx' h e he => ?_
  rw [confirmFor]
  split
  · exact h
  split
  · exact deliver_evolves h he rfl
  · exact h

theorem notifyContracts_evolves (env : Env) (ctx : ContractManagerCtx)
    (height : BitcoinBlockHeight) :
    (ctx.notifyContracts env height).Leaves (EvolvesByChain env ctx) :=
  forEach_contracts_evolves fun _ h _ he => deliver_evolves h he (.inr ⟨height, rfl⟩)

/-- A contract with the given index, for a deposit that no contract has. -/
def IsNew (env : Env) (ctx : ContractManagerCtx) (height : BitcoinBlockHeight) (depositIdx : ℕ)
    (sm : ContractSM) : Prop :=
  ∃ depositTx, sm = .new (ctx.contractCfg depositIdx depositTx) height
      (height + ctx.cfg.pegOutGraphParams.refundDelay) ∧
    depositTx.tx.computeTxid env ∉ ctx.activeContracts

/-- The contracts that a block creates are new, and numbered in their order. -/
def NewContracts (env : Env) (ctx : ContractManagerCtx) (height : BitcoinBlockHeight)
    (sms : List ContractSM) : Prop :=
  ∀ i sm, sms[i]? = some sm → IsNew env ctx height (ctx.depositIdxOffset + i) sm

/-- What holds between two transactions of a block. -/
structure Progress (env : Env) (ctx : ContractManagerCtx) (height : BitcoinBlockHeight)
    (p : BlockProgress) : Prop where
  evolves : EvolvesByTx env ctx p.ctx
  newContracts : NewContracts env ctx height p.newContracts

theorem Progress.refl (env : Env) (ctx : ContractManagerCtx) (height : BitcoinBlockHeight) :
    Progress env ctx height ⟨ctx, []⟩ :=
  ⟨.refl ctx, by simp [NewContracts]⟩

theorem createContract_progress (h : Progress env ctx height p) (data : DepositRequestData) :
    (createContract env p height (ctx.depositIdxOffset + p.newContracts.length) data).Leaves
      (Progress env ctx height) := by
  rw [createContract]
  split
  · exact h
  next depositTx _ =>
  split
  · exact h
  next hfresh =>
  split
  · trivial
  · refine ⟨h.evolves, fun i sm hi => ?_⟩
    rcases Nat.lt_trichotomy i p.newContracts.length with hlt | rfl | hgt
    · rw [getElem?_append_left hlt] at hi
      exact h.newContracts i sm hi
    · rw [getElem?_concat_length] at hi
      cases hi
      refine ⟨depositTx, ?_, fun hmem => hfresh ((h.evolves.mem_iff _).mpr hmem)⟩
      rw [contractCfg, contractCfg, h.evolves.cfg]
    · rw [getElem?_eq_none (by simp; omega)] at hi
      cases hi

theorem processOther_progress (h : Progress env ctx height p) (tx : Transaction) :
    (processOther env p height (ctx.depositIdxOffset + p.newContracts.length) tx).Leaves
      (Progress env ctx height) := by
  rw [processOther]
  split
  · trivial
  · exact createContract_progress h _
  split
  next sm hsm =>
    rw [leaves_embed]
    exact (confirmDeposit_evolves hsm).mono fun _ h' => ⟨h.evolves.trans h', h.newContracts⟩
  next =>
    rw [leaves_embed]
    exact (confirmPegOutGraphTx_evolves env p.ctx height tx).mono fun _ h' =>
      ⟨h.evolves.trans h', h.newContracts⟩

/-- **Every transaction of a block keeps the progress.** -/
theorem processTx_progress (h : Progress env ctx height p) (tx : Transaction) :
    (processTx env height ctx.depositIdxOffset p tx).Leaves (Progress env ctx height) := by
  have hassign : ((p.ctx.processAssignments env tx).embed (BlockProgress.mk · p.newContracts)
      (id : ContractManagerErr → _)).Leaves (Progress env ctx height) := by
    rw [leaves_embed]
    exact (processAssignments_evolves env p.ctx tx).mono fun _ h' =>
      ⟨h.evolves.trans h', h.newContracts⟩
  refine hassign.bind (fun _ h => h) fun p duties hp => ?_
  split
  · exact processOther_progress hp tx
  · exact hp

theorem processTxs_progress (env : Env) (ctx : ContractManagerCtx) (height : BitcoinBlockHeight)
    (txs : List Transaction) :
    (forEach (processTx env height ctx.depositIdxOffset) ⟨ctx, []⟩ txs).Leaves
      (Progress env ctx height) :=
  Outcome.Leaves.forEach (.refl env ctx height) fun _ h tx _ => processTx_progress h tx

/-! ### New contracts -/

/-- The index of a new contract is above all that are taken. -/
theorem lt_depositIdxOffset (h : ctx.activeContracts[k]? = some sm) :
    sm.cfg.depositIdx < ctx.depositIdxOffset := by
  have hmem : sm.cfg.depositIdx + 1 ∈
      (vals ctx.activeContracts).map fun sm => sm.cfg.depositIdx + 1 :=
    mem_map_of_mem (mem_vals.mpr ⟨k, h⟩)
  rw [depositIdxOffset, foldl_eq_foldr]
  exact le_max_of_le' 0 hmem le_rfl

/-- Adding contracts changes nothing else. -/
theorem addContracts_eq (sms : List ContractSM) : ctx.addContracts env sms =
    { ctx with activeContracts := (ctx.addContracts env sms).activeContracts } := by
  induction sms generalizing ctx with
  | nil => rfl
  | cons sm sms ih => exact ih

theorem addContracts_cfg (sms : List ContractSM) : (ctx.addContracts env sms).cfg = ctx.cfg := by
  rw [addContracts_eq]

/-- A contract is one of the new ones or was there before. -/
theorem get_addContracts (h : (ctx.addContracts env sms).activeContracts[k]? = some sm) :
    sm ∈ sms ∧ sm.depositTxid env = k ∨ ctx.activeContracts[k]? = some sm := by
  induction sms generalizing ctx with
  | nil => exact .inr h
  | cons sm' sms ih =>
    rcases ih h with ⟨hmem, hk⟩ | hk
    · exact .inl ⟨mem_cons_of_mem sm' hmem, hk⟩
    · have hk : (ctx.putContract (sm'.depositTxid env) sm').activeContracts[k]? = some sm := hk
      rw [putContract, get_insert] at hk
      split_ifs at hk with heq
      · cases hk
        exact .inl ⟨mem_cons_self, heq⟩
      · exact .inr hk

theorem get_addContracts_of_ne (h : ∀ sm ∈ sms, sm.depositTxid env ≠ k) :
    (ctx.addContracts env sms).activeContracts[k]? = ctx.activeContracts[k]? := by
  induction sms generalizing ctx with
  | nil => rfl
  | cons sm sms ih =>
    refine (ih fun sm' hsm' => h sm' (mem_cons_of_mem sm hsm')).trans ?_
    exact get_insert_of_ne _ _ (h sm mem_cons_self)

theorem NewContracts.exists_of_mem (h : NewContracts env ctx height sms) (hsm : sm ∈ sms) :
    ∃ i, sms[i]? = some sm ∧ IsNew env ctx height (ctx.depositIdxOffset + i) sm := by
  obtain ⟨i, hi⟩ := getElem?_of_mem hsm
  exact ⟨i, hi, h i sm hi⟩

theorem NewContracts.depositTxid_notMem (h : NewContracts env ctx height sms) (hsm : sm ∈ sms) :
    sm.depositTxid env ∉ ctx.activeContracts := by
  obtain ⟨i, -, depositTx, rfl, hfresh⟩ := h.exists_of_mem hsm
  exact hfresh

/-- **An accepted block, step by step.** -/
theorem processBlock_eq_ok {b : Block} (h : ctx.processBlock env b = .ok ctx' es) :
    ∃ p duties ctx₁ blockDuties,
      forEach (processTx env b.height ctx.depositIdxOffset) ⟨ctx, []⟩ b.txdata = .ok p duties ∧
      p.ctx.notifyContracts env b.height = .ok ctx₁ blockDuties ∧
      EvolvesByChain env ctx ctx₁ ∧ NewContracts env ctx b.height p.newContracts ∧
      ctx' = (ctx₁.addContracts env p.newContracts).commitAll := by
  have htxs := processTxs_progress env ctx b.height b.txdata
  rw [processBlock] at h
  split at h
  · cases h
  · cases h
  next p duties hr =>
    rw [hr] at htxs
    have hnotify := notifyContracts_evolves env p.ctx b.height
    cases hn : p.ctx.notifyContracts env b.height with
    | panic msg => simp [hn] at h
    | err ctx₁ e => simp [hn] at h
    | ok ctx₁ blockDuties =>
      rw [hn] at h hnotify
      cases h
      exact ⟨p, duties, ctx₁, blockDuties, hr, hn,
        (htxs.evolves.mono fun _ => .inl).trans hnotify, htxs.newContracts, rfl⟩

/-- A rejected block has moved contracts all the same. -/
theorem processBlock_errLeaves (env : Env) (ctx : ContractManagerCtx) (b : Block) :
    (ctx.processBlock env b).ErrLeaves (EvolvesByChain env ctx) := by
  have htxs := processTxs_progress env ctx b.height b.txdata
  rw [processBlock]
  split
  · trivial
  next p e hr =>
    rw [hr] at htxs
    exact htxs.evolves.mono fun _ => .inl
  next p duties hr =>
    rw [hr] at htxs
    have hnotify := notifyContracts_evolves env p.ctx b.height
    cases hn : p.ctx.notifyContracts env b.height with
    | panic | ok => trivial
    | err ctx₁ e =>
      rw [hn] at hnotify
      exact (htxs.evolves.mono fun _ => .inl).trans hnotify

/-- **What a block does.** The contracts move by events of the chain; if the block is accepted,
the contracts it creates are added and all contracts are committed. -/
theorem processBlock_cases {b : Block} (h : (ctx.processBlock env b).next = some (ctx', es)) :
    EvolvesByChain env ctx ctx' ∨ ∃ ctx₁ sms, EvolvesByChain env ctx ctx₁ ∧
      NewContracts env ctx b.height sms ∧ ctx' = (ctx₁.addContracts env sms).commitAll := by
  have herr := processBlock_errLeaves env ctx b
  cases hr : ctx.processBlock env b with
  | panic msg => simp [hr] at h
  | err ctx₁ e =>
    rw [hr] at h herr
    cases h
    exact .inl herr
  | ok ctx₂ es' =>
    rw [hr] at h
    cases h
    obtain ⟨p, -, ctx₁, -, -, -, hevolves, hnew, rfl⟩ := processBlock_eq_ok hr
    exact .inr ⟨ctx₁, p.newContracts, hevolves, hnew, rfl⟩

/-! ### Messages and requests -/

/-- The contracts have moved by events of signing. -/
abbrev MovesBySigning (env : Env) : ContractManagerCtx → ContractManagerCtx → Prop :=
  Moves env fun ev => ev.isSigning = true

/-- The contracts have moved by events of sessions; the stake chains have not. -/
structure MovesBySession (env : Env) (ctx ctx' : ContractManagerCtx) : Prop
    extends Moves env (fun ev => ev.isSession = true) ctx ctx' where
  stakeChains : ctx'.stakeChains = ctx.stakeChains

/-- The contracts have moved; the stake chains and the index of claims have not. -/
structure MovesInSession (env : Env) (G : ContractEvent → Prop) (ctx ctx' : ContractManagerCtx) :
    Prop extends Moves env G ctx ctx' where
  stakeChains : ctx'.stakeChains = ctx.stakeChains
  claimTxids : ctx'.claimTxids = ctx.claimTxids

theorem MovesInSession.refl (ctx : ContractManagerCtx) : MovesInSession env G ctx ctx :=
  ⟨.of_eq rfl rfl, rfl, rfl⟩

theorem MovesInSession.bySession (h : MovesInSession env (fun ev => ev.isSession = true) ctx ctx') :
    MovesBySession env ctx ctx' :=
  ⟨h.toMoves, h.stakeChains⟩

theorem findByClaim_eq_some {claim deposit : Txid}
    (h : ctx.findByClaim claim = some (deposit, sm)) : ctx.activeContracts[deposit]? = some sm := by
  obtain ⟨k, -, hk⟩ := Option.bind_eq_some_iff.mp h
  obtain ⟨sm', hsm', heq⟩ := Option.map_eq_some_iff.mp hk
  cases heq
  exact hsm'

theorem findByRequest_eq_some {requestTxid deposit : Txid}
    (h : ctx.findByRequest requestTxid = some (deposit, sm)) :
    ctx.activeContracts[deposit]? = some sm :=
  mem_toList.mp (mem_of_find?_eq_some h)

theorem commit_eq (ctx : ContractManagerCtx) (key deposit : Txid) :
    ctx.commit key deposit =
      { ctx with contractPersister := (ctx.commit key deposit).contractPersister } := by
  rw [commit]
  cases ctx.activeContracts[deposit]? <;> rfl

theorem Moves.commit (h : Moves env G ctx ctx') (key deposit : Txid) :
    Moves env G ctx (ctx'.commit key deposit) := by
  rw [commit_eq]
  exact h.trans (.of_eq rfl rfl)

theorem deliver_movesInSession (hk : ctx.activeContracts[k]? = some sm) (hG : G ev) :
    (ctx.deliver env k sm ev).Leaves (MovesInSession env G ctx) :=
  (deliver_evolves (.refl ctx) hk hG).mono fun _ h => ⟨h.toMoves, h.stakeChains, by rw [h.frame]⟩

section Senders

variable {key : P2POperatorPubKey}

private theorem setupContract_movesBy
    (hG : ∀ ev : ContractEvent, ev.isSigning = true → ev.sender = some key → G ev) {scope : Txid}
    (setup : DepositSetup) (hsm : ctx.activeContracts[scope]? = some sm) :
    (ctx.setupContract env key scope sm setup).Leaves (Moves env G ctx) := by
  rw [setupContract]
  split
  · exact .of_eq rfl rfl
  · exact .of_eq rfl rfl
  split
  · exact .of_eq rfl rfl
  have hdeliver {ev : ContractEvent} (hev : G ev) :
      (ctx.deliver env scope sm ev).Leaves (Moves env G ctx) :=
    (deliver_evolves (.refl ctx) hsm hev).mono fun _ h => h.toMoves
  refine (hdeliver (hG _ rfl rfl)).bind (fun _ h => h) fun ctx' duties h => ?_
  have hindex : Moves env G ctx (ctx'.indexClaims scope duties) := h.trans (.of_eq rfl rfl)
  split
  · exact hindex
  · exact hindex.commit scope scope

private theorem processDepositSetup_movesBy
    (hG : ∀ ev : ContractEvent, ev.isSigning = true → ev.sender = some key → G ev) (scope : Txid)
    (setup : DepositSetup) :
    (ctx.processDepositSetup env key scope setup).Leaves (Moves env G ctx) := by
  rw [processDepositSetup]
  split
  · exact .of_eq rfl rfl
  next sm hsm =>
  split
  · trivial
  · exact .of_eq rfl rfl
  · exact .of_eq rfl rfl
  next stakeChains _ _ =>
    have hsetup : (setupContract env { ctx with stakeChains } key scope sm setup).Leaves
        (Moves env G { ctx with stakeChains }) := setupContract_movesBy hG setup hsm
    exact hsetup.mono fun _ h => ⟨h.cfg, h.contracts⟩

theorem processNonces_movesInSession (env : Env) (ctx : ContractManagerCtx)
    (hG : ∀ ev : ContractEvent, ev.isSession = true → ev.sender = some key → G ev)
    (sessionId : Txid) (nonces : List PubNonce) :
    (ctx.processNonces env key sessionId nonces).Leaves (MovesInSession env G ctx) := by
  rw [processNonces]
  split
  next hfind => exact deliver_movesInSession (findByClaim_eq_some hfind) (hG _ rfl rfl)
  split
  · exact .refl ctx
  next hfind =>
  split
  · exact .refl ctx
  split
  · exact deliver_movesInSession (findByRequest_eq_some hfind) (hG _ rfl rfl)
  · exact .refl ctx

theorem processSignatures_movesInSession (env : Env) (ctx : ContractManagerCtx)
    (hG : ∀ ev : ContractEvent, ev.isSession = true → ev.sender = some key → G ev)
    (sessionId : Txid) (signatures : List PartialSignature) :
    (ctx.processSignatures env key sessionId signatures).Leaves (MovesInSession env G ctx) := by
  rw [processSignatures]
  split
  next deposit sm hfind =>
    refine (deliver_movesInSession (findByClaim_eq_some hfind) (hG _ rfl rfl)).bind
      (fun _ h => h) ?_
    intro ctx' duties h
    split
    · exact h
    · refine ⟨h.toMoves.commit sessionId deposit, ?_, ?_⟩
      · rw [commit_eq]
        exact h.stakeChains
      · rw [commit_eq]
        exact h.claimTxids
  split
  · exact .refl ctx
  next hfind =>
  split
  · exact deliver_movesInSession (findByRequest_eq_some hfind) (hG _ rfl rfl)
  · exact .refl ctx

/-- **What a message does to the contracts.** They move by events of signing that its sender
sends. -/
theorem processP2pMessage_movesBy (env : Env) (ctx : ContractManagerCtx)
    (hG : ∀ ev : ContractEvent, ev.isSigning = true → ev.sender = some key → G ev)
    (msg : UnsignedGossipsubMsg) :
    (ctx.processP2pMessage env key msg).Leaves (Moves env G ctx) := by
  have hsession (ev : ContractEvent) (hev : ev.isSession = true) (hsender : ev.sender = some key) :
      G ev := hG ev (by cases ev <;> first | rfl | cases hev) hsender
  rw [processP2pMessage]
  split
  · trivial
  cases msg with
  | stakeChainExchange => exact .of_eq rfl rfl
  | depositSetup scope setup => exact processDepositSetup_movesBy hG scope setup
  | musig2NoncesExchange sessionId nonces =>
    exact (processNonces_movesInSession env ctx hsession sessionId nonces).mono fun _ h => h.toMoves
  | musig2SignaturesExchange sessionId sigs =>
    exact (processSignatures_movesInSession env ctx hsession sessionId sigs).mono fun _ h =>
      h.toMoves

end Senders

theorem processNonces_moves (env : Env) (ctx : ContractManagerCtx) (key : P2POperatorPubKey)
    (sessionId : Txid) (nonces : List PubNonce) :
    (ctx.processNonces env key sessionId nonces).Leaves (MovesBySession env ctx) :=
  (processNonces_movesInSession env ctx (fun _ h _ => h) sessionId nonces).mono
    fun _ h => h.bySession

theorem processSignatures_moves (env : Env) (ctx : ContractManagerCtx) (key : P2POperatorPubKey)
    (sessionId : Txid) (signatures : List PartialSignature) :
    (ctx.processSignatures env key sessionId signatures).Leaves (MovesBySession env ctx) :=
  (processSignatures_movesInSession env ctx (fun _ h _ => h) sessionId signatures).mono
    fun _ h => h.bySession

theorem processP2pMessage_moves (env : Env) (ctx : ContractManagerCtx) (key : P2POperatorPubKey)
    (msg : UnsignedGossipsubMsg) :
    (ctx.processP2pMessage env key msg).Leaves (MovesBySigning env ctx) :=
  processP2pMessage_movesBy env ctx (fun _ h _ => h) msg

theorem processP2pRequest_leaves (env : Env) (ctx : ContractManagerCtx)
    (req : GetMessageRequest) : (ctx.processP2pRequest env req).Leaves (· = ctx) := by
  have hanswer (sessionId : Txid)
      (ofClaim ofRequest : ContractSM → MayPanic (Option OperatorDuty)) :
      (ctx.answerSession sessionId ofClaim ofRequest).Leaves (· = ctx) := by
    rw [answerSession]
    split
    · trivial
    · rfl
  cases req with
  | stakeChainExchange => rfl
  | depositSetup scope =>
    rw [processP2pRequest, processDepositSetupRequest]
    split
    · trivial
    split <;> rfl
  | musig2NoncesExchange | musig2SignaturesExchange => exact hanswer _ _ _

/-- A request changes nothing. -/
theorem serve_request {req : GetMessageRequest}
    (h : ctx.serve env (.request req) = some (ctx', es)) : ctx' = ctx := by
  have hleaves : ((ctx.processP2pRequest env req).map fun duty =>
      duty.toList.map (Emission.mk .request)).Leaves (· = ctx) :=
    leaves_map.mpr (processP2pRequest_leaves env ctx req)
  exact hleaves.of_next h

/-- No input changes the configuration. -/
theorem serve_cfg {i : Input} (h : ctx.serve env i = some (ctx', es)) : ctx'.cfg = ctx.cfg := by
  cases i with
  | block b =>
    rcases processBlock_cases h with hevolves | ⟨ctx₁, sms, hevolves, -, rfl⟩
    · exact hevolves.cfg
    · exact (addContracts_cfg sms).trans hevolves.cfg
  | message key msg => exact ((processP2pMessage_moves env ctx key msg).of_next h).cfg
  | request req => rw [serve_request h]

end ContractManagerCtx

end StrataBridge
