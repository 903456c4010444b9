import StrataBridge.DutyTracker.StakeAgreement

/-!
# Where contracts come from

Every contract of the manager was created for a deposit request, with the configuration of the
manager, and has moved since by events of the chain and by messages of operators of the table. What
holds of all contracts that such events lead to therefore holds of the contracts of a manager.
-/

namespace StrataBridge

open Rust Transition

variable {env : Env} {cfg : ContractCfg}

variable {ev : ContractEvent} {sm : ContractSM}

theorem ContractEvent.IsChain.sender (h : ev.IsChain) : ev.sender = none := by
  rcases h with h | ⟨height, rfl⟩
  · cases ev <;> first | rfl | cases h
  · rfl

namespace Requested

variable {r : Requested} {pog : PogCache}

theorem process_mem_inputs {o : Requested.Reply} (ho : r.process env cfg pog ev = some o) :
    o.Leaves fun p => ∀ k ∈ p.1.pegOutGraphInputs,
      k ∈ r.pegOutGraphInputs ∨ ev.sender = some k := by
  cases ev with
  | depositSetup signer =>
    cases ho
    refine (pegOutGraphInputs_processDepositSetup ..).mono fun p hp k hk => ?_
    rw [hp] at hk
    rcases mem_upsertInput.mp hk with rfl | hk
    · exact .inr rfl
    · exact .inl hk
  | _ => exact (process_sameGraphs ho rfl).mono fun p h k hk => .inl (h.inputs ▸ hk)

end Requested

namespace ContractSM

variable {height deadline : BitcoinBlockHeight}

/-- Events of the chain, and messages of operators of the table, lead to the contract. -/
def Operated (env : Env) (cfg : ContractCfg) (height deadline : BitcoinBlockHeight)
    (sm : ContractSM) : Prop :=
  Transition.Reachable (step env) (fun sm ev => sm.FromTable (.event ev))
    (.new cfg height deadline) sm

namespace Operated

variable (h : Operated env cfg height deadline sm)
include h

theorem cfg_eq : sm.cfg = cfg :=
  Transition.Reachable.invariant (I := fun sm => sm.cfg = cfg) h rfl
    fun _ _ _ _ hsm _ hstep => (cfg_of_step hstep).trans hsm

/-- **A contract keeps its request.** -/
theorem depositRequestTxid_eq {r : Requested}
    (hr : sm.state.state = .requested r) : r.depositRequestTxid = cfg.depositRequestTxid := by
  refine Transition.Reachable.invariant (I := fun sm => ∀ r, sm.state.state = .requested r →
    r.depositRequestTxid = cfg.depositRequestTxid) h ?_ ?_ r hr
  · intro r hr
    cases hr
    rfl
  · intro sm ev sm' ds hsm _ hstep
    exact requested_invariant (Q := fun r _ => r.depositRequestTxid = cfg.depositRequestTxid) hstep
      hsm fun r o _ hr ho => (Requested.process_fixed ho).mono fun _ h => h.1.trans hr

/-- **Only operators of the table have announced data.** -/
theorem mem_table {r : Requested}
    (hr : sm.state.state = .requested r) {k : P2POperatorPubKey} (hk : k ∈ r.pegOutGraphInputs) :
    k ∈ cfg.operatorTable.p2pKey := by
  have hinv := Transition.Reachable.invariant (I := fun sm => sm.cfg = cfg ∧
    ∀ r, sm.state.state = .requested r → ∀ k ∈ r.pegOutGraphInputs, k ∈ cfg.operatorTable.p2pKey)
    h ⟨rfl, ?_⟩ ?_
  · exact hinv.2 r hr k hk
  · intro r hr
    cases hr
    simp
  · rintro sm ev sm' ds ⟨rfl, hsm⟩ htable hstep
    refine ⟨cfg_of_step hstep, ?_⟩
    refine requested_invariant (Q := fun r _ => ∀ k ∈ r.pegOutGraphInputs,
      k ∈ sm.cfg.operatorTable.p2pKey) hstep hsm fun r o _ hr ho => ?_
    refine (Requested.process_mem_inputs ho).mono fun p hp k hk => ?_
    rcases hp k hk with hold | hsender
    · exact hr k hold
    · exact htable k hsender

end Operated

end ContractSM

namespace ContractManagerCtx

variable {ctx ctx' : ContractManagerCtx}

/-- The contract was created with the configuration of the manager, and has moved by events of the
chain and by messages of operators. -/
def HasOrigin (env : Env) (ctx : ContractManagerCtx) (sm : ContractSM) : Prop :=
  ∃ idx depositTx height deadline,
    ContractSM.Operated env (ctx.contractCfg idx depositTx) height deadline sm

theorem HasOrigin.of_cfg (h : ctx.HasOrigin env sm) (hcfg : ctx'.cfg = ctx.cfg) :
    ctx'.HasOrigin env sm := by
  simp only [HasOrigin, contractCfg, hcfg] at h ⊢
  exact h

theorem HasOrigin.operatorTable_eq (h : ctx.HasOrigin env sm) :
    sm.cfg.operatorTable = ctx.cfg.operatorTable := by
  obtain ⟨idx, depositTx, height, deadline, h⟩ := h
  rw [h.cfg_eq]
  rfl

theorem IsNew.hasOrigin {height : BitcoinBlockHeight} {idx : ℕ} (h : IsNew env ctx height idx sm) :
    ctx.HasOrigin env sm := by
  obtain ⟨depositTx, rfl, -⟩ := h
  exact ⟨idx, depositTx, height, _, .refl⟩

theorem HasOrigin.of_moves {G : ContractEvent → Prop} (hmoves : Moves env G ctx ctx')
    (hG : ∀ ev, G ev → ∀ k, ev.sender = some k → k ∈ ctx.cfg.operatorTable.p2pKey)
    (h : ∀ (k : Txid) sm, ctx.activeContracts[k]? = some sm → ctx.HasOrigin env sm) :
    ∀ (k : Txid) sm, ctx'.activeContracts[k]? = some sm → ctx'.HasOrigin env sm := by
  intro k sm' hsm'
  obtain ⟨sm, hsm, hreach⟩ := hmoves.exists_of_get hsm'
  obtain ⟨idx, depositTx, height, deadline, horigin⟩ := h k sm hsm
  refine HasOrigin.of_cfg ⟨idx, depositTx, height, deadline, ?_⟩ hmoves.cfg
  refine Transition.Reachable.invariant (I := ContractSM.Operated env _ height deadline) hreach
    horigin fun sm ev sm' ds hsm hev hstep => hsm.snoc ?_ hstep
  intro key hsender
  rw [hsm.cfg_eq]
  exact hG ev hev key hsender

theorem HasOrigin.serve {i : Input} {es : List Emission}
    (h : ∀ (k : Txid) sm, ctx.activeContracts[k]? = some sm → ctx.HasOrigin env sm)
    (hs : ctx.serve env i = some (ctx', es)) :
    ∀ (k : Txid) sm, ctx'.activeContracts[k]? = some sm → ctx'.HasOrigin env sm := by
  cases i with
  | request req => rwa [serve_request hs]
  | block b =>
    have hchain (ev : ContractEvent) (hev : ev.IsChain) (k : P2POperatorPubKey)
        (hk : ev.sender = some k) : k ∈ ctx.cfg.operatorTable.p2pKey := by
      rw [hev.sender] at hk
      cases hk
    rcases processBlock_cases hs with hevolves | ⟨ctx₁, sms, hevolves, hnew, rfl⟩
    · exact .of_moves hevolves.toMoves hchain h
    · intro k sm hsm
      have hcfg : (ctx₁.addContracts env sms).cfg = ctx₁.cfg := addContracts_cfg sms
      rcases get_addContracts hsm with ⟨hmem, -⟩ | hold
      · obtain ⟨i, -, hisNew⟩ := hnew.exists_of_mem hmem
        exact hisNew.hasOrigin.of_cfg (hcfg.trans hevolves.cfg)
      · exact (HasOrigin.of_moves hevolves.toMoves hchain h k sm hold).of_cfg hcfg
  | message key msg =>
    cases hkey : ctx.cfg.operatorTable.p2pKeyToIdx key with
    | none =>
      rw [ContractManagerCtx.serve, processP2pMessage, hkey] at hs
      cases hs
    | some idx =>
      refine .of_moves ((processP2pMessage_movesBy env ctx (fun _ _ hev => hev) msg).of_next hs)
        (fun ev hev k hk => ?_) h
      obtain rfl := Option.some.inj (hev.symm.trans hk)
      exact OperatorTable.mem_p2pKey_iff_exists_idx.mpr ⟨idx, hkey⟩

/-- **Every contract has an origin**, in every run of the manager. -/
theorem hasOrigin_of_reachable {G : ContractManagerCtx → Input → Prop} {cfg : ExecutionConfig}
    (hreach : Transition.Reachable (serve env) G (.new cfg) ctx) {k : Txid}
    (hsm : ctx.activeContracts[k]? = some sm) : ctx.HasOrigin env sm := by
  refine hreach.invariant (I := fun ctx => ∀ (k : Txid) sm, ctx.activeContracts[k]? = some sm →
    ctx.HasOrigin env sm) ?_ (fun _ _ _ _ h _ hs => HasOrigin.serve h hs) k sm hsm
  intro k sm hsm
  simp [ContractManagerCtx.new] at hsm

end ContractManagerCtx

end StrataBridge
