import StrataBridge.DutyTracker.BlockView
import StrataBridge.DutyTracker.Rejection
import StrataBridge.Instance.LinearBridge

/-!
# Processing a block again

After a crash some contracts may be on disk at the height of a block and others one height below,
and the block is processed again. The transactions of the block pass over contracts that are at
its height, but the notification of the new height does not: a contract that is told its own
height again returns an error, and the manager stops.

## Main definitions

* `ContractManagerCtx.Recovers`: a block is processed as if it were new
* `ContractManagerCtx.AcceptsBlock`: the contracts accept a block

## Main results

* `ContractManagerCtx.recovers_iff`: when a block is processed as if it were new
* `ContractManagerCtx.replayed_block_rejected`: a block that has created a contract is not
-/

namespace StrataBridge

open Rust Transition Linear Outcome

variable {height : BitcoinBlockHeight} {es : List Emission}

/-! ### Contracts -/

namespace ContractSM

variable {env : Env} {sm sm' : ContractSM}

/-- A block is accepted by a contract that is one height below it and not short of
signatures. -/
theorem isOk_block_iff :
    (sm.processContractEvent env (.block height)).IsOk ↔
      sm.state.blockHeight + 1 = height ∧ ¬sm.RejectsLate env (.block height) := by
  by_cases hlate : sm.RejectsLate env (.block height)
  · obtain ⟨sm', e, herr, -⟩ := changed_of_rejectsLate hlate
    simp [herr, hlate]
  · refine sm.of_reaction env (P := fun o => o.IsOk ↔ _) fun o ho => ?_
    cases ho with
    | rejects hev => exact absurd rfl (hev height)
    | passes hev | requested _ hev => cases hev
    | rejectsBlock hheight => simp [hheight]
    | takesLate _ h => exact absurd h hlate
    | takes hheight | aborts hheight | claimMatures hheight | challengeMatures hheight
    | assertionMatures hheight => exact iff_of_true trivial ⟨hheight, hlate⟩

theorem blockHeight_of_block {ds : List OperatorDuty}
    (h : sm.processContractEvent env (.block height) = .ok sm' ds) :
    sm'.state.blockHeight = height := by
  have ho := sm.reaction env (.block height)
  generalize sm.processContractEvent env (.block height) = o at h ho
  cases ho with
  | rejects hev => exact absurd rfl (hev height)
  | passes hev | requested _ hev => cases hev
  | _ => cases h <;> rfl

end ContractSM

/-! ### Recovery -/

namespace ContractManagerCtx

def FirstContract (ctx : ContractManagerCtx) (e : Emission) : Prop :=
  ∀ requestTxid, e.origin = .depositRequest requestTxid → ¬ctx.HasRequest requestTxid

/-- A block is processed as if it were new: all contracts end at its height, those that were
there already are unchanged, and no deposit request gets a second contract. -/
def Recovers (env : Env) (ctx : ContractManagerCtx) (b : Block) : Prop :=
  (ctx.processBlock env b).Succeeds fun ctx' es =>
    (∀ (k : Txid) sm, ctx'.activeContracts[k]? = some sm → sm.state.blockHeight = b.height) ∧
    (∀ (k : Txid) sm, ctx.activeContracts[k]? = some sm → sm.state.blockHeight = b.height →
      ctx'.activeContracts[k]? = some sm) ∧
    ∀ e ∈ es, ctx.FirstContract e

/-- A block is accepted: every contract is one height below it, the transactions are accepted, each
by the contracts as those before it leave them, and at the end no contract is short of signatures at
the new height. -/
structure AcceptsBlock (env : Env) (ctx : ContractManagerCtx) (b : Block) : Prop where
  below : ∀ k sm, ctx.contracts k = some sm → sm.state.blockHeight + 1 = b.height
  txs : Outcome.Along (ctx.AcceptsTx env) (ctx.afterTx env b.height) ⟨ctx.contracts, []⟩ b.txdata
  signed : ∀ k sm, (ctx.afterTxs env b).contracts k = some sm →
    ¬sm.RejectsLate env (.block b.height)

variable {env : Env} {ctx ctx' : ContractManagerCtx}

/-! ### The new height -/

theorem notifyContracts_decided (ctx : ContractManagerCtx) :
    (ctx.notifyContracts env height).Decided
      (∀ k sm, ctx.contracts k = some sm →
        sm.state.blockHeight + 1 = height ∧ ¬sm.RejectsLate env (.block height))
      fun ctx' es => es.filterMap Emission.request = [] ∧
        ∀ k sm', ctx'.contracts k = some sm' → sm'.state.blockHeight = height := by
  let next (sm : ContractSM) : ContractSM :=
    (sm.step env (.block height)).elim (sm.setHeight height) Prod.fst
  have hblock (sm : ContractSM) : (sm.processContractEvent env (.block height)).Decided
      (sm.state.blockHeight + 1 = height ∧ ¬sm.RejectsLate env (.block height))
      fun sm' _ => sm' = next sm :=
    ⟨ContractSM.isOk_block_iff, fun sm' ds hr => by simp [next, ContractSM.step, hr]⟩
  have hloop := Outcome.Decided.forEach [] (s := ctx) (l := ctx.activeContracts.toList)
    (f := fun ctx e => ctx.deliver env e.1 e.2 (.block height))
    (I := fun _ es => es.filterMap Emission.request = []) (v := fun ctx' _ => ctx'.contracts)
    (A := fun _ e => e.2.state.blockHeight + 1 = height ∧ ¬e.2.RejectsLate env (.block height))
    (g := moveContract (fun _ => true) next) rfl fun ctx' es hes e _ => ?_
  swap
  · refine (deliver_decided (.block height) (hblock e.2)).mono ?_
    rintro _ es' ⟨hes', _, _, rfl, rfl, -⟩
    exact ⟨by simp [hes, hes'], contracts_putContract _ _ _⟩
  rw [along_const, foldl_moveContract_toList] at hloop
  have haccepts : (∀ e ∈ ctx.activeContracts.toList,
      e.2.state.blockHeight + 1 = height ∧ ¬e.2.RejectsLate env (.block height)) ↔
      ∀ k sm, ctx.contracts k = some sm →
        sm.state.blockHeight + 1 = height ∧ ¬sm.RejectsLate env (.block height) := by
    simp [contracts]
  rw [haccepts] at hloop
  refine ⟨hloop.1, fun ctx' es hok => ?_⟩
  obtain ⟨hes, hview⟩ := hloop.2 ctx' es hok
  refine ⟨hes, fun k sm' hk => ?_⟩
  rw [hview] at hk
  obtain ⟨sm, hsm, rfl⟩ := Option.map_eq_some_iff.mp hk
  have hlate := hloop.1.mp (succeeds_iff.mpr ⟨ctx', es, hok, trivial⟩) k sm hsm
  obtain ⟨sm', ds, hr, -⟩ := succeeds_iff.mp (ContractSM.isOk_block_iff.mpr hlate)
  rw [if_pos rfl, ← (hblock sm).2 sm' ds hr]
  exact ContractSM.blockHeight_of_block hr

private theorem below_of_processBlock {b : Block} (h : (ctx.processBlock env b).IsOk) (k : Txid)
    (sm : ContractSM) (hk : ctx.contracts k = some sm) : sm.state.blockHeight + 1 = b.height := by
  obtain ⟨ctx', es, hok, -⟩ := succeeds_iff.mp h
  obtain ⟨p, duties, ctx₁, blockDuties, hr, hn, -⟩ := processBlock_eq_ok hok
  have hnotify : (p.ctx.notifyContracts env b.height).IsOk := by simp [hn]
  have hprogress := processTxs_progress env ctx b.height b.txdata
  rw [hr] at hprogress
  obtain ⟨sm', hsm', hreach⟩ := hprogress.evolves.exists_get_of hk
  rw [← hreach.blockHeight]
  exact ((notifyContracts_decided p.ctx).1.mp hnotify k sm' hsm').1

/-! ### Blocks -/

/-- **Which blocks are accepted**, and that their duties answer the requests they add. -/
theorem processBlock_decided (env : Env) (ctx : ContractManagerCtx) (b : Block) :
    (ctx.processBlock env b).Decided (ctx.AcceptsBlock env b) fun ctx' es =>
      es.filterMap Emission.request = (ctx.newRequests env b).map DepositTx.requestTxid ∧
      ∃ ctx₁, EvolvesByChain env ctx ctx₁ ∧
        (∀ k sm, ctx₁.contracts k = some sm → sm.state.blockHeight = b.height) ∧
        ∃ sms, NewContracts env ctx b.height sms ∧
          (sms.map fun sm => sm.cfg.depositTx) = ctx.newRequests env b ∧
          ctx' = (ctx₁.addContracts env sms).commitAll := by
  by_cases hbelow : ∀ k sm, ctx.contracts k = some sm → sm.state.blockHeight + 1 = b.height
  swap
  · have hok : ¬(ctx.processBlock env b).IsOk := fun h => hbelow (below_of_processBlock h)
    exact ⟨iff_of_false hok fun h => hbelow h.below, fun ctx' es hr => by simp [hr] at hok⟩
  have htxs := processTxs_decided env (b := b) fun k sm hk => Nat.lt_of_succ_le (hbelow k sm hk).le
  have hprogress := processTxs_progress env ctx b.height b.txdata
  have haccepts : ctx.AcceptsBlock env b ↔ Outcome.Along (ctx.AcceptsTx env)
      (ctx.afterTx env b.height) ⟨ctx.contracts, []⟩ b.txdata ∧
      ∀ k sm, (ctx.afterTxs env b).contracts k = some sm → ¬sm.RejectsLate env (.block b.height) :=
    ⟨fun h => ⟨h.txs, h.signed⟩, fun h => ⟨hbelow, h.1, h.2⟩⟩
  rw [processBlock, haccepts]
  cases hr : forEach (processTx env b.height ctx.depositIdxOffset) ⟨ctx, []⟩ b.txdata with
  | panic msg => simp_all
  | err p e => simp_all
  | ok p duties =>
    rw [hr] at htxs hprogress
    obtain ⟨htxs, hview, hduties⟩ := decided_ok.mp htxs
    have hcontracts : p.ctx.contracts = (ctx.afterTxs env b).contracts :=
      congrArg BlockView.contracts hview
    have hiff : (∀ k sm, p.ctx.contracts k = some sm →
        sm.state.blockHeight + 1 = b.height ∧ ¬sm.RejectsLate env (.block b.height)) ↔
        ∀ k sm, (ctx.afterTxs env b).contracts k = some sm →
          ¬sm.RejectsLate env (.block b.height) := by
      rw [hcontracts]
      refine ⟨fun h k sm hk => (h k sm hk).2, fun h k sm hk => ⟨?_, h k sm hk⟩⟩
      rw [← hcontracts] at hk
      obtain ⟨sm₀, hsm₀, hreach⟩ := hprogress.evolves.exists_of_get hk
      rw [hreach.blockHeight]
      exact hbelow k sm₀ hsm₀
    rw [and_iff_right htxs, ← hiff, ← and_true (∀ k sm, _ → _)]
    refine ((notifyContracts_decided p.ctx).of_leaves
      (notifyContracts_evolves env p.ctx b.height)).bind ?_
    rintro ctx₁ es ⟨hevolves, hes, hheights⟩
    refine decided_ok.mpr ⟨trivial, by simp [hduties, hes], ctx₁,
      (hprogress.evolves.mono fun _ => .inl).trans hevolves, hheights, p.newContracts,
      hprogress.newContracts, congrArg BlockView.requests hview, rfl⟩

/-- **When a block is processed as if it were new.** That is so exactly when no contract has seen
the block, but all have seen the one before, all transactions are accepted, and no deposit request
that is taken for a new one has a contract. -/
theorem recovers_iff (env : Env) (ctx : ContractManagerCtx) (b : Block) :
    ctx.Recovers env b ↔ ctx.AcceptsBlock env b ∧
      ∀ depositTx ∈ ctx.newRequests env b, ¬ctx.HasRequest depositTx.requestTxid := by
  refine (processBlock_decided env ctx b).succeeds_iff ?_
  rintro _ es haccepts ⟨hrequests, ctx₁, -, hheights, sms, hnew, -, rfl⟩
  have hfirst : (∀ e ∈ es, ctx.FirstContract e) ↔
      ∀ requestTxid ∈ es.filterMap Emission.request, ¬ctx.HasRequest requestTxid := by
    simp only [List.mem_filterMap, forall_exists_index, and_imp]
    refine ⟨fun h requestTxid e he hrequest => h e he requestTxid ?_,
      fun h e he requestTxid horigin => h requestTxid e he (by rw [Emission.request, horigin])⟩
    rw [Emission.request] at hrequest
    split at hrequest <;> simp_all
  rw [hfirst, hrequests, List.forall_mem_map, ← and_assoc]
  refine and_iff_right ⟨fun k sm hsm => ?_, fun k sm hsm hat => ?_⟩
  · rcases get_addContracts hsm with ⟨hmem, -⟩ | hold
    · obtain ⟨i, -, depositTx, rfl, -⟩ := hnew.exists_of_mem hmem
      rfl
    · exact hheights k sm hold
  · exact absurd (haccepts.below k sm hsm) (by rw [hat]; exact Nat.succ_ne_self _)

private def onlyContract (p : ContractSM → Bool) : List (Txid × ContractSM) → Bool
  | [(_, sm)] => p sm
  | _ => false

/-- A block that has created the only contract is processed again: the contract is at its height,
and its request is in the block, but the block is rejected. -/
theorem replayed_block_rejected : ∃ ctx k sm,
    Reachable (serve plain) (fun _ _ => True) (manager oneOperator) ctx ∧
    ctx.activeContracts.toList = [(k, sm)] ∧ sm.state.blockHeight = 100 ∧
    sm.cfg.depositRequestTxid = plain.computeTxid (requestTx oneOperator 5) ∧
    ¬ctx.Recovers plain ⟨some 100, [requestTx oneOperator 5]⟩ := by
  obtain ⟨ctx, es, hrun, h⟩ := exists_run_of_exec (serve plain) (fun _ _ => True)
    (manager oneOperator)
    [exchange 0, block 100 [requestTx oneOperator 5]]
    (fun ctx _ =>
      onlyContract (fun sm => sm.state.blockHeight = 100 && sm.cfg.depositRequestTxid =
        plain.computeTxid (requestTx oneOperator 5)) ctx.activeContracts.toList &&
      (ctx.processBlock plain ⟨some 100, [requestTx oneOperator 5]⟩).IsErr)
    (by decide +kernel)
  obtain ⟨h, herr⟩ := Bool.and_eq_true_iff.mp h
  unfold onlyContract at h
  split at h
  next k sm hcontracts =>
    simp only [Bool.and_eq_true, decide_eq_true_eq] at h
    exact ⟨ctx, k, sm, ⟨es, hrun⟩, hcontracts, h.1, h.2, (of_decide_eq_true herr).not_succeeds⟩
  · cases h

end ContractManagerCtx

end StrataBridge
