import StrataBridge.DutyTracker.GraphCache
import StrataBridge.DutyTracker.Requests

/-!
# Restarted contracts

A contract that is read back from the database has no cached graphs, and builds those it needs
again. As long as no operator announces the stake transaction of another, nobody can tell.

## References

* `crates/duty-tracker/src/contract_state_machine.rs`, lines 1344–1350, 1392–1403, 3189–3191
* `crates/duty-tracker/src/contract_manager.rs`, lines 117–124, 1263–1307, 1374–1434
-/

namespace StrataBridge

open Rust Transition ContractSM BTreeMap List

namespace Requested

variable {env : Env} {cfg : ContractCfg} {r : Requested} {pog pog' : PogCache}
  {history : List ContractEvent}

/-! ### The graphs of a cache -/

theorem fst_retrieveGraph (pog : PogCache) (input : PegOutGraphInput) :
    (cfg.retrieveGraph env pog input).1 = cfg.cachedGraph env pog input := by
  rw [ContractCfg.retrieveGraph, ContractCfg.cachedGraph]
  split <;> rfl

namespace FromHistory

variable (h : FromHistory env cfg history r pog)

include h

theorem cleared : FromHistory env cfg history r ∅ := ⟨h.inputs, by simp⟩

section OneOwner

variable (hone : OneOwner history)

include hone

theorem cachedGraph_eq {k : P2POperatorPubKey} {input : PegOutGraphInput}
    (hk : r.pegOutGraphInputs[k]? = some input) :
    cfg.cachedGraph env pog input = cfg.buildGraph env input := by
  rw [ContractCfg.cachedGraph]
  split
  next graph hgraph =>
    obtain ⟨hannounced, hown⟩ := h.inputs k input hk
    obtain ⟨k', input', hk', hannounced', rfl⟩ := h.cached _ graph hgraph
    obtain rfl := hone k k' _ hannounced hannounced'
    obtain rfl := Option.some.inj (hk.symm.trans hk')
    rw [hown]
  next => rfl

theorem retrieveGraphs_eq {l : List (P2POperatorPubKey × PegOutGraphInput)}
    (hl : ∀ e ∈ l, r.pegOutGraphInputs[e.1]? = some e.2) :
    (retrieveGraphs env cfg pog l).1 = l.map fun e => (e.1, cfg.buildGraph env e.2) := by
  induction l generalizing pog with
  | nil => rfl
  | cons e rest ih =>
    have hk := hl e mem_cons_self
    have hrest := ih (h.cacheFrom rfl (cacheFrom_retrieveGraph env cfg pog hk))
      fun e he => hl e (mem_cons_of_mem _ he)
    rw [retrieveGraphs, map_cons, ← hrest, ← h.cachedGraph_eq hone hk, ← fst_retrieveGraph]

theorem allGraphs_eq :
    (r.allGraphs env cfg pog).1 =
      r.pegOutGraphInputs.toList.map fun e => (e.1, cfg.buildGraph env e.2) := by
  rw [allGraphs]
  split
  · rfl
  · exact h.retrieveGraphs_eq hone fun _ he => mem_toList.mp he

variable (h' : FromHistory env cfg history r pog') (r' : Requested)
  (hr' : r'.pegOutGraphInputs = r.pegOutGraphInputs)

include h' hr'

theorem signatureDuties_eq (claims : List Txid) :
    (signatureDuties env cfg r' pog claims).1 = (signatureDuties env cfg r' pog' claims).1 := by
  induction claims generalizing pog pog' with
  | nil => rfl
  | cons claim rest ih =>
    rw [signatureDuties, signatureDuties]
    split
    · rfl
    split
    · rfl
    next input hinput =>
    rw [hr'] at hinput
    dsimp only
    split
    · rfl
    · rw [ih (h.cacheFrom rfl (cacheFrom_retrieveGraph env cfg pog hinput))
        (h'.cacheFrom rfl (cacheFrom_retrieveGraph env cfg pog' hinput)), fst_retrieveGraph,
        fst_retrieveGraph, h.cachedGraph_eq hone hinput, h'.cachedGraph_eq hone hinput]

theorem aggregateAll_eq :
    r'.aggregateAll env cfg pog = r'.aggregateAll env cfg pog' := by
  have hgraphs : (vals r'.pegOutGraphInputs).map (cfg.cachedGraph env pog) =
      (vals r'.pegOutGraphInputs).map (cfg.cachedGraph env pog') := by
    refine map_congr_left fun input hinput => ?_
    obtain ⟨k, hk⟩ := mem_vals.mp (hr' ▸ hinput)
    rw [h.cachedGraph_eq hone hk, h'.cachedGraph_eq hone hk]
  have haux := congrArg (mapM (auxData env r'.aggNonces)) hgraphs
  rw [mapM_map, mapM_map] at haux
  exact congrArg (Except.bind · _) haux

end OneOwner

/-- **An event of the requested phase is answered alike with any two caches** of the operators'
own graphs: the same data, error or panic, and the same duties. -/
theorem process_eq (h' : FromHistory env cfg history r pog') {ev : ContractEvent}
    (hone : OneOwner (history ++ [ev])) :
    (r.process env cfg pog ev).map (·.embed Prod.fst id) =
      (r.process env cfg pog' ev).map (·.embed Prod.fst id) := by
  have hmono := h.mono ev
  have hmono' := h'.mono ev
  cases ev with
  | depositSetup =>
    simp only [Requested.process, processDepositSetup, (h.upsertInput _ _ _ _ _).allGraphs_eq hone,
      (h'.upsertInput _ _ _ _ _).allGraphs_eq hone]
    split <;> rfl
  | graphNonces signer claim nonces =>
    simp only [Requested.process, processGraphNonces]
    split
    · rfl
    next unpacked _ =>
    split
    · rfl
    next session _ =>
    split
    · rfl
    split
    · have heq := hmono.signatureDuties_eq hone hmono'
        (r.insertNonces claim session signer unpacked).sumNonces rfl
        (vals (r.insertNonces claim session signer unpacked).claimTxids)
      generalize signatureDuties env cfg _ pog _ = left at heq ⊢
      generalize signatureDuties env cfg _ pog' _ = right at heq ⊢
      obtain ⟨duties, _⟩ := left
      obtain ⟨_, _⟩ := right
      obtain rfl := heq
      cases duties <;> rfl
    · rfl
  | graphSigs signer claim signatures =>
    simp only [Requested.process, processGraphSignatures, finishGraphSignatures]
    split
    · rfl
    next partials _ =>
    split
    · rfl
    next session _ =>
    split
    · rfl
    split
    · rfl
    split
    · rfl
    next input hinput =>
    rw [hmono.cachedGraph_eq hone hinput, hmono'.cachedGraph_eq hone hinput,
      hmono.aggregateAll_eq hone hmono' (r.insertPartials claim session signer partials) rfl]
    repeat' split
    all_goals rfl
  | rootNonce | rootSig =>
    simp only [Requested.process, processRootNonce, processRootSignature]
    repeat' split
    all_goals rfl
  | _ => rfl

end FromHistory

end Requested

namespace ContractSM

variable {env : Env} {cfg : ContractCfg} {sm sm' : ContractSM} {history : List ContractEvent}
  {height deadline : BitcoinBlockHeight} {ds : List OperatorDuty} {ev : ContractEvent}

/-- `ContractSM::clear_pog_cache` (lines 3189–3191). -/
def clearPogCache (sm : ContractSM) : ContractSM := { sm with pog := ∅ }

/-! ### Past the requested phase -/

/-- Only a contract in the requested phase, or one aborted there, has a cache. -/
def CacheDropped (sm : ContractSM) : Prop :=
  (∃ r, sm.state.state = .requested r) ∨ sm.state.state = .aborted ∨ sm.pog = ∅

theorem CacheDropped.step (h : sm.CacheDropped) (hstep : sm.step env ev = some (sm', ds)) :
    sm'.CacheDropped := by
  rw [ContractSM.step] at hstep
  have ho := sm.reaction env ev
  generalize sm.processContractEvent env ev = o at hstep ho
  cases ho with
  | @requested _ r o hs ho =>
    rw [Outcome.next_embed] at hstep
    obtain ⟨⟨p, ds⟩, -, heq⟩ := Option.map_eq_some_iff.mp hstep
    cases heq
    exact .inl ⟨p.1, rfl⟩
  | depositPanics | confirmationPanics => cases hstep
  | deposits =>
    cases hstep
    exact .inr (.inr rfl)
  | aborts =>
    cases hstep
    exact .inr (.inl rfl)
  | assigns hs | fulfills hs | claims hs | challenges hs | preAsserts hs | collects hs
  | collectsLate hs | collectsLast hs | postAsserts hs | disproves hs | paysOptimistic hs
  | pays hs =>
    cases hstep
    rcases h with ⟨r, hr⟩ | ha | hpog
    · simp [hr] at hs
    · simp [ha] at hs
    · exact .inr (.inr hpog)
  | _ =>
    cases hstep
    exact h

/-- The events that no handler of the requested phase takes are answered without the cache. -/
private theorem idle_clear
    (hs : sm.state.state = .aborted ∨
      ∃ r, sm.state.state = .requested r ∧ r.process env sm.cfg sm.pog ev = none) :
    (sm.clearPogCache.processContractEvent env ev).embed clearPogCache id =
      (sm.processContractEvent env ev).embed clearPogCache id := by
  obtain ⟨cfg, ⟨height, state⟩, pog⟩ := sm
  dsimp only at hs
  cases ev with
  | block | assignment | depositConfirmation =>
    rcases hs with rfl | ⟨r, rfl, -⟩ <;>
      dsimp +instances only [processContractEvent, notifyNewBlock, atNewHeight, setHeight,
        processAssignment, processDepositConfirmation, depositTxid, clearPogCache] <;>
      (repeat' split) <;> rfl
  | pegOutGraphConfirmation | claimFailure | assertionFailure =>
    rcases hs with rfl | ⟨r, rfl, -⟩ <;> rfl
  | _ =>
    rcases hs with rfl | ⟨r, rfl, hnone⟩
    · first
      | rfl
      | dsimp only [processContractEvent, processGraphSignatures]
        split <;> rfl
    · cases hnone

/-! ### Restarts -/

/-- The cached graphs are those of the operators' own announcements, and no two operators have
announced one stake transaction. -/
structure CacheSound (env : Env) (history : List ContractEvent) (sm : ContractSM) : Prop where
  oneOwner : OneOwner history
  dropped : sm.CacheDropped
  fromHistory (r : Requested) (hr : sm.state.state = .requested r) :
    r.FromHistory env sm.cfg history sm.pog

namespace CacheSound

variable (h : CacheSound env history sm)

include h

theorem clear : CacheSound env history sm.clearPogCache :=
  ⟨h.oneOwner, .inr (.inr rfl), fun r hr => (h.fromHistory r hr).cleared⟩

theorem step (hown : OwnStake (history, sm) ev) (hstep : sm.step env ev = some (sm', ds)) :
    CacheSound env (history ++ [ev]) sm' := by
  refine ⟨h.oneOwner.snoc hown, h.dropped.step hstep, ?_⟩
  rw [cfg_of_step hstep]
  exact requested_invariant hstep (fun r hr => (h.fromHistory r hr).mono ev)
    fun r o hr _ ho => (h.fromHistory r hr).process ho

/-- **What a contract answers does not depend on its cache**: state, duties, errors and panics. -/
theorem answer_clear (hown : OwnStake (history, sm) ev) :
    (sm.clearPogCache.processContractEvent env ev).embed clearPogCache id =
      (sm.processContractEvent env ev).embed clearPogCache id := by
  rcases h.dropped with ⟨r, hr⟩ | haborted | hpog
  · have hfrom := h.fromHistory r hr
    have heq := hfrom.cleared.process_eq hfrom (h.oneOwner.snoc hown)
    cases ho : r.process env sm.cfg sm.pog ev with
    | none => exact idle_clear (.inr ⟨r, hr, ho⟩)
    | some o =>
      rw [ho] at heq
      obtain ⟨o', ho', heq⟩ := Option.map_eq_some_iff.mp heq
      have hclear : sm.clearPogCache.processContractEvent env ev = _ :=
        processContractEvent_requested hr ho'
      rw [processContractEvent_requested hr ho, hclear]
      calc
        _ = (o'.embed Prod.fst id).embed (fun r => sm.putRequested (r, ∅)) id := by
          cases o' <;> rfl
        _ = _ := by
          rw [heq]
          cases o <;> rfl
  · exact idle_clear (.inl haborted)
  · obtain ⟨cfg, state, pog⟩ := sm
    obtain rfl : pog = ∅ := hpog
    rfl

theorem requests_clear (key : P2POperatorPubKey) (claim : Txid) :
    sm.clearPogCache.processGraphNoncesRequest env claim = sm.processGraphNoncesRequest env claim ∧
      sm.clearPogCache.processGraphSignaturesRequest env key claim =
        sm.processGraphSignaturesRequest env key claim := by
  simp only [processGraphNoncesRequest, processGraphSignaturesRequest, clearPogCache]
  split
  next r hr =>
    have hfrom := h.fromHistory r hr
    split
    · simp
    split
    · simp
    next hk =>
      simp [hfrom.cachedGraph_eq h.oneOwner hk, hfrom.cleared.cachedGraph_eq h.oneOwner hk]
  · simp

end CacheSound

/-- A contract that meets an event, or is restarted: what is read back has the configuration and
the state that were stored, and no graphs. -/
def stepRestarting (env : Env) (s : List ContractEvent × ContractSM) :
    Option ContractEvent → Option ((List ContractEvent × ContractSM) × List OperatorDuty)
  | some ev => logged (step env) s ev
  | none => some ((s.1, restore s.2.cfg s.2.state), [])

/-- A restarted contract differs from the one that was never restarted in its cache only. -/
theorem uninterrupted_of_run {s : List ContractEvent × ContractSM}
    (hrun : Run (stepRestarting env) (fun s i => ∀ ev ∈ i, OwnStake s ev)
      ([], .new cfg height deadline) ds s) :
    CacheSound env s.1 s.2 ∧ ∃ kept,
      Run (logged (step env)) OwnStake ([], .new cfg height deadline) ds (s.1, kept) ∧
      CacheSound env s.1 kept ∧ kept.clearPogCache = s.2.clearPogCache := by
  induction hrun with
  | nil =>
    have hnew : CacheSound env [] (.new cfg height deadline) := by
      refine ⟨by simp [OneOwner, announcedStakes], .inr (.inr rfl), ?_⟩
      rintro r ⟨⟩
      exact ⟨by simp, by simp [new]⟩
    exact ⟨hnew, _, .nil, hnew, rfl⟩
  | @snoc ds s i _ ds' _ hown hlogged ih =>
    obtain ⟨hsound, kept, hkept, hsound', heq⟩ := ih
    cases i with
    | none =>
      cases hlogged
      rw [append_nil]
      exact ⟨hsound.clear, kept, hkept, hsound', heq⟩
    | some ev =>
      have hown := hown ev rfl
      obtain ⟨⟨sm', _⟩, hstep, heq'⟩ := Option.map_eq_some_iff.mp hlogged
      cases heq'
      have hnext := congrArg Outcome.next (hsound'.answer_clear hown)
      rw [heq, hsound.answer_clear hown, Outcome.next_embed, Outcome.next_embed,
        ← ContractSM.step, ← ContractSM.step, hstep] at hnext
      obtain ⟨⟨kept', _⟩, hkept', heq'⟩ := Option.map_eq_some_iff.mp hnext.symm
      obtain ⟨heq', rfl⟩ := Prod.mk.inj heq'
      have hlogged' : logged (ContractSM.step env) (s.1, kept) ev = _ :=
        congrArg (Option.map _) hkept'
      exact ⟨hsound.step hown hstep, kept', hkept.snoc hown hlogged', hsound'.step hown hkept',
        heq'⟩

/-- **Restarts are invisible.** Take a contract that is restarted at any moments of a run, any
number of times, where no operator announces the stake transaction of another. The contract that
meets the same events and is never restarted hands out the same duties and comes to the same state.
From there both answer every event, also with errors and panics, and every request of a peer about
a graph alike. -/
theorem restarts_invisible
    (hrun : Run (stepRestarting env) (fun s i => ∀ ev ∈ i, OwnStake s ev)
      ([], .new cfg height deadline) ds (history, sm)) :
    ∃ kept, Run (logged (step env)) OwnStake ([], .new cfg height deadline) ds (history, kept) ∧
      kept.cfg = sm.cfg ∧ kept.state = sm.state ∧
      (∀ ev, OwnStake (history, sm) ev →
        (kept.processContractEvent env ev).embed clearPogCache id =
          (sm.processContractEvent env ev).embed clearPogCache id) ∧
      ∀ key claim,
        kept.processGraphNoncesRequest env claim = sm.processGraphNoncesRequest env claim ∧
        kept.processGraphSignaturesRequest env key claim =
          sm.processGraphSignaturesRequest env key claim := by
  obtain ⟨hsound, kept, hkept, hsound', heq⟩ := uninterrupted_of_run hrun
  obtain ⟨hcfg, hstate, -⟩ := ContractSM.mk.inj heq
  refine ⟨kept, hkept, hcfg, hstate, fun ev hown => ?_, fun key claim => ?_⟩
  · rw [← hsound'.answer_clear hown, heq, hsound.answer_clear hown]
  · obtain ⟨hnonces, hsigs⟩ := hsound'.requests_clear key claim
    rw [← hnonces, ← hsigs, heq]
    exact hsound.requests_clear key claim

section Instance

open Linear

/-- Two operators announce themselves, and after a restart the first of them again. -/
theorem announced_restarted : ∃ s ds kept,
    Run (stepRestarting plain) (fun s i => ∀ ev ∈ i, OwnStake s ev)
      ([], contract twoOperators) ds s ∧ s.2.pog.size = 2 ∧
    Run (logged (step plain)) OwnStake ([], contract twoOperators) ds (s.1, kept) := by
  obtain ⟨s, ds, hrun, h⟩ := exists_run_of_exec (stepRestarting plain)
    (fun s i => ∀ ev ∈ i, OwnStake s ev) ([], contract twoOperators)
    [some (setup 0 2), some (setup 1 3), none, some (setup 0 4)]
    (fun s _ => s.2.pog.size = 2) (by decide +kernel)
  obtain ⟨kept, hkept, -⟩ := restarts_invisible hrun
  exact ⟨s, ds, kept, hrun, of_decide_eq_true h, hkept⟩

end Instance

end ContractSM

end StrataBridge
