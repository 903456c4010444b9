import StrataBridge.DutyTracker.Setup
import StrataBridge.DutyTracker.PhaseOrder

/-!
# The cache of peg-out graphs

A contract keeps the graphs it has built, and looks them up by the stake transaction alone; what is
built depends on the hash of the stake, the one-time keys and the key of the operator as well. An
operator may announce itself again with another stake transaction, but keeps the rest of its first
announcement. So whatever an operator announces, in any order, its cached graphs are the graphs of
its own data, as long as no other operator announces the same stake transaction.

## References

* `crates/duty-tracker/src/contract_state_machine.rs`, lines 1392–1403, 1661–1757, 1985–1995
-/

namespace StrataBridge

open Rust Transition BTreeMap List

def ContractEvent.announcedStake : ContractEvent → Option (P2POperatorPubKey × Txid)
  | .depositSetup signer _ _ stakeTxid _ => some (signer, stakeTxid)
  | _ => none

def announcedStakes (history : List ContractEvent) : List (P2POperatorPubKey × Txid) :=
  history.filterMap ContractEvent.announcedStake

def PegOutGraphInput.withStake (input : PegOutGraphInput) (stakeTxid : Txid) : PegOutGraphInput :=
  { input with
    stakeOutpoint := ⟨stakeTxid, stakeVout⟩
    withdrawalFulfillmentOutpoint := ⟨stakeTxid, withdrawalFulfillmentVout⟩ }

namespace Requested

variable {env : Env} {cfg : ContractCfg} {r : Requested} {pog pog' : PogCache}

/-! ### What enters the cache -/

def CacheFrom (env : Env) (cfg : ContractCfg)
    (inputs : BTreeMap P2POperatorPubKey PegOutGraphInput) (pog pog' : PogCache) : Prop :=
  ∀ (stake : Txid) (graph : PegOutGraph), pog'[stake]? = some graph →
    pog[stake]? = some graph ∨ ∃ (k : P2POperatorPubKey) (input : PegOutGraphInput),
      inputs[k]? = some input ∧ input.stakeOutpoint.txid = stake ∧ graph = cfg.buildGraph env input

section CacheFrom

variable {inputs : BTreeMap P2POperatorPubKey PegOutGraphInput}

theorem CacheFrom.refl (pog : PogCache) : CacheFrom env cfg inputs pog pog :=
  fun _ _ h => .inl h

theorem CacheFrom.trans {pog'' : PogCache} (h : CacheFrom env cfg inputs pog pog')
    (h' : CacheFrom env cfg inputs pog' pog'') : CacheFrom env cfg inputs pog pog'' := by
  intro stake graph hgraph
  rcases h' stake graph hgraph with hold | hnew
  · exact h stake graph hold
  · exact .inr hnew

variable (env cfg pog) in
theorem cacheFrom_retrieveGraph {k : P2POperatorPubKey} {input : PegOutGraphInput}
    (hk : inputs[k]? = some input) :
    CacheFrom env cfg inputs pog (cfg.retrieveGraph env pog input).2 := by
  rw [ContractCfg.retrieveGraph]
  split
  · exact .refl pog
  · intro stake graph hgraph
    rw [get_insert] at hgraph
    split_ifs at hgraph with heq
    · exact .inr ⟨k, input, hk, heq, (Option.some.inj hgraph).symm⟩
    · exact .inl hgraph

theorem cacheFrom_retrieveGraphs {l : List (P2POperatorPubKey × PegOutGraphInput)}
    (hl : ∀ e ∈ l, inputs[e.1]? = some e.2) :
    CacheFrom env cfg inputs pog (retrieveGraphs env cfg pog l).2 := by
  induction l generalizing pog with
  | nil => exact .refl pog
  | cons e rest ih =>
    have hhead := cacheFrom_retrieveGraph env cfg pog (hl e mem_cons_self)
    exact hhead.trans (ih fun e he => hl e (mem_cons_of_mem _ he))

end CacheFrom

theorem cacheFrom_allGraphs :
    CacheFrom env cfg r.pegOutGraphInputs pog (r.allGraphs env cfg pog).2 := by
  rw [allGraphs]
  split
  · exact .refl pog
  · exact cacheFrom_retrieveGraphs fun _ he => mem_toList.mp he

theorem cacheFrom_signatureDuties (claims : List Txid) :
    CacheFrom env cfg r.pegOutGraphInputs pog (signatureDuties env cfg r pog claims).2 := by
  induction claims generalizing pog with
  | nil => exact .refl pog
  | cons claim rest ih =>
    rw [signatureDuties]
    split
    · exact .refl pog
    split
    · exact .refl pog
    next input hinput =>
    have hhead := cacheFrom_retrieveGraph env cfg pog hinput
    dsimp only
    split
    · exact hhead
    · exact hhead.trans ih

/-! ### Where the cached graphs come from -/

/-- The inputs and the cached graphs of a contract come from what was announced: an operator has
announced the stake transaction of its input, and a cached graph is that of an operator who has
announced the stake transaction, with the rest of its data as it is. -/
structure FromHistory (env : Env) (cfg : ContractCfg) (history : List ContractEvent)
    (r : Requested) (pog : PogCache) : Prop where
  inputs (k : P2POperatorPubKey) (input : PegOutGraphInput)
    (h : r.pegOutGraphInputs[k]? = some input) :
    (k, input.stakeOutpoint.txid) ∈ announcedStakes history ∧
      input.withStake input.stakeOutpoint.txid = input
  cached (stake : Txid) (graph : PegOutGraph) (h : pog[stake]? = some graph) :
    ∃ k input, r.pegOutGraphInputs[k]? = some input ∧ (k, stake) ∈ announcedStakes history ∧
      graph = cfg.buildGraph env (input.withStake stake)

section FromHistory

variable {history : List ContractEvent}

theorem FromHistory.cacheFrom {r' : Requested} (h : FromHistory env cfg history r pog)
    (hinputs : r'.pegOutGraphInputs = r.pegOutGraphInputs)
    (hcache : CacheFrom env cfg r.pegOutGraphInputs pog pog') :
    FromHistory env cfg history r' pog' := by
  refine ⟨fun k input hk => h.inputs k input (hinputs ▸ hk), fun stake graph hgraph => ?_⟩
  rw [hinputs]
  rcases hcache stake graph hgraph with hold | ⟨k, input, hk, rfl, rfl⟩
  · exact h.cached stake graph hold
  · obtain ⟨hannounced, hown⟩ := h.inputs k input hk
    exact ⟨k, input, hk, hannounced, by rw [hown]⟩

theorem FromHistory.mono (h : FromHistory env cfg history r pog) (ev : ContractEvent) :
    FromHistory env cfg (history ++ [ev]) r pog := by
  have hsub : announcedStakes history ⊆ announcedStakes (history ++ [ev]) := by
    rw [announcedStakes, announcedStakes, filterMap_append]
    exact subset_append_left _ _
  refine ⟨fun k input hk => (h.inputs k input hk).imp_left (hsub ·), fun stake graph hgraph => ?_⟩
  obtain ⟨k, input, hk, hannounced, hbuilt⟩ := h.cached stake graph hgraph
  exact ⟨k, input, hk, hsub hannounced, hbuilt⟩

variable (signer : P2POperatorPubKey) (operatorPubkey : XOnlyPublicKey) (stakeHash : Sha256Hash)
  (stakeTxid : Txid) (wotsKeys : Wots.PublicKeys)

variable (r) in
theorem get_upsertInput_self :
    ∃ input, (r.upsertInput signer operatorPubkey stakeHash stakeTxid
        wotsKeys).pegOutGraphInputs[signer]? = some (input.withStake stakeTxid) ∧
      ∀ old, r.pegOutGraphInputs[signer]? = some old → input = old := by
  cases hold : r.pegOutGraphInputs[signer]? with
  | some old =>
    refine ⟨old, ?_, fun old' h => Option.some.inj h⟩
    rw [upsertInput, get_alter, if_pos rfl, hold]
    rfl
  | none =>
    refine ⟨⟨⟨stakeTxid, stakeVout⟩, ⟨stakeTxid, withdrawalFulfillmentVout⟩, stakeHash, wotsKeys,
      operatorPubkey⟩, ?_, fun old h => by cases h⟩
    rw [upsertInput, get_alter, if_pos rfl, hold]
    rfl

variable {signer operatorPubkey stakeHash stakeTxid wotsKeys} in
theorem get_upsertInput_of_ne {k : P2POperatorPubKey} (hk : signer ≠ k) :
    (r.upsertInput signer operatorPubkey stakeHash stakeTxid wotsKeys).pegOutGraphInputs[k]? =
      r.pegOutGraphInputs[k]? := by
  rw [upsertInput, get_alter, if_neg hk]

/-- **An announcement keeps the cache the operators' own**: the announcing operator moves to another
stake transaction, and its cached graphs are still those of its data. -/
theorem FromHistory.upsertInput (h : FromHistory env cfg history r pog) :
    FromHistory env cfg
      (history ++ [.depositSetup signer operatorPubkey stakeHash stakeTxid wotsKeys])
      (r.upsertInput signer operatorPubkey stakeHash stakeTxid wotsKeys) pog := by
  have hmono := h.mono (.depositSetup signer operatorPubkey stakeHash stakeTxid wotsKeys)
  obtain ⟨new, hnew, hsame⟩ :=
    r.get_upsertInput_self signer operatorPubkey stakeHash stakeTxid wotsKeys
  refine ⟨fun k input hk => ?_, fun stake graph hgraph => ?_⟩
  · by_cases hsigner : signer = k
    · subst hsigner
      obtain rfl := Option.some.inj (hnew.symm.trans hk)
      exact ⟨by simp [announcedStakes, ContractEvent.announcedStake, PegOutGraphInput.withStake],
        rfl⟩
    · rw [get_upsertInput_of_ne hsigner] at hk
      exact hmono.inputs k input hk
  · obtain ⟨k, input, hk, hannounced, rfl⟩ := hmono.cached stake graph hgraph
    by_cases hsigner : signer = k
    · subst hsigner
      obtain rfl := hsame input hk
      exact ⟨signer, new.withStake stakeTxid, hnew, hannounced, rfl⟩
    · exact ⟨k, input, by rwa [get_upsertInput_of_ne hsigner], hannounced, rfl⟩

/-- **Every event of the requested phase keeps the cache the operators' own.** -/
theorem FromHistory.process (h : FromHistory env cfg history r pog) {ev : ContractEvent}
    {o : Requested.Reply}
    (ho : r.process env cfg pog ev = some o) :
    o.Leaves fun p => FromHistory env cfg (history ++ [ev]) p.1 p.2 := by
  have hstay : FromHistory env cfg (history ++ [ev]) r pog := h.mono ev
  cases reaction ho with
  | announces hr' =>
    subst hr'
    exact h.upsertInput _ _ _ _ _
  | generates hr' =>
    subst hr'
    exact (h.upsertInput _ _ _ _ _).cacheFrom (pegOutGraphInputs_foldl_insertGraph _)
      cacheFrom_allGraphs
  | lastNonces _ _ hr' _ hduties | noncesFail _ _ hr' _ hduties =>
    have hcache := congrArg Prod.snd hduties ▸ cacheFrom_signatureDuties _
    subst hr'
    exact hstay.cacheFrom rfl hcache
  | lastPartials _ _ _ hr' =>
    subst hr'
    exact hstay.cacheFrom rfl (.refl pog)
  | partialsPanic | rootPanics => trivial
  | _ => exact hstay.cacheFrom rfl (.refl pog)

end FromHistory

end Requested

namespace ContractSM

variable {env : Env} {sm : ContractSM} {cfg : ContractCfg} {height deadline : BitcoinBlockHeight}

/-! ### The cache over a run -/

/-- What is cached under the stake transaction of an operator's input is the graph that is built
from that input. -/
def CacheCoherent (env : Env) (sm : ContractSM) : Prop :=
  ∀ r, sm.state.state = .requested r → ∀ (stake : Txid) (graph : PegOutGraph),
    sm.pog[stake]? = some graph → ∀ (k : P2POperatorPubKey) (input : PegOutGraphInput),
      r.pegOutGraphInputs[k]? = some input → input.stakeOutpoint.txid = stake →
        graph = sm.cfg.buildGraph env input

def OwnStake (s : List ContractEvent × ContractSM) (ev : ContractEvent) : Prop :=
  ∀ k stake, ev.announcedStake = some (k, stake) → ∀ k', (k', stake) ∈ announcedStakes s.1 → k' = k

/-- Every stake transaction was announced by one operator. -/
def OneOwner (history : List ContractEvent) : Prop :=
  ∀ k k' stake, (k, stake) ∈ announcedStakes history → (k', stake) ∈ announcedStakes history →
    k = k'

variable {history : List ContractEvent} {os : List OperatorDuty}

theorem OneOwner.snoc {ev : ContractEvent} (hunique : OneOwner history)
    (hown : OwnStake (history, sm) ev) : OneOwner (history ++ [ev]) := by
  intro k k' stake hk hk'
  simp only [announcedStakes, filterMap_append, mem_append, filterMap_cons, filterMap_nil] at hk hk'
  cases hev : ev.announcedStake with
  | none =>
    simp only [hev, not_mem_nil, or_false] at hk hk'
    exact hunique k k' stake hk hk'
  | some announced =>
    simp only [hev, mem_singleton] at hk hk'
    rcases hk with hk | rfl <;> rcases hk' with hk' | heq
    · exact hunique k k' stake hk hk'
    · exact hown k' stake (by rw [hev, heq]) k hk
    · exact (hown k stake hev k' hk').symm
    · exact (congrArg Prod.fst heq).symm

theorem owner_unique {s s₀ : List ContractEvent × ContractSM} (h₀ : s₀.1 = [])
    (hrun : Run (logged (step env)) OwnStake s₀ os s) : OneOwner s.1 := by
  refine hrun.invariant (I := fun _ s => OneOwner s.1) (by simp [h₀, OneOwner, announcedStakes]) ?_
  rintro os ⟨history, sm⟩ ev _ os' hunique hown hlogged
  obtain ⟨r, -, heq⟩ := Option.map_eq_some_iff.mp hlogged
  cases heq
  exact hunique.snoc hown

theorem fromHistory_of_run {G : List ContractEvent × ContractSM → ContractEvent → Prop}
    (hrun : Run (logged (step env)) G ([], .new cfg height deadline) os (history, sm)) :
    sm.cfg = cfg ∧ ∀ r, sm.state.state = .requested r → r.FromHistory env cfg history sm.pog := by
  refine hrun.invariant (I := fun _ s => s.2.cfg = cfg ∧ ∀ r, s.2.state.state = .requested r →
    r.FromHistory env cfg s.1 s.2.pog) ⟨rfl, ?_⟩ ?_
  · rintro r ⟨⟩
    exact ⟨by simp, by simp [new]⟩
  · rintro os ⟨history, sm⟩ ev _ os' ⟨rfl, hall⟩ - hlogged
    obtain ⟨⟨sm', duties⟩, hstep, heq⟩ := Option.map_eq_some_iff.mp hlogged
    cases heq
    refine ⟨cfg_of_step hstep, fun r hs => ?_⟩
    exact requested_invariant (Q := fun r pog => r.FromHistory env sm.cfg (history ++ [ev]) pog)
      hstep (fun r hr => (hall r hr).mono ev) (fun r o hr _ ho => (hall r hr).process ho) r hs

/-- **The cached graphs are those that would be built.** Along every run of a contract, whatever is
announced, in any order and however often, and whatever other events come between: as long as no
operator announces a stake transaction that another operator has announced before, what is cached
under the stake transaction of an operator's input is the graph that is built from that input. -/
theorem graph_cache_coherent
    (hrun : Run (logged (step env)) OwnStake ([], .new cfg height deadline) os (history, sm)) :
    sm.CacheCoherent env := by
  rintro r hs _ graph hgraph k input hk rfl
  obtain ⟨hcfg, hall⟩ := fromHistory_of_run hrun
  obtain ⟨hannounced, hown⟩ := (hall r hs).inputs k input hk
  obtain ⟨k', input', hk', hannounced', rfl⟩ := (hall r hs).cached _ graph hgraph
  obtain rfl := owner_unique rfl hrun k k' _ hannounced hannounced'
  obtain rfl := Option.some.inj (hk.symm.trans hk')
  rw [hown, hcfg]

section Instance

open Linear

instance (s : List ContractEvent × ContractSM) (ev : ContractEvent) : Decidable (OwnStake s ev) :=
  decidable_of_iff
    (ev.announcedStake.all fun a => (announcedStakes s.1).all fun a' => a'.2 = a.2 → a'.1 = a.1)
    (by
      simp only [OwnStake, Option.all_eq_true, all_eq_true, decide_eq_true_eq]
      constructor
      · rintro h k stake hev k' hk'
        exact h (k, stake) hev (k', stake) hk' rfl
      · rintro h ⟨k, stake⟩ hev ⟨k', stake'⟩ hk' rfl
        exact h k stake' hev k' hk')

/-- Two operators announce stake transactions of their own, one of them again. -/
theorem announced_again_coherent : ∃ s os,
    Run (logged (step plain)) OwnStake ([], contract twoOperators) os s ∧
    s.2.phase = .requested ∧ s.2.pog.size = 3 ∧ s.2.CacheCoherent plain := by
  obtain ⟨s, os, hrun, h⟩ := exists_run_of_exec (logged (step plain)) OwnStake
    ([], contract twoOperators) [setup 0 2, setup 1 3, setup 0 4]
    (fun s _ => s.2.phase = .requested ∧ s.2.pog.size = 3) (by decide +kernel)
  obtain ⟨hphase, hsize⟩ := of_decide_eq_true h
  exact ⟨s, os, hrun, hphase, hsize, graph_cache_coherent hrun⟩

private def cachesAnother (sm : ContractSM) : Bool :=
  match sm.state.state with
  | .requested r => sm.pog[stakeTxid 2]?.any fun graph =>
      r.pegOutGraphInputs[(⟨11⟩ : P2POperatorPubKey)]?.any fun input =>
        input.stakeOutpoint.txid = stakeTxid 2 && graph.claimTx.computeTxid plain ≠
          (sm.cfg.buildGraph plain input).claimTx.computeTxid plain
  | _ => false

/-- **One graph for two operators.** Operator 1 announces the stake transaction of operator 0 with
keys of its own; the graph that is cached under its stake transaction is that of operator 0. -/
theorem shared_stake_incoherent : ∃ sm,
    Reachable plain (contract twoOperators) sm ∧
    ¬sm.CacheCoherent plain := by
  obtain ⟨sm, hr, h⟩ := exists_reachable plain (contract twoOperators) [setup 0 2, setup 1 2]
    cachesAnother (by decide +kernel)
  refine ⟨sm, hr, fun hcoherent => ?_⟩
  cases hs : sm.state.state with
  | requested r =>
    simp only [cachesAnother, hs] at h
    obtain ⟨graph, hgraph, h⟩ := (Option.any_eq_true _ _).mp h
    obtain ⟨input, hinput, h⟩ := (Option.any_eq_true _ _).mp h
    rw [Bool.and_eq_true, decide_eq_true_eq, decide_eq_true_eq] at h
    exact h.2 (by rw [hcoherent r hs _ graph hgraph _ input hinput h.1])
  | _ => simp [cachesAnother, hs] at h

end Instance

end ContractSM

end StrataBridge
