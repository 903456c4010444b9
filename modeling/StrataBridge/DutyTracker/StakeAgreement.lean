import StrataBridge.DutyTracker.ManagerSteps
import StrataBridge.DutyTracker.Setup
import StrataBridge.Instance.LinearBridge

/-!
# Stakes behind the graphs

The graph of an operator spends the operator's stake transaction for the deposit. Its data come
from an announcement, and so do the data of the stake transaction, but the two are entered by
different state machines: the stake chain goes by the index in the announcement and keeps what it
has cached, the contract takes the first complete announcement it sees. The two agree as long as
an announcement that the contract takes is the one that the stake chain has taken.
-/

namespace StrataBridge

open Rust Transition Linear BTreeMap ContractManagerCtx

variable {env : Env} {sc sc' : StakeChainSM}

namespace StakeChainSM

variable {op : P2POperatorPubKey} {idx : ℕ}

/-- The stake chain has an input of the operator with the hash and the keys of a graph, and the
graph spends the stake transaction. -/
def Backs (env : Env) (sc : StakeChainSM) (op : P2POperatorPubKey) (idx : ℕ)
    (input : PegOutGraphInput) : Prop :=
  (∃ data, sc.stakeInput op idx = some data ∧ data.hash = input.stakeHash ∧
    data.operatorPubkey = input.operatorPubkey ∧
    data.withdrawalFulfillmentPk = input.wotsPublicKeys.withdrawalFulfillment) ∧
  ∃ tx, sc.stakeTx env op idx = .ok (some tx) ∧
    input.stakeOutpoint.txid = tx.computeTxid env ∧
    input.withdrawalFulfillmentOutpoint.txid = tx.computeTxid env

theorem Backs.of_keeps {input : PegOutGraphInput} {txid : Txid} (h : sc.Backs env op idx input)
    (hsound : sc.Sound env) (hcached : sc.stakeTxid op idx = some txid) (hkeeps : sc.Keeps sc') :
    sc'.Backs env op idx input := by
  rw [Backs, hkeeps.stakeInput op idx txid hcached, hkeeps.stakeTx hsound hcached]
  exact h

end StakeChainSM

/-! ### Contracts -/

namespace Requested

variable {cfg : ContractCfg} {r : Requested}

theorem pegOutGraphInputs_processDepositSetup (pog : PogCache) (signer : P2POperatorPubKey)
    (operatorPubkey : XOnlyPublicKey) (stakeHash : Sha256Hash) (stakeTxid : Txid)
    (wotsKeys : Wots.PublicKeys) :
    (r.processDepositSetup env cfg pog signer operatorPubkey stakeHash stakeTxid
      wotsKeys).Leaves fun p => p.1.pegOutGraphInputs =
        (r.upsertInput signer operatorPubkey stakeHash stakeTxid wotsKeys).pegOutGraphInputs := by
  rw [processDepositSetup]
  split
  · rfl
  · exact pegOutGraphInputs_foldl_insertGraph _

end Requested

namespace ContractSM

variable {sm sm' : ContractSM}

/-- While the graphs are set up, the stakes behind them are known and cached. -/
def StakedIn (env : Env) (sc : StakeChainSM) (sm : ContractSM) : Prop :=
  ∀ r, sm.state.state = .requested r → ∀ op input, r.pegOutGraphInputs[op]? = some input →
    (sc.stakeTxid op sm.cfg.depositIdx).isSome ∧ sc.Backs env op sm.cfg.depositIdx input

theorem StakedIn.of_keeps (h : sm.StakedIn env sc) (hsound : sc.Sound env)
    (hkeeps : sc.Keeps sc') : sm.StakedIn env sc' := by
  intro r hr op input hinput
  obtain ⟨hcached, hbacks⟩ := h r hr op input hinput
  obtain ⟨txid, hcached⟩ := Option.isSome_iff_exists.mp hcached
  exact ⟨Option.isSome_iff_exists.mpr ⟨txid, hkeeps.stakeTxid op _ txid hcached⟩,
    hbacks.of_keeps hsound hcached hkeeps⟩

theorem StakedIn.step {ev : ContractEvent} {ds : List OperatorDuty} (h : sm.StakedIn env sc)
    (hev : ev.isSetup = false) (hs : sm.step env ev = some (sm', ds)) : sm'.StakedIn env sc := by
  have hcfg := cfg_of_step hs
  rw [StakedIn, hcfg]
  refine requested_invariant (Q := fun r _ => ∀ op input, r.pegOutGraphInputs[op]? = some input →
    (sc.stakeTxid op sm.cfg.depositIdx).isSome ∧ sc.Backs env op sm.cfg.depositIdx input) hs h ?_
  intro r o _ hr ho
  exact (Requested.process_sameGraphs ho hev).mono fun p hp => by rw [hp.inputs]; exact hr

theorem StakedIn.of_reachableBy {G : ContractEvent → Prop} (h : sm.StakedIn env sc)
    (hG : ∀ ev, G ev → ev.isSetup = false) (hr : ReachableBy env G sm sm') :
    sm'.StakedIn env sc :=
  Transition.Reachable.invariant (I := StakedIn env sc) hr h
    fun _ ev _ _ hs hev hstep => hs.step (hG ev hev) hstep

/-- **An announcement that agrees with the stake chain.** The contract enters the cached stake
transaction, and for a new operator the data of the announcement. -/
theorem StakedIn.depositSetup {op : P2POperatorPubKey} {pk : XOnlyPublicKey} {hash : Sha256Hash}
    {tx : StakeTxKind} {wotsKeys : Wots.PublicKeys} {ds : List OperatorDuty}
    (h : sm.StakedIn env sc) (htx : sc.stakeTx env op sm.cfg.depositIdx = .ok (some tx))
    (hstake : ∀ r, sm.state.state = .requested r →
      (sc.stakeTxid op sm.cfg.depositIdx).isSome ∧ (op ∉ r.pegOutGraphInputs →
        ∃ data, sc.stakeInput op sm.cfg.depositIdx = some data ∧ data.hash = hash ∧
          data.operatorPubkey = pk ∧
          data.withdrawalFulfillmentPk = wotsKeys.withdrawalFulfillment))
    (hs : sm.step env (.depositSetup op pk hash (tx.computeTxid env) wotsKeys) = some (sm', ds)) :
    sm'.StakedIn env sc := by
  have hcfg := cfg_of_step hs
  rw [StakedIn, hcfg]
  refine requested_invariant (Q := fun r _ => ∀ op input, r.pegOutGraphInputs[op]? = some input →
    (sc.stakeTxid op sm.cfg.depositIdx).isSome ∧ sc.Backs env op sm.cfg.depositIdx input) hs h ?_
  intro r o hreq hr ho
  cases ho
  refine (Requested.pegOutGraphInputs_processDepositSetup ..).mono fun p hp op' input hinput => ?_
  rw [hp, Requested.upsertInput, get_alter] at hinput
  split_ifs at hinput with heq
  · subst heq
    refine ⟨(hstake r hreq).1, ?_⟩
    cases hold : r.pegOutGraphInputs[op]? with
    | some old =>
      rw [hold] at hinput
      cases hinput
      exact ⟨(hr op old hold).2.1, tx, htx, rfl, rfl⟩
    | none =>
      rw [hold] at hinput
      cases hinput
      exact ⟨(hstake r hreq).2 (notMem_iff.mpr hold), tx, htx, rfl, rfl⟩
  · exact hr op' input hinput

end ContractSM

/-! ### The manager -/

def DepositSetup.agreesWith (setup : DepositSetup) (data : StakeTxData) : Bool :=
  data.hash = setup.hash && data.operatorPubkey = setup.operatorPk &&
    data.withdrawalFulfillmentPk = setup.wotsPks.withdrawalFulfillment

namespace ContractManagerCtx

variable {G : ContractEvent → Prop} {ctx ctx' : ContractManagerCtx}

/-- An announcement for a contract that does not have the data of the operator yet: if the stake
transaction for the deposit is cached, the announcement has its data, and otherwise it has the
index of the deposit. -/
def agreesWithStake (ctx : ContractManagerCtx) : Input → Bool
  | .message key (.depositSetup scope setup) =>
    match ctx.activeContracts[scope]? with
    | some sm =>
      match sm.state.state with
      | .requested r => key ∈ r.pegOutGraphInputs ||
          match ctx.stakeChains.stakeTxid key sm.cfg.depositIdx with
          | some _ => (ctx.stakeChains.stakeInput key sm.cfg.depositIdx).any setup.agreesWith
          | none => setup.index = sm.cfg.depositIdx
      | _ => true
    | none => true
  | _ => true

/-- The cache of the stake chains is sound, and the stakes behind all graphs are known. -/
structure Staked (env : Env) (ctx : ContractManagerCtx) : Prop where
  sound : ctx.stakeChains.Sound env
  contracts : ∀ (k : Txid) sm, ctx.activeContracts[k]? = some sm → sm.StakedIn env ctx.stakeChains

section

variable (h : Staked env ctx)
include h

theorem Staked.of_keeps {stakeChains : StakeChainSM}
    (hsound : stakeChains.Sound env) (hkeeps : ctx.stakeChains.Keeps stakeChains) :
    Staked env { ctx with stakeChains } :=
  ⟨hsound, fun k sm hsm => (h.contracts k sm hsm).of_keeps h.sound hkeeps⟩

theorem Staked.of_moves (hmoves : Moves env G ctx ctx')
    (hG : ∀ ev, G ev → ev.isSetup = false) (hstake : ctx'.stakeChains = ctx.stakeChains) :
    Staked env ctx' := by
  refine ⟨by rw [hstake]; exact h.sound, fun k sm' hsm' => ?_⟩
  obtain ⟨sm, hsm, hr⟩ := hmoves.exists_of_get hsm'
  rw [hstake]
  exact (h.contracts k sm hsm).of_reachableBy hG hr

theorem Staked.processBlock {b : Block} {es : List Emission}
    (hs : (ctx.processBlock env b).next = some (ctx', es)) : Staked env ctx' := by
  have hchain : ∀ ev : ContractEvent, ev.IsChain → ev.isSetup = false := by
    rintro ev (hev | ⟨height, rfl⟩)
    · cases ev <;> first | rfl | cases hev
    · rfl
  rcases processBlock_cases hs with hevolves | ⟨ctx₁, sms, hevolves, hnew, rfl⟩
  · exact h.of_moves hevolves.toMoves hchain hevolves.stakeChains
  · have h₁ := h.of_moves hevolves.toMoves hchain hevolves.stakeChains
    have hstake : (ctx₁.addContracts env sms).stakeChains = ctx₁.stakeChains := by
      rw [addContracts_eq]
    refine ⟨hstake ▸ h₁.sound, fun k sm hsm => ?_⟩
    change sm.StakedIn env (ctx₁.addContracts env sms).stakeChains
    rw [hstake]
    rcases get_addContracts hsm with ⟨hmem, -⟩ | hold
    · -- a new contract has no graphs
      obtain ⟨i, -, depositTx, rfl, -⟩ := hnew.exists_of_mem hmem
      intro r hr op input hinput
      cases hr
      simp at hinput
    · exact h₁.contracts k sm hold

theorem Staked.putContract {k : Txid} {sm : ContractSM}
    (hsm : sm.StakedIn env ctx.stakeChains) : Staked env (ctx.putContract k sm) := by
  refine ⟨h.sound, fun k' sm' hk' => ?_⟩
  rw [ContractManagerCtx.putContract, get_insert] at hk'
  split_ifs at hk' with heq
  · cases hk'
    exact hsm
  · exact h.contracts k' sm' hk'

private theorem Staked.setupContract {key : P2POperatorPubKey} {scope : Txid}
    {sm : ContractSM} {setup : DepositSetup} (hsm : ctx.activeContracts[scope]? = some sm)
    (hstake : ∀ r, sm.state.state = .requested r →
      (ctx.stakeChains.stakeTxid key sm.cfg.depositIdx).isSome ∧ (key ∉ r.pegOutGraphInputs →
        ∃ data, ctx.stakeChains.stakeInput key sm.cfg.depositIdx = some data ∧
          setup.agreesWith data = true)) :
    (ctx.setupContract env key scope sm setup).Leaves (Staked env) := by
  rw [ContractManagerCtx.setupContract]
  split
  · exact h
  · exact h
  next stakeTx hstakeTx =>
  split
  · exact h
  next wotsKeys hwots =>
  have hdeliver : (ctx.deliver env scope sm (.depositSetup key setup.operatorPk setup.hash
      (stakeTx.computeTxid env) wotsKeys)).Leaves (Staked env) := by
    refine deliver_leaves fun sm' ds hstep => h.putContract ?_
    refine (h.contracts scope sm hsm).depositSetup hstakeTx (fun r hr => ?_) hstep
    refine (hstake r hr).imp_right fun hnew hkey => ?_
    obtain ⟨data, hdata, hagrees⟩ := hnew hkey
    simp only [DepositSetup.agreesWith, Bool.and_eq_true, decide_eq_true_eq] at hagrees
    exact ⟨data, hdata, hagrees.1.1, hagrees.1.2, hagrees.2.trans
      (Wots.PublicKeys.tryFrom_withdrawalFulfillment hwots).symm⟩
  refine hdeliver.bind (fun _ h => h) fun ctx' duties h' => ?_
  dsimp only
  split
  · exact ⟨h'.sound, h'.contracts⟩
  · rw [commit_eq]
    exact ⟨h'.sound, h'.contracts⟩

private theorem Staked.processDepositSetup {key : P2POperatorPubKey}
    {scope : Txid} {setup : DepositSetup}
    (hagrees : ctx.agreesWithStake (.message key (.depositSetup scope setup)) = true) :
    (ctx.processDepositSetup env key scope setup).Leaves (Staked env) := by
  rw [ContractManagerCtx.processDepositSetup]
  split
  · exact h
  next sm hsm =>
  have hleaves := h.sound.processSetup key setup
  cases hsetup : ctx.stakeChains.processSetup env key setup with
  | panic msg => trivial
  | err stakeChains e =>
    rw [hsetup] at hleaves
    exact h.of_keeps hleaves.1 hleaves.2
  | ok stakeChains txid =>
    rw [hsetup] at hleaves
    obtain ⟨hsound, hkeeps⟩ := hleaves
    have h' := h.of_keeps hsound hkeeps
    cases txid with
    | none => exact h'
    | some txid =>
    refine h'.setupContract hsm fun r hr => ?_
    simp only [agreesWithStake, hsm, hr, Bool.or_eq_true, decide_eq_true_eq] at hagrees
    rcases hagrees with hknown | hagrees
    · -- the operator is known, so its stake transaction is cached
      obtain ⟨input, hinput⟩ := mem_iff_exists.mp hknown
      obtain ⟨hcached, -⟩ := h'.contracts scope sm hsm r hr key input hinput
      exact ⟨hcached, fun hnot => absurd hknown hnot⟩
    · cases hcached : ctx.stakeChains.stakeTxid key sm.cfg.depositIdx with
      | some cached =>
        rw [hcached] at hagrees
        obtain ⟨data, hdata, hagrees⟩ := (Option.any_eq_true _ _).mp hagrees
        refine ⟨?_, fun _ => ⟨data, ?_, hagrees⟩⟩
        · rw [hkeeps.stakeTxid key _ cached hcached]
          rfl
        · exact (hkeeps.stakeInput key _ cached hcached).trans hdata
      | none =>
        rw [hcached] at hagrees
        have hindex : setup.index = sm.cfg.depositIdx := of_decide_eq_true hagrees
        obtain ⟨htxid, hinput⟩ := StakeChainSM.stakeTxid_of_processSetup hsetup
        rw [hindex] at htxid hinput
        refine ⟨?_, fun _ => ⟨setup.stakeTxData, hinput hcached, ?_⟩⟩
        · rw [htxid]
          rfl
        · simp [DepositSetup.agreesWith, DepositSetup.stakeTxData]

theorem Staked.serve {i : Input} {es : List Emission}
    (hagrees : ctx.agreesWithStake i = true) (hs : ctx.serve env i = some (ctx', es)) :
    Staked env ctx' := by
  have hsession : ∀ ev : ContractEvent, ev.isSession = true → ev.isSetup = false := by
    intro ev hev
    cases ev <;> first | rfl | cases hev
  cases i with
  | block b => exact h.processBlock hs
  | request req => rwa [serve_request hs]
  | message key msg =>
    refine Outcome.Leaves.of_next ?_ hs
    rw [processP2pMessage]
    split
    · trivial
    cases msg with
    | stakeChainExchange preStakeTxid preStakeVout =>
      exact h.of_keeps (h.sound.processExchange key ⟨preStakeTxid, preStakeVout⟩)
        (ctx.stakeChains.keeps_processExchange key ⟨preStakeTxid, preStakeVout⟩)
    | depositSetup scope setup => exact h.processDepositSetup hagrees
    | musig2NoncesExchange sessionId nonces =>
      exact (processNonces_moves env ctx key sessionId nonces).mono fun _ hm =>
        h.of_moves hm.toMoves hsession hm.stakeChains
    | musig2SignaturesExchange sessionId sigs =>
      exact (processSignatures_moves env ctx key sessionId sigs).mono fun _ hm =>
        h.of_moves hm.toMoves hsession hm.stakeChains

end

/-- **The stake behind every graph is known.** In a run of the manager in which every announcement
that a contract takes agrees with the stake chain, the stake chain has an input of every operator
in the graphs of a requested contract, with the hash and the keys of the graph, and the graph
spends the operator's stake transaction for the deposit. -/
theorem graph_inputs_backed {cfg : ExecutionConfig}
    (hreach : Reachable (serve env) (fun ctx i => ctx.agreesWithStake i = true) (.new cfg) ctx)
    {k : Txid} {sm : ContractSM} {r : Requested} (hsm : ctx.activeContracts[k]? = some sm)
    (hr : sm.state.state = .requested r) {op : P2POperatorPubKey} {input : PegOutGraphInput}
    (hinput : r.pegOutGraphInputs[op]? = some input) :
    ctx.stakeChains.Backs env op sm.cfg.depositIdx input := by
  have hinit : Staked env (.new cfg) := by
    refine ⟨fun op idx txid hcached => ?_, fun k sm hsm => ?_⟩
    · simp [StakeChainSM.stakeTxid, new, StakeChainSM.new] at hcached
    · simp [new] at hsm
  have hstaked := hreach.invariant (I := Staked env) hinit fun _ _ _ _ h hG hs => h.serve hG hs
  exact (hstaked.contracts k sm hsm r hr op input hinput).2

private def linearDeposit : Txid := depositTxidOf oneOperator 5 0

private def linearRequest : List Input :=
  [exchange 0, block 100 [requestTx oneOperator 5]]

/-- The contract of the deposit, if the data of the only operator in its graph satisfy `p`. -/
private def linearInput (ctx : ContractManagerCtx) (p : ContractSM → PegOutGraphInput → Bool) :
    Bool :=
  match ctx.activeContracts[linearDeposit]? with
  | some sm =>
    match sm.state.state with
    | .requested r => (r.pegOutGraphInputs[(⟨10⟩ : P2POperatorPubKey)]?).any (p sm)
    | _ => false
  | none => false

theorem exists_of_linearInput {p : ContractSM → PegOutGraphInput → Bool}
    (h : linearInput ctx p = true) :
    ∃ sm r input, ctx.activeContracts[linearDeposit]? = some sm ∧
      sm.state.state = .requested r ∧
      r.pegOutGraphInputs[(⟨10⟩ : P2POperatorPubKey)]? = some input ∧ p sm input = true := by
  rw [linearInput] at h
  split at h
  next sm hsm =>
    split at h
    next r hr =>
      obtain ⟨input, hinput, hp⟩ := (Option.any_eq_true _ _).mp h
      exact ⟨sm, r, input, hsm, hr, hinput, hp⟩
    · cases h
  · cases h

/-- The only operator announces its data, and its stake is known. -/
theorem graph_input_backed_after_setup : ∃ ctx sm r input,
    Reachable (serve plain) (fun ctx i => ctx.agreesWithStake i = true) (manager oneOperator) ctx ∧
    ctx.activeContracts[linearDeposit]? = some sm ∧ sm.state.state = .requested r ∧
    r.pegOutGraphInputs[(⟨10⟩ : P2POperatorPubKey)]? = some input ∧
    ctx.stakeChains.Backs plain ⟨10⟩ sm.cfg.depositIdx input := by
  obtain ⟨ctx, es, hrun, h⟩ := exists_run_of_exec (serve plain)
    (fun ctx i => ctx.agreesWithStake i = true) (manager oneOperator)
    (linearRequest ++ [announce 0 linearDeposit 0 40 true])
    (fun ctx _ => linearInput ctx fun _ _ => true) (by decide +kernel)
  obtain ⟨sm, r, input, hsm, hr, hinput, -⟩ := exists_of_linearInput h
  exact ⟨ctx, sm, r, input, ⟨es, hrun⟩, hsm, hr, hinput,
    graph_inputs_backed ⟨es, hrun⟩ hsm hr hinput⟩

/-- The only operator announces hash 40 with incomplete one-time keys and then hash 41 with
complete ones: the stake chain keeps the first, the contract takes the second. -/
theorem graph_input_unbacked_after_incomplete_setup : ∃ ctx sm r input,
    Reachable (serve plain) (fun _ _ => True) (manager oneOperator) ctx ∧
    ctx.activeContracts[linearDeposit]? = some sm ∧ sm.state.state = .requested r ∧
    r.pegOutGraphInputs[(⟨10⟩ : P2POperatorPubKey)]? = some input ∧
    ¬ ctx.stakeChains.Backs plain ⟨10⟩ sm.cfg.depositIdx input := by
  obtain ⟨ctx, es, hrun, h⟩ := exists_run_of_exec (serve plain) (fun _ _ => True)
    (manager oneOperator)
    (linearRequest ++ [announce 0 linearDeposit 0 40 false, announce 0 linearDeposit 0 41 true])
    (fun ctx _ => linearInput ctx fun sm input =>
      (ctx.stakeChains.stakeInput ⟨10⟩ sm.cfg.depositIdx).all (·.hash ≠ input.stakeHash))
    (by decide +kernel)
  obtain ⟨sm, r, input, hsm, hr, hinput, hhash⟩ := exists_of_linearInput h
  refine ⟨ctx, sm, r, input, ⟨es, hrun⟩, hsm, hr, hinput, ?_⟩
  rintro ⟨⟨data, hdata, hsame, -⟩, -⟩
  rw [hdata] at hhash
  exact of_decide_eq_true hhash hsame

end ContractManagerCtx

end StrataBridge
