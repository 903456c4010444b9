import StrataBridge.DutyTracker.GraphCache
import StrataBridge.DutyTracker.StakeAgreement
import StrataBridge.DutyTracker.StakeCache
import StrataBridge.TxGraph.Generated

/-!
# The index of claims

Nonces and signatures for a graph come under the txid of its claim, and the manager has an index
that leads from there to the contract. The index is filled when the graphs of a contract are built.
A claim spends an output of a stake transaction, and the stake transaction of the deposit with a
given index stands at that place of an operator's stake chain. Since every stake transaction but
the first one waits for the one before it, no transaction can stand at two places, so contracts of
different deposits have different claims and the index never leads to the wrong contract.

That different transactions have different txids is assumed of the transactions that the manager
meets in a run, and of no others.

## Main definitions

* `ContractManagerCtx.Indexed`: the index leads to the right contracts

## Main results

* `StakeAt.unique`: a stake stands at one place
* `ContractManagerCtx.indexed_of_reachable`: the index is right in every run

## References

* `crates/duty-tracker/src/contract_manager.rs`, lines 218–225 and 915–1018
* `crates/stake-chain/src/transactions/stake.rs`, lines 313–517
-/

namespace StrataBridge

open Rust Transition BTreeMap List Outcome OperatorDuty

variable {params : StakeChainParams} {txs : List Transaction}

variable {e : P2POperatorPubKey × PegOutGraph}

variable {ev : ContractEvent} {ds : List OperatorDuty} {sm : ContractSM} {key : P2POperatorPubKey}
  {setup : DepositSetup}

/-! ### Places of a stake chain -/

/-- The txid is that of a transaction among the given ones that can stand at the given place of a
stake chain: the first one spends a pre-stake, and a later one the stake of the one before it, with
the relative timelock of the chain. -/
def StakeAt (env : Env) (params : StakeChainParams) (txs : List Transaction) : ℕ → Txid → Prop
  | 0, txid => ∃ tx ∈ txs, env.computeTxid tx = txid ∧
      ∃ funds preStake, tx.input = createTxIns [funds, preStake]
  | idx + 1, txid => ∃ prev, StakeAt env params txs idx prev ∧ ∃ tx ∈ txs,
      env.computeTxid tx = txid ∧
        ∃ funds, tx.input = StakeTx.tailInputs params funds ⟨prev, stakeVout⟩

/-- The txid is that of a transaction among the given ones that spends an output of a stake
transaction at the given place, and whose second output is a taproot output. -/
def ClaimAt (env : Env) (params : StakeChainParams) (txs : List Transaction) (idx : ℕ)
    (claim : Txid) : Prop :=
  ∃ tx ∈ txs, env.computeTxid tx = claim ∧
    (∃ stake, tx.input.map TxIn.previousOutput = [stake] ∧
      StakeAt env params txs idx stake.txid) ∧
    ∃ out, tx.output[1]? = some out ∧ isP2tr out.scriptPubkey = true

section Places

variable {env : Env}

private theorem head_ne_tail {tx tx' : Transaction} {funds preStake funds' prev : OutPoint}
    (hhead : tx.input = createTxIns [funds, preStake])
    (htail : tx'.input = StakeTx.tailInputs params funds' prev) :
    tx.withoutWitness ≠ tx'.withoutWitness := by
  intro h
  have hseq := Transaction.map_input_eq_of_withoutWitness (f := TxIn.sequence) (fun _ => rfl) h
  rw [hhead, htail] at hseq
  have hwaits : enableRbfNoLocktime = params.delta % 2 ^ 16 :=
    (cons.inj (cons.inj hseq).2).1
  rw [enableRbfNoLocktime] at hwaits
  omega

/-- **A stake transaction stands at one place.** -/
theorem StakeAt.unique (htxs : env.TxidsDistinct txs) {idx idx' : ℕ} {txid : Txid}
    (h : StakeAt env params txs idx txid) (h' : StakeAt env params txs idx' txid) : idx = idx' := by
  induction idx generalizing idx' txid with
  | zero =>
    obtain ⟨tx, htx, rfl, funds, preStake, hinput⟩ := h
    cases idx' with
    | zero => rfl
    | succ idx' =>
      obtain ⟨prev, -, tx', htx', heq, funds', hinput'⟩ := h'
      exact absurd (htxs tx htx tx' htx' heq.symm) (head_ne_tail hinput hinput')
  | succ idx ih =>
    obtain ⟨prev, hprev, tx, htx, rfl, funds, hinput⟩ := h
    cases idx' with
    | zero =>
      obtain ⟨tx', htx', heq, funds', preStake, hinput'⟩ := h'
      exact absurd (htxs tx' htx' tx htx heq) (head_ne_tail hinput' hinput)
    | succ idx' =>
      obtain ⟨prev', hprev', tx', htx', heq, funds', hinput'⟩ := h'
      -- both spend the stake before them
      have houts := (htxs.same htx htx' heq.symm).1
      rw [hinput, hinput'] at houts
      have hsame : prev = prev' :=
        congrArg OutPoint.txid (cons.inj (cons.inj houts).2).1
      rw [ih hprev (hsame ▸ hprev')]

theorem ClaimAt.unique (htxs : env.TxidsDistinct txs) {idx idx' : ℕ} {claim : Txid}
    (h : ClaimAt env params txs idx claim) (h' : ClaimAt env params txs idx' claim) :
    idx = idx' := by
  obtain ⟨tx, htx, rfl, ⟨stake, hinput, hstake⟩, -⟩ := h
  obtain ⟨tx', htx', heq, ⟨stake', hinput', hstake'⟩, -⟩ := h'
  have houts := (htxs.same htx htx' heq.symm).1
  rw [hinput, hinput'] at houts
  have hsame : stake = stake' := (cons.inj houts).1
  exact hstake.unique htxs (hsame ▸ hstake')

end Places

/-! ### Claims of generated graphs -/

/-- The claim of a graph spends the announced output of the stake transaction, and its second
output is a taproot output. -/
def Env.ClaimsSpend (env : Env) : Prop :=
  ∀ (input : PegOutGraphInput) (ctx : TxBuildContext) (deposit : Txid) (params : PegOutGraphParams)
    (connectorParams : ConnectorParams) (stakeChainParams : StakeChainParams),
    let claim := (env.generate input ctx deposit params connectorParams stakeChainParams
      []).claimTx.unsignedTx
    claim.input.map TxIn.previousOutput = [input.withdrawalFulfillmentOutpoint] ∧
      ∃ out, claim.output[1]? = some out ∧ isP2tr out.scriptPubkey = true

theorem GraphEnv.claimsSpend {env : GraphEnv} (henv : env.Taproot) (hgen : env.Generates) :
    env.toEnv.ClaimsSpend := by
  intro input ctx deposit params connectorParams stakeChainParams
  obtain ⟨g, hg⟩ := (generate_returns_iff henv).mpr (.inl rfl)
  obtain ⟨claim, chain, hparts⟩ := PegOutGraph.parts_of_generate hg
  obtain ⟨hinput, houtput, -⟩ := ClaimTx.of_new henv hparts.newClaim
  rw [hgen hg, hparts.claimTx]
  refine ⟨hinput, ⟨segwitMinAmount, g.connectors.claimOut1.generateLockingScript env⟩, ?_, ?_⟩
  · rw [houtput]
    rfl
  · dsimp only
    exact henv.isP2tr_createTaprootAddr _ _

def OperatorDuty.nonceClaim : OperatorDuty → Option Txid
  | .publishGraphNonces claim .. => some claim
  | _ => none

namespace Requested

variable {env : Env} {cfg : ContractCfg} {r : Requested} {pog : PogCache}
  {history : List ContractEvent}

/-! ### Graphs of a contract -/

theorem mem_retrieveGraphs {inputs : BTreeMap P2POperatorPubKey PegOutGraphInput}
    {l : List (P2POperatorPubKey × PegOutGraphInput)} (hl : ∀ e ∈ l, inputs[e.1]? = some e.2)
    (he : e ∈ (retrieveGraphs env cfg pog l).1) :
    (∃ stake : Txid, pog[stake]? = some e.2) ∨
      ∃ (k : P2POperatorPubKey) (input : PegOutGraphInput),
        inputs[k]? = some input ∧ e.2 = cfg.buildGraph env input := by
  induction l generalizing pog with
  | nil => cases he
  | cons first rest ih =>
    have hfirst := hl first mem_cons_self
    rw [retrieveGraphs] at he
    rcases mem_cons.mp he with rfl | he
    · rw [ContractCfg.retrieveGraph]
      split
      next graph hgraph => exact .inl ⟨_, hgraph⟩
      next => exact .inr ⟨first.1, first.2, hfirst, rfl⟩
    · rcases ih (fun e he => hl e (mem_cons_of_mem _ he)) he with ⟨stake, hstake⟩ | hbuilt
      · rcases cacheFrom_retrieveGraph env cfg pog hfirst stake e.2 hstake with
          hold | ⟨k, input, hk, -, hgraph⟩
        · exact .inl ⟨stake, hold⟩
        · exact .inr ⟨k, input, hk, hgraph⟩
      · exact .inr hbuilt

theorem mem_allGraphs (he : e ∈ (r.allGraphs env cfg pog).1) :
    (∃ stake : Txid, pog[stake]? = some e.2) ∨
      ∃ (k : P2POperatorPubKey) (input : PegOutGraphInput),
        r.pegOutGraphInputs[k]? = some input ∧ e.2 = cfg.buildGraph env input := by
  rw [allGraphs] at he
  split at he
  · obtain ⟨e', he', rfl⟩ := mem_map.mp he
    exact .inr ⟨e'.1, e'.2, mem_toList.mp he', rfl⟩
  · exact mem_retrieveGraphs (fun _ he => mem_toList.mp he) he

theorem FromHistory.of_mem_allGraphs (h : FromHistory env cfg history r pog)
    (he : e ∈ (r.allGraphs env cfg pog).1) :
    ∃ k stake input, (k, stake) ∈ announcedStakes history ∧
      e.2 = cfg.buildGraph env (PegOutGraphInput.withStake input stake) := by
  rcases mem_allGraphs he with ⟨stake, hstake⟩ | ⟨k, input, hk, hgraph⟩
  · obtain ⟨k, input, -, hannounced, hgraph⟩ := h.cached stake e.2 hstake
    exact ⟨k, stake, input, hannounced, hgraph⟩
  · obtain ⟨hannounced, hown⟩ := h.inputs k input hk
    exact ⟨k, _, input, hannounced, by rw [hown, hgraph]⟩

section Setup

variable (env cfg r pog) (signer : P2POperatorPubKey) (operatorPubkey : XOnlyPublicKey)
  (stakeHash : Sha256Hash) (stakeTxid : Txid) (wotsKeys : Wots.PublicKeys)

def setupClaimTxs : List Transaction :=
  let r := r.upsertInput signer operatorPubkey stakeHash stakeTxid wotsKeys
  if r.pegOutGraphInputs.size ≠ cfg.operatorTable.cardinality then []
  else (r.allGraphs env cfg pog).1.map fun e => e.2.claimTx.unsignedTx

theorem map_computeTxid_setupClaimTxs :
    (r.setupClaimTxs env cfg pog signer operatorPubkey stakeHash stakeTxid wotsKeys).map
        env.computeTxid =
      r.setupClaims env cfg pog signer operatorPubkey stakeHash stakeTxid wotsKeys := by
  rw [setupClaimTxs, setupClaims]
  split
  · rfl
  · rw [map_map]
    rfl

theorem processDepositSetup_succeeds :
    (r.processDepositSetup env cfg pog signer operatorPubkey stakeHash stakeTxid
      wotsKeys).Succeeds fun p duties =>
        duties.filterMap nonceClaim =
          r.setupClaims env cfg pog signer operatorPubkey stakeHash stakeTxid wotsKeys ∧
        ∀ (op : P2POperatorPubKey) claim, p.1.claimTxids[op]? = some claim →
          claim ∈ r.setupClaims env cfg pog signer operatorPubkey stakeHash stakeTxid wotsKeys ∨
            r.claimTxids[op]? = some claim := by
  rw [processDepositSetup, setupClaims]
  dsimp only
  split
  · exact ⟨rfl, fun _ _ h => .inr h⟩
  · refine ⟨?_, fun op claim h => ?_⟩
    · rw [filterMap_map, ← filterMap_eq_map]
      rfl
    · rcases claimTxid_of_foldl_insertGraph h with hnew | hold
      · exact .inl hnew
      · exact .inr hold

end Setup

/-- The operators have announced stake transactions at the place of the deposit, and the claims
spend them. -/
structure GraphsAt (env : Env) (params : StakeChainParams) (txs : List Transaction)
    (cfg : ContractCfg) (r : Requested) (pog : PogCache) : Prop where
  stakes : ∃ history, FromHistory env cfg history r pog ∧
    ∀ e ∈ announcedStakes history, StakeAt env params txs cfg.depositIdx e.2
  claims : ∀ (op : P2POperatorPubKey) claim, r.claimTxids[op]? = some claim →
    ClaimAt env params txs cfg.depositIdx claim

theorem GraphsAt.process (h : r.GraphsAt env params txs cfg pog) (hev : ev.isSetup = false)
    {o : Requested.Reply} (ho : r.process env cfg pog ev = some o) :
    o.Leaves fun p => p.1.GraphsAt env params txs cfg p.2 := by
  obtain ⟨history, hhistory, hstakes⟩ := h.stakes
  have hsame := (process_sameGraphs ho hev).mono fun _ h => h.claims
  have hnone : announcedStakes (history ++ [ev]) = announcedStakes history := by
    have hstake : ev.announcedStake = none := by cases ev <;> first | rfl | cases hev
    simp [announcedStakes, hstake]
  have hprocess := hhistory.process ho
  cases o with
  | ok p ds | err p e =>
    exact ⟨⟨_, hprocess, hnone ▸ hstakes⟩, fun op claim hclaim =>
      h.claims op claim (hsame ▸ hclaim)⟩
  | panic msg => trivial

/-- **An announcement of a stake transaction at the place of the deposit** keeps the graphs
there. -/
theorem GraphsAt.processDepositSetup (hspend : env.ClaimsSpend)
    (h : r.GraphsAt env params txs cfg pog) {signer : P2POperatorPubKey}
    {operatorPubkey : XOnlyPublicKey} {stakeHash : Sha256Hash} {stakeTxid : Txid}
    {wotsKeys : Wots.PublicKeys} (hstake : StakeAt env params txs cfg.depositIdx stakeTxid)
    (hmet : ∀ tx ∈ r.setupClaimTxs env cfg pog signer operatorPubkey stakeHash stakeTxid wotsKeys,
      tx ∈ txs) :
    (∀ claim ∈ r.setupClaims env cfg pog signer operatorPubkey stakeHash stakeTxid wotsKeys,
      ClaimAt env params txs cfg.depositIdx claim) ∧
    (r.processDepositSetup env cfg pog signer operatorPubkey stakeHash stakeTxid wotsKeys).Leaves
      fun p => p.1.GraphsAt env params txs cfg p.2 := by
  obtain ⟨history, hhistory, hstakes⟩ := h.stakes
  have hup := hhistory.upsertInput signer operatorPubkey stakeHash stakeTxid wotsKeys
  have hannounced : ∀ e ∈ announcedStakes
      (history ++ [.depositSetup signer operatorPubkey stakeHash stakeTxid wotsKeys]),
      StakeAt env params txs cfg.depositIdx e.2 := by
    intro e he
    rw [announcedStakes, filterMap_append] at he
    rcases mem_append.mp he with he | he
    · exact hstakes e he
    · obtain rfl := mem_singleton.mp he
      exact hstake
  have hclaims : ∀ claim ∈ r.setupClaims env cfg pog signer operatorPubkey stakeHash stakeTxid
      wotsKeys, ClaimAt env params txs cfg.depositIdx claim := by
    intro claim hclaim
    rw [← map_computeTxid_setupClaimTxs] at hclaim
    obtain ⟨tx, htx, rfl⟩ := mem_map.mp hclaim
    refine ⟨tx, hmet tx htx, rfl, ?_⟩
    rw [setupClaimTxs] at htx
    split at htx
    · cases htx
    · obtain ⟨e, he, rfl⟩ := mem_map.mp htx
      obtain ⟨k, stake, input, hk, hgraph⟩ := hup.of_mem_allGraphs he
      obtain ⟨hinput, houtput⟩ := hspend (input.withStake stake)
        (cfg.operatorTable.txBuildContext cfg.network) (cfg.depositTxid env) cfg.pegOutGraphParams
        cfg.connectorParams cfg.stakeChainParams
      rw [hgraph]
      exact ⟨⟨_, hinput, hannounced (k, stake) hk⟩, houtput⟩
  refine ⟨hclaims, ?_⟩
  have hprocess : (r.processDepositSetup env cfg pog signer operatorPubkey stakeHash stakeTxid
      wotsKeys).Leaves fun p => FromHistory env cfg
        (history ++ [.depositSetup signer operatorPubkey stakeHash stakeTxid wotsKeys]) p.1 p.2 :=
    hhistory.process rfl
  obtain ⟨p, ds, hok, -, hcases⟩ := succeeds_iff.mp (r.processDepositSetup_succeeds env cfg
    pog signer operatorPubkey stakeHash stakeTxid wotsKeys)
  rw [hok] at hprocess ⊢
  refine ⟨⟨_, hprocess, hannounced⟩, fun op claim hclaim => ?_⟩
  rcases hcases op claim hclaim with hnew | hold
  · exact hclaims claim hnew
  · exact h.claims op claim hold

end Requested

namespace ContractSM

variable {env : Env} {sm' : ContractSM}

/-- While the graphs are set up, they are at the place of the deposit. -/
def GraphsAt (env : Env) (params : StakeChainParams) (txs : List Transaction) (sm : ContractSM) :
    Prop :=
  ∀ r, sm.state.state = .requested r → r.GraphsAt env params txs sm.cfg sm.pog

/-- The claims of a contract in the requested phase are those that it had before. -/
def KeepsClaims (sm sm' : ContractSM) : Prop :=
  ∀ r', sm'.state.state = .requested r' →
    ∃ r, sm.state.state = .requested r ∧ r'.claimTxids = r.claimTxids

theorem graphsAt_new (cfg : ContractCfg) (height abortDeadline : BitcoinBlockHeight) :
    (ContractSM.new cfg height abortDeadline).GraphsAt env params txs := by
  intro r hr
  cases hr
  exact ⟨⟨[], ⟨by simp, by simp [ContractSM.new]⟩, by simp [announcedStakes]⟩, by simp⟩

theorem GraphsAt.step (h : sm.GraphsAt env params txs) (hev : ev.isSetup = false)
    (hs : sm.step env ev = some (sm', ds)) : sm'.GraphsAt env params txs := by
  have hcfg := cfg_of_step hs
  rw [GraphsAt, hcfg]
  exact requested_invariant (Q := fun r pog => r.GraphsAt env params txs sm.cfg pog) hs h
    fun r o _ hr ho => hr.process hev ho

theorem keepsClaims_of_step (hev : ev.isSetup = false) (hs : sm.step env ev = some (sm', ds)) :
    sm.KeepsClaims sm' := by
  intro r' hr'
  rcases step_cases hs with ⟨r, o, p, hr, ho, hnext, rfl⟩ | ⟨hsame, -⟩
  · cases hr'
    refine ⟨r, hr, ?_⟩
    exact ((Requested.process_sameGraphs ho hev).of_next hnext).claims
  · exact ⟨r', (hsame r' hr').1, rfl⟩

section ReachableBy

variable {G : ContractEvent → Prop} (hG : ∀ ev, G ev → ev.isSetup = false)

include hG

theorem GraphsAt.of_reachableBy (h : sm.GraphsAt env params txs) (hr : ReachableBy env G sm sm') :
    sm'.GraphsAt env params txs :=
  Transition.Reachable.invariant (I := GraphsAt env params txs) hr h
    fun _ ev _ _ h hev hs => h.step (hG ev hev) hs

theorem keepsClaims_of_reachableBy (hr : ReachableBy env G sm sm') : sm.KeepsClaims sm' := by
  refine Transition.Reachable.invariant (I := sm.KeepsClaims) hr (fun r hr => ⟨r, hr, rfl⟩) ?_
  intro sm₁ ev sm₂ ds h hev hs r₂ hr₂
  obtain ⟨r₁, hr₁, hsame⟩ := keepsClaims_of_step (hG ev hev) hs r₂ hr₂
  obtain ⟨r, hr, hsame'⟩ := h r₁ hr₁
  exact ⟨r, hr, hsame.trans hsame'⟩

end ReachableBy

end ContractSM

/-! ### What the manager meets -/

def StakeTxKind.unsignedTx : StakeTxKind → Transaction
  | .head tx => tx.unsignedTx
  | .tail tx => tx.unsignedTx

def StakeChainSM.stakeTxs (env : Env) (sc : StakeChainSM) (op : P2POperatorPubKey) (idx : ℕ) :
    List Transaction :=
  match sc.stakeTx env op idx with
  | .ok (some tx) => [tx.unsignedTx]
  | _ => []

namespace StakeChainSM

variable {env : Env} {sc sc' : StakeChainSM}

def CachedAt (env : Env) (txs : List Transaction) (sc : StakeChainSM) : Prop :=
  ∀ op idx txid, sc.stakeTxid op idx = some txid → StakeAt env sc.params txs idx txid

theorem stakeAt_of_stakeTx {op : P2POperatorPubKey} {idx : ℕ} {tx : StakeTxKind}
    (hprev : ∀ prev txid, idx = prev + 1 → sc.stakeTxid op prev = some txid →
      StakeAt env sc.params txs prev txid)
    (htx : sc.stakeTx env op idx = .ok (some tx))
    (hmet : ∀ tx ∈ sc.stakeTxs env op idx, tx ∈ txs) :
    StakeAt env sc.params txs idx (tx.computeTxid env) := by
  have hmem : tx.unsignedTx ∈ txs := hmet tx.unsignedTx (by simp [stakeTxs, htx])
  cases idx with
  | zero =>
    rw [stakeTx] at htx
    split at htx
    · cases htx
    · dsimp only at htx
      rw [headTx] at htx
      split at htx
      · cases htx
      · cases htx
        exact ⟨_, hmem, rfl, _, _, rfl⟩
  | succ prev =>
    obtain ⟨txid, prevInput, input, htxid, -, -, rfl⟩ := stakeTx_succ_eq_some_iff.mp htx
    exact ⟨txid, hprev prev txid rfl htxid, _, hmem, rfl, _, rfl⟩

theorem stakeTxid_processSetup (env : Env) (sc : StakeChainSM) (key : P2POperatorPubKey)
    (setup : DepositSetup) : (sc.processSetup env key setup).Leaves fun sc' =>
      ∀ op idx txid, sc'.stakeTxid op idx = some txid → sc.stakeTxid op idx = some txid ∨
        (op = key ∧ idx = setup.index ∧ sc.processSetup env key setup = .ok sc' (some txid)) := by
  rw [processSetup]
  split
  · exact fun _ _ _ h => .inl h
  split
  · exact fun _ _ _ h => .inl h
  dsimp only
  split
  · exact fun _ _ _ h => .inl h
  · exact fun _ _ _ h => .inl h
  next tx _ =>
    intro op idx txid h
    rw [stakeTxid_cacheTxid] at h
    split_ifs at h with heq
    · rw [Option.some.inj h]
      exact .inr ⟨heq.1, heq.2, rfl⟩
    · exact .inl h

theorem CachedAt.processSetup (h : sc.CachedAt env txs) (hsound : sc.Sound env)
    (hmet : ∀ sc' txid, sc.processSetup env key setup = .ok sc' (some txid) →
      ∀ tx ∈ sc'.stakeTxs env key setup.index, tx ∈ txs) :
    (sc.processSetup env key setup).Leaves fun sc' => sc'.CachedAt env txs := by
  have hcached := sc.stakeTxid_processSetup env key setup
  have hkeeps := hsound.processSetup key setup
  cases hsetup : sc.processSetup env key setup with
  | panic msg => trivial
  | ok sc' res | err sc' res =>
    rw [hsetup] at hcached hkeeps
    intro op idx txid htxid
    rcases hcached op idx txid htxid with hold | ⟨rfl, rfl, hok⟩
    · rw [hkeeps.2.params]
      exact h op idx txid hold
    · obtain ⟨-, tx, htx, rfl⟩ := hkeeps.1 op setup.index txid htxid
      refine stakeAt_of_stakeTx (fun prev prevTxid hidx hprev => ?_) htx
        (hmet sc' _ (hsetup.trans hok))
      rcases hcached op prev prevTxid hprev with hold | ⟨-, hsame, -⟩
      · rw [hkeeps.2.params]
        exact h op prev prevTxid hold
      · omega

theorem CachedAt.processExchange (h : sc.CachedAt env txs) (op : P2POperatorPubKey)
    (preStake : OutPoint) : (sc.processExchange op preStake).CachedAt env txs := by
  rw [StakeChainSM.processExchange]
  split <;> exact h

end StakeChainSM

namespace ContractSM

def claimTxs (env : Env) (sm : ContractSM) (key : P2POperatorPubKey) (setup : DepositSetup)
    (stakeTxid : Txid) (wotsKeys : Wots.PublicKeys) : List Transaction :=
  match sm.state.state with
  | .requested r =>
    r.setupClaimTxs env sm.cfg sm.pog key setup.operatorPk setup.hash stakeTxid wotsKeys
  | _ => []

/-- An announcement of a stake transaction at the place of the deposit: the claims of the contract
are there, and those that are new are asked for nonces. -/
theorem GraphsAt.depositSetup {env : Env} {sm' : ContractSM} {stakeTxid : Txid}
    {wotsKeys : Wots.PublicKeys} (hspend : env.ClaimsSpend) (h : sm.GraphsAt env params txs)
    (hstake : StakeAt env params txs sm.cfg.depositIdx stakeTxid)
    (hmet : ∀ tx ∈ sm.claimTxs env key setup stakeTxid wotsKeys, tx ∈ txs)
    (hs : sm.step env (.depositSetup key setup.operatorPk setup.hash stakeTxid wotsKeys) =
      some (sm', ds)) :
    sm'.GraphsAt env params txs ∧
      (∀ claim ∈ ds.filterMap nonceClaim, ClaimAt env params txs sm.cfg.depositIdx claim) ∧
      ∀ r' (op : P2POperatorPubKey) claim, sm'.state.state = .requested r' →
        r'.claimTxids[op]? = some claim → claim ∈ ds.filterMap nonceClaim ∨
          ∃ r, sm.state.state = .requested r ∧ r.claimTxids[op]? = some claim := by
  rcases step_cases hs with ⟨r, o, p, hr, ho, hnext, rfl⟩ | ⟨hsame, hnone⟩
  · cases ho
    rw [claimTxs, hr] at hmet
    obtain ⟨hnew, hgraphs⟩ := (h r hr).processDepositSetup hspend hstake hmet
    obtain ⟨p', ds', hok, hduties, hclaims⟩ := succeeds_iff.mp
      (r.processDepositSetup_succeeds env sm.cfg sm.pog key setup.operatorPk setup.hash stakeTxid
        wotsKeys)
    rw [hok] at hnext hgraphs
    cases hnext
    rw [hduties]
    refine ⟨fun r' hr' => ?_, hnew, fun r' op claim hr' hclaim => ?_⟩
    · cases hr'
      exact hgraphs
    · cases hr'
      exact (hclaims op claim hclaim).imp_right fun hold => ⟨r, hr, hold⟩
  · have hcfg := cfg_of_step hs
    have hduties : ds.filterMap nonceClaim = [] := by
      refine filterMap_eq_nil_iff.mpr fun d hd => ?_
      have := hnone d hd
      cases d <;> first | rfl | cases this
    rw [hduties]
    refine ⟨fun r' hr' => ?_, fun claim hclaim => (by cases hclaim), fun r' op claim hr' hclaim =>
      .inr ⟨r', (hsame r' hr').1, hclaim⟩⟩
    rw [hcfg, (hsame r' hr').2]
    exact h r' (hsame r' hr').1

end ContractSM

namespace ContractManagerCtx

def setupBuilds (env : Env) (ctx : ContractManagerCtx) (key : P2POperatorPubKey) (scope : Txid)
    (setup : DepositSetup) : List Transaction :=
  match ctx.activeContracts[scope]?, ctx.stakeChains.processSetup env key setup with
  | some sm, .ok stakeChains (some _) =>
    stakeChains.stakeTxs env key setup.index ++ stakeChains.stakeTxs env key sm.cfg.depositIdx ++
      match stakeChains.stakeTx env key sm.cfg.depositIdx,
        Wots.PublicKeys.tryFrom setup.wotsPks with
      | .ok (some stakeTx), .ok wotsKeys =>
        sm.claimTxs env key setup (stakeTx.computeTxid env) wotsKeys
      | _, _ => []
  | _, _ => []

def builds (env : Env) (ctx : ContractManagerCtx) : Input → List Transaction
  | .block b => b.txdata
  | .message key (.depositSetup scope setup) => ctx.setupBuilds env key scope setup
  | .message _ (.stakeChainExchange ..) | .message _ (.musig2NoncesExchange ..)
  | .message _ (.musig2SignaturesExchange ..) | .request _ => []

def MeetsOnly (env : Env) (txs : List Transaction) (ctx : ContractManagerCtx) (i : Input) : Prop :=
  ∀ tx ∈ ctx.builds env i, tx ∈ txs

instance (env : Env) (txs : List Transaction) (ctx : ContractManagerCtx) (i : Input) :
    Decidable (ctx.MeetsOnly env txs i) :=
  inferInstanceAs (Decidable (∀ tx ∈ ctx.builds env i, tx ∈ txs))

/-! ### The index -/

/-- **The index is right**: stake transactions and claims are at the places of their deposits,
deposits have different places, and every claim of a requested contract leads to it. -/
structure Indexed (env : Env) (txs : List Transaction) (ctx : ContractManagerCtx) : Prop where
  params : ctx.stakeChains.params = ctx.cfg.stakeChainParams
  sound : ctx.stakeChains.Sound env
  staked : ctx.stakeChains.CachedAt env txs
  graphs : ∀ (k : Txid) sm, ctx.activeContracts[k]? = some sm →
    sm.GraphsAt env ctx.cfg.stakeChainParams txs
  apart : ∀ (k : Txid) sm (k' : Txid) sm', ctx.activeContracts[k]? = some sm →
    ctx.activeContracts[k']? = some sm' → sm.cfg.depositIdx = sm'.cfg.depositIdx → k = k'
  indexed : ∀ (k : Txid) sm r (op : P2POperatorPubKey) (claim : Txid),
    ctx.activeContracts[k]? = some sm → sm.state.state = .requested r →
      r.claimTxids[op]? = some claim → ctx.claimTxids[claim]? = some k
  known : ∀ claim k : Txid, ctx.claimTxids[claim]? = some k →
    ∃ idx, ClaimAt env ctx.cfg.stakeChainParams txs idx claim

theorem get_indexClaims (ctx : ContractManagerCtx) (deposit : Txid) (duties : List Emission)
    (claim : Txid) : (ctx.indexClaims deposit duties).claimTxids[claim]? =
      if claim ∈ duties.filterMap (fun e => e.duty.nonceClaim) then some deposit
      else ctx.claimTxids[claim]? := by
  rw [indexClaims]
  generalize ctx.claimTxids = index
  induction duties generalizing index with
  | nil => rfl
  | cons e duties ih =>
    rw [foldl_cons, ih]
    generalize hnew : duties.filterMap (fun e => e.duty.nonceClaim) = claims
    cases hduty : e.duty with
    | publishGraphNonces claim' inpoints witnesses nonces =>
      have hcons : (e :: duties).filterMap (fun e => e.duty.nonceClaim) = claim' :: claims := by
        simp [hduty, nonceClaim, ← hnew]
      rw [hcons, get_insert]
      by_cases hmem : claim ∈ claims
      · rw [if_pos hmem, if_pos (mem_cons_of_mem claim' hmem)]
      · simp only [hmem, if_false, mem_cons, or_false, eq_comm]
    | _ => simp [hduty, nonceClaim, ← hnew]

namespace Indexed

variable {env : Env} {ctx ctx' : ContractManagerCtx}

theorem new (env : Env) (txs : List Transaction) (cfg : ExecutionConfig) :
    Indexed env txs (.new cfg) where
  params := rfl
  sound := StakeChainSM.sound_new env _ _ _
  staked op idx txid h := by
    simp [StakeChainSM.stakeTxid, ContractManagerCtx.new, StakeChainSM.new] at h
  graphs k sm h := by simp [ContractManagerCtx.new] at h
  apart k sm k' sm' h := by simp [ContractManagerCtx.new] at h
  indexed k sm r op claim h := by simp [ContractManagerCtx.new] at h
  known claim k h := by simp [ContractManagerCtx.new] at h

section

variable (h : Indexed env txs ctx)
include h

theorem of_moves {G : ContractEvent → Prop}
    (hmoves : Moves env G ctx ctx') (hG : ∀ ev, G ev → ev.isSetup = false)
    (hstake : ctx'.stakeChains = ctx.stakeChains) (hclaims : ctx'.claimTxids = ctx.claimTxids) :
    Indexed env txs ctx' where
  params := by rw [hstake, hmoves.cfg, h.params]
  sound := hstake ▸ h.sound
  staked := hstake ▸ h.staked
  graphs k sm' hsm' := by
    obtain ⟨sm, hsm, hr⟩ := hmoves.exists_of_get hsm'
    rw [hmoves.cfg]
    exact (h.graphs k sm hsm).of_reachableBy hG hr
  apart k sm k' sm' hsm hsm' hidx := by
    obtain ⟨sm₀, hsm₀, hr⟩ := hmoves.exists_of_get hsm
    obtain ⟨sm₀', hsm₀', hr'⟩ := hmoves.exists_of_get hsm'
    exact h.apart k sm₀ k' sm₀' hsm₀ hsm₀' (by rw [← hr.cfg, ← hr'.cfg, hidx])
  indexed k sm' r' op claim hsm' hr' hclaim := by
    obtain ⟨sm, hsm, hr⟩ := hmoves.exists_of_get hsm'
    obtain ⟨r, hreq, hsame⟩ := ContractSM.keepsClaims_of_reachableBy hG hr r' hr'
    rw [hclaims]
    exact h.indexed k sm r op claim hsm hreq (hsame ▸ hclaim)
  known claim k hk := by
    rw [hmoves.cfg]
    exact h.known claim k (hclaims ▸ hk)

theorem addContracts {ctx₀ : ContractManagerCtx}
    {height : BitcoinBlockHeight} {sms : List ContractSM} (hnew : NewContracts env ctx₀ height sms)
    (hlt : ∀ (k : Txid) sm, ctx.activeContracts[k]? = some sm →
      sm.cfg.depositIdx < ctx₀.depositIdxOffset) :
    Indexed env txs (ctx.addContracts env sms) := by
  have hplace {sm : ContractSM} (hsm : sm ∈ sms) :
      ∃ i, sms[i]? = some sm ∧ sm.cfg.depositIdx = ctx₀.depositIdxOffset + i := by
    obtain ⟨i, hi, depositTx, rfl, -⟩ := hnew.exists_of_mem hsm
    exact ⟨i, hi, rfl⟩
  rw [addContracts_eq]
  refine ⟨h.params, h.sound, h.staked, fun k sm hsm => ?_, fun k sm k' sm' hsm hsm' hidx => ?_,
    fun k sm r op claim hsm hr hclaim => ?_, h.known⟩
  · rcases get_addContracts hsm with ⟨hmem, -⟩ | hold
    · obtain ⟨i, -, depositTx, rfl, -⟩ := hnew.exists_of_mem hmem
      exact ContractSM.graphsAt_new _ _ _
    · exact h.graphs k sm hold
  · rcases get_addContracts hsm with ⟨hmem, rfl⟩ | hold <;>
      rcases get_addContracts hsm' with ⟨hmem', rfl⟩ | hold'
    · obtain ⟨i, hi, hidx₁⟩ := hplace hmem
      obtain ⟨i', hi', hidx₂⟩ := hplace hmem'
      obtain rfl : i = i' := by omega
      rw [Option.some.inj (hi.symm.trans hi')]
    · obtain ⟨i, -, hidx₁⟩ := hplace hmem
      have := hlt k' sm' hold'
      omega
    · obtain ⟨i', -, hidx₂⟩ := hplace hmem'
      have := hlt k sm hold
      omega
    · exact h.apart k sm k' sm' hold hold' hidx
  · rcases get_addContracts hsm with ⟨hmem, -⟩ | hold
    · obtain ⟨i, -, depositTx, rfl, -⟩ := hnew.exists_of_mem hmem
      cases hr
      simp at hclaim
    · exact h.indexed k sm r op claim hold hr hclaim

theorem processBlock {b : Block} {es : List Emission}
    (hs : (ctx.processBlock env b).next = some (ctx', es)) : Indexed env txs ctx' := by
  have hchain (ev : ContractEvent) (hev : ev.IsChain) : ev.isSetup = false := by
    rcases hev with hev | ⟨height, rfl⟩
    · cases ev <;> first | rfl | cases hev
    · rfl
  have hevolve {ctx₁ : ContractManagerCtx} (hevolves : EvolvesByChain env ctx ctx₁) :
      Indexed env txs ctx₁ :=
    h.of_moves hevolves.toMoves hchain hevolves.stakeChains (by rw [hevolves.frame])
  rcases processBlock_cases hs with hevolves | ⟨ctx₁, sms, hevolves, hnew, rfl⟩
  · exact hevolve hevolves
  · have hadd : Indexed env txs (ctx₁.addContracts env sms) := by
      refine (hevolve hevolves).addContracts hnew fun k sm₁ hsm₁ => ?_
      obtain ⟨sm, hsm, hr⟩ := hevolves.exists_of_get hsm₁
      rw [hr.cfg]
      exact lt_depositIdxOffset hsm
    exact ⟨hadd.params, hadd.sound, hadd.staked, hadd.graphs, hadd.apart, hadd.indexed, hadd.known⟩

theorem commit (key deposit : Txid) :
    Indexed env txs (ctx.commit key deposit) := by
  rw [commit_eq]
  exact ⟨h.params, h.sound, h.staked, h.graphs, h.apart, h.indexed, h.known⟩

end

/-- **The claims of a contract are entered in the index.** What was indexed for other contracts
stays, since their claims are at other places. -/
theorem indexClaims (htxs : env.TxidsDistinct txs) (h : Indexed env txs ctx) {k : Txid}
    {sm' : ContractSM} (hsm : ctx.activeContracts[k]? = some sm) (hcfg : sm'.cfg = sm.cfg)
    (hgraphs : sm'.GraphsAt env ctx.cfg.stakeChainParams txs) {duties : List Emission}
    (hnew : ∀ claim ∈ duties.filterMap fun e => e.duty.nonceClaim,
      ClaimAt env ctx.cfg.stakeChainParams txs sm.cfg.depositIdx claim)
    (hclaims : ∀ r' (op : P2POperatorPubKey) claim, sm'.state.state = .requested r' →
      r'.claimTxids[op]? = some claim →
        claim ∈ (duties.filterMap fun e => e.duty.nonceClaim) ∨ ctx.claimTxids[claim]? = some k) :
    Indexed env txs ((ctx.putContract k sm').indexClaims k duties) := by
  have hget {k' : Txid} {sm₂ : ContractSM}
      (hk' : ((ctx.putContract k sm').indexClaims k duties).activeContracts[k']? = some sm₂) :
      k = k' ∧ sm₂ = sm' ∨ k ≠ k' ∧ ctx.activeContracts[k']? = some sm₂ := by
    have hk' : (ctx.putContract k sm').activeContracts[k']? = some sm₂ := hk'
    rw [putContract, get_insert] at hk'
    split_ifs at hk' with heq
    · exact .inl ⟨heq, (Option.some.inj hk').symm⟩
    · exact .inr ⟨heq, hk'⟩
  -- the contract has the place that it had
  have hold {k' : Txid} {sm₂ : ContractSM}
      (hk' : ((ctx.putContract k sm').indexClaims k duties).activeContracts[k']? = some sm₂) :
      ∃ sm₁, ctx.activeContracts[k']? = some sm₁ ∧ sm₂.cfg = sm₁.cfg := by
    rcases hget hk' with ⟨rfl, rfl⟩ | ⟨-, hk'⟩
    · exact ⟨sm, hsm, hcfg⟩
    · exact ⟨sm₂, hk', rfl⟩
  refine ⟨h.params, h.sound, h.staked, fun k' sm₂ hk' => ?_, fun k₁ sm₁ k₂ sm₂ hk₁ hk₂ hidx => ?_,
    fun k' sm₂ r op claim hk' hr hclaim => ?_, fun claim k' hk' => ?_⟩
  · rcases hget hk' with ⟨-, rfl⟩ | ⟨-, hk'⟩
    · exact hgraphs
    · exact h.graphs k' sm₂ hk'
  · obtain ⟨old₁, hold₁, hcfg₁⟩ := hold hk₁
    obtain ⟨old₂, hold₂, hcfg₂⟩ := hold hk₂
    exact h.apart k₁ old₁ k₂ old₂ hold₁ hold₂ (by rw [← hcfg₁, ← hcfg₂, hidx])
  · rw [get_indexClaims]
    rcases hget hk' with ⟨rfl, rfl⟩ | ⟨hne, hk'⟩
    · rcases hclaims r op claim hr hclaim with hmem | hindexed
      · rw [if_pos hmem]
      · split
        · rfl
        · exact hindexed
    · have hindexed := h.indexed k' sm₂ r op claim hk' hr hclaim
      split
      next hmem =>
        have hidx := (hnew claim hmem).unique htxs
          ((h.graphs k' sm₂ hk' r hr).claims op claim hclaim)
        exact absurd (h.apart k sm k' sm₂ hsm hk' hidx) hne
      next => exact hindexed
  · rw [get_indexClaims] at hk'
    split at hk'
    next hmem => exact ⟨_, hnew claim hmem⟩
    next => exact h.known claim k' hk'

theorem of_keeps (h : Indexed env txs ctx) {stakeChains : StakeChainSM}
    (hsound : stakeChains.Sound env) (hkeeps : ctx.stakeChains.Keeps stakeChains)
    (hstaked : stakeChains.CachedAt env txs) : Indexed env txs { ctx with stakeChains } :=
  ⟨hkeeps.params.trans h.params, hsound, hstaked, h.graphs, h.apart, h.indexed, h.known⟩

theorem setupContract (htxs : env.TxidsDistinct txs) (hspend : env.ClaimsSpend)
    (h : Indexed env txs ctx) {scope : Txid} (hsm : ctx.activeContracts[scope]? = some sm)
    (hstakeMet : ∀ tx ∈ ctx.stakeChains.stakeTxs env key sm.cfg.depositIdx, tx ∈ txs)
    (hclaimsMet : ∀ stakeTx wotsKeys,
      ctx.stakeChains.stakeTx env key sm.cfg.depositIdx = .ok (some stakeTx) →
      Wots.PublicKeys.tryFrom setup.wotsPks = .ok wotsKeys →
        ∀ tx ∈ sm.claimTxs env key setup (stakeTx.computeTxid env) wotsKeys, tx ∈ txs) :
    (ctx.setupContract env key scope sm setup).Leaves (Indexed env txs) := by
  rw [ContractManagerCtx.setupContract]
  split
  · exact h
  · exact h
  next stakeTx hstakeTx =>
  split
  · exact h
  next wotsKeys hwots =>
  have hstake : StakeAt env ctx.cfg.stakeChainParams txs sm.cfg.depositIdx
      (stakeTx.computeTxid env) := by
    rw [← h.params]
    exact StakeChainSM.stakeAt_of_stakeTx (fun prev txid _ htxid => h.staked key prev txid htxid)
      hstakeTx hstakeMet
  have hindex {sm' : ContractSM} {ds : List OperatorDuty}
      (hs : sm.step env (.depositSetup key setup.operatorPk setup.hash (stakeTx.computeTxid env)
        wotsKeys) = some (sm', ds)) (origin : Origin) :
      Indexed env txs ((ctx.putContract scope sm').indexClaims scope
        (ds.map (Emission.mk origin))) := by
    obtain ⟨hgraphs, hnew, hclaims⟩ := (h.graphs scope sm hsm).depositSetup hspend hstake
      (hclaimsMet stakeTx wotsKeys hstakeTx hwots) hs
    have hduties : (ds.map (Emission.mk origin)).filterMap (fun e => e.duty.nonceClaim) =
        ds.filterMap nonceClaim := filterMap_map ..
    refine h.indexClaims htxs hsm (ContractSM.cfg_of_step hs) hgraphs
      (hduties ▸ hnew) fun r' op claim hr' hclaim => ?_
    rw [hduties]
    refine (hclaims r' op claim hr' hclaim).imp_right ?_
    rintro ⟨r, hr, hold⟩
    exact h.indexed scope sm r op claim hsm hr hold
  rw [deliver]
  cases hevent : sm.processContractEvent env (.depositSetup key setup.operatorPk setup.hash
      (stakeTx.computeTxid env) wotsKeys) with
  | panic msg => trivial
  | err sm' e => exact hindex (congrArg next hevent) .request
  | ok sm' ds =>
    have hindexed := hindex (congrArg next hevent)
    simp only [embed_ok, map_ok, bind_ok]
    split
    · exact hindexed _
    · exact (hindexed _).commit scope scope

theorem processDepositSetup (htxs : env.TxidsDistinct txs) (hspend : env.ClaimsSpend)
    (h : Indexed env txs ctx) {scope : Txid}
    (hmet : ∀ tx ∈ ctx.setupBuilds env key scope setup, tx ∈ txs) :
    (ctx.processDepositSetup env key scope setup).Leaves (Indexed env txs) := by
  rw [ContractManagerCtx.processDepositSetup]
  split
  · exact h
  next sm hsm =>
  have hstaked : (ctx.stakeChains.processSetup env key setup).Leaves fun sc =>
      sc.CachedAt env txs := by
    refine h.staked.processSetup h.sound fun sc txid hok tx htx => hmet tx ?_
    simp only [setupBuilds, hsm, hok, mem_append]
    exact .inl (.inl htx)
  have hkeeps := h.sound.processSetup key setup
  cases hsetup : ctx.stakeChains.processSetup env key setup with
  | panic msg => trivial
  | err stakeChains e =>
    rw [hsetup] at hkeeps hstaked
    exact h.of_keeps hkeeps.1 hkeeps.2 hstaked
  | ok stakeChains txid =>
    rw [hsetup] at hkeeps hstaked
    have h' := h.of_keeps hkeeps.1 hkeeps.2 hstaked
    cases txid with
    | none => exact h'
    | some txid =>
      refine h'.setupContract htxs hspend hsm (fun tx htx => hmet tx ?_)
        fun stakeTx wotsKeys hstakeTx hwots tx htx => hmet tx ?_
      · simp only [setupBuilds, hsm, hsetup, mem_append]
        exact .inl (.inr htx)
      · simp only [setupBuilds, hsm, hsetup, hstakeTx, hwots, mem_append]
        exact .inr htx

/-- **Every input keeps the index right.** -/
theorem serve (htxs : env.TxidsDistinct txs) (hspend : env.ClaimsSpend) (h : Indexed env txs ctx)
    {i : Input} {es : List Emission} (hmet : ctx.MeetsOnly env txs i)
    (hs : ctx.serve env i = some (ctx', es)) : Indexed env txs ctx' := by
  cases i with
  | block b => exact h.processBlock hs
  | request req => rwa [serve_request hs]
  | message key msg =>
    have hsession (ev : ContractEvent) (hev : ev.isSession = true) (_ : ev.sender = some key) :
        ev.isSetup = false := by
      cases ev <;> first | rfl | cases hev
    rw [ContractManagerCtx.serve, processP2pMessage] at hs
    split at hs
    · cases hs
    cases msg with
    | stakeChainExchange preStakeTxid preStakeVout =>
      cases hs
      exact h.of_keeps (h.sound.processExchange key ⟨preStakeTxid, preStakeVout⟩)
        (ctx.stakeChains.keeps_processExchange key ⟨preStakeTxid, preStakeVout⟩)
        (h.staked.processExchange key ⟨preStakeTxid, preStakeVout⟩)
    | depositSetup scope setup => exact (h.processDepositSetup htxs hspend hmet).of_next hs
    | musig2NoncesExchange sessionId nonces =>
      have hmoves := (processNonces_movesInSession env ctx hsession sessionId nonces).of_next hs
      exact h.of_moves hmoves.toMoves (fun _ h => h) hmoves.stakeChains hmoves.claimTxids
    | musig2SignaturesExchange sessionId sigs =>
      have hmoves := (processSignatures_movesInSession env ctx hsession sessionId sigs).of_next hs
      exact h.of_moves hmoves.toMoves (fun _ h => h) hmoves.stakeChains hmoves.claimTxids

end Indexed

/-- **The index is right in every run** in which txids tell the transactions apart. -/
theorem indexed_of_reachable {env : Env} {cfg : ExecutionConfig} {ctx : ContractManagerCtx}
    (htxs : env.TxidsDistinct txs) (hspend : env.ClaimsSpend)
    (hreach : Reachable (ContractManagerCtx.serve env) (MeetsOnly env txs) (.new cfg) ctx) :
    Indexed env txs ctx :=
  hreach.invariant (I := Indexed env txs) (.new env txs cfg)
    fun _ _ _ _ h hmet hs => h.serve htxs hspend hmet hs

end ContractManagerCtx

end StrataBridge
