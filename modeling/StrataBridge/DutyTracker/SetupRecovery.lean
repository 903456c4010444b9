import StrataBridge.DutyTracker.ClaimIndex
import StrataBridge.DutyTracker.ContractOrigins
import StrataBridge.Instance.LinearGraph

/-!
# Recovery of deposit setups

Announcements of operators may come out of order. One that comes too early is rejected, but the
stake chain keeps its input, and a contract may have the data of some operators and not of others.
Whatever such announcements have left behind, one more round of them completes the setup: if every
operator announces its data for the deposits in the order of their indices, then all announcements
are taken, all stake transactions are known, every contract has the graphs of all operators, and
the index leads from their claims to the contract.

## Main definitions

* `ContractManagerCtx.IsRound`: a round of announcements
* `ContractManagerCtx.SetupComplete`: all setups are complete

## Main results

* `ContractManagerCtx.setup_round_recovers`: a round completes all setups

## References

* `crates/duty-tracker/src/contract_manager.rs`, lines 915–1018
* `crates/duty-tracker/src/stake_chain_state_machine.rs`, lines 124–268
* `crates/duty-tracker/src/contract_state_machine.rs`, lines 1634–1792
-/

namespace StrataBridge

open Rust Transition Linear BTreeMap List Std.ExtTreeMap Outcome

variable {env : Env} {ms : List SetupMessage}

variable {m : SetupMessage}

variable {op : P2POperatorPubKey} {sm : ContractSM} {done : List SetupMessage} {n : ℕ}

/-! ### Stake chains -/

/-- **An announcement whose turn it is** is taken by the stake chain: the operator has exchanged
its pre-stake, and the stake transactions before the announced one are known. -/
theorem StakeChainSM.Sound.processSetup_returns {sc : StakeChainSM} (hsound : sc.Sound env)
    {setup : DepositSetup} (hpre : op ∈ sc.stakeChains)
    (hprev : ∀ j < setup.index, (sc.stakeTxid op j).isSome) :
    ∃ sc' txid, sc.processSetup env op setup = .ok sc' (some txid) := by
  obtain ⟨inputs, hinputs⟩ := mem_iff_exists.mp hpre
  rw [StakeChainSM.processSetup]
  cases hcached : sc.stakeTxid op setup.index with
  | some txid => exact ⟨sc, txid, rfl⟩
  | none =>
  rw [hinputs]
  dsimp only
  -- whatever was stored before, the stake transaction is built from the announced input
  have hinput : (sc.insertInput op inputs setup.index setup.stakeTxData).stakeInput op
      setup.index = some setup.stakeTxData :=
    (stakeInput_insertInput hinputs).trans (if_pos ⟨rfl, rfl⟩)
  obtain ⟨tx, htx⟩ : ∃ tx, (sc.insertInput op inputs setup.index setup.stakeTxData).stakeTx env op
      setup.index = .ok (some tx) := by
    cases hidx : setup.index with
    | zero =>
      rw [hidx] at hinput
      obtain ⟨inputs', hinputs', -⟩ := exists_inputs_of_stakeInput hinput
      exact ⟨_, stakeTx_zero hinputs' hinput⟩
    | succ prev =>
      rw [hidx] at hinput
      obtain ⟨txid, htxid⟩ := Option.isSome_iff_exists.mp (hprev prev (by omega))
      obtain ⟨prevInput, hprevInput⟩ :=
        Option.isSome_iff_exists.mp (hsound op prev txid htxid).1
      refine ⟨_, stakeTx_succ_eq_some_iff.mpr ⟨txid, prevInput, setup.stakeTxData, htxid, ?_,
        hinput, rfl⟩⟩
      rw [stakeInput_insertInput hinputs, if_neg (by omega), hprevInput]
  rw [htx]
  exact ⟨_, _, rfl⟩

/-! ### Contracts -/

namespace Requested

variable {cfg : ContractCfg} {r : Requested} {pog : PogCache}

/-- The contract has taken announcements of the given operators: it knows their data, and once it
has taken one and knows the data of all operators, it has their claims. -/
structure Took (table : OperatorTable) (senders : List P2POperatorPubKey) (r : Requested) :
    Prop where
  fromTable : ∀ op ∈ r.pegOutGraphInputs, op ∈ table.p2pKey
  inputs : ∀ op ∈ senders, op ∈ r.pegOutGraphInputs
  claims : senders ≠ [] → (∀ op ∈ table.p2pKey, op ∈ r.pegOutGraphInputs) →
    ∀ op ∈ table.p2pKey, op ∈ r.claimTxids

theorem Took.processDepositSetup {senders : List P2POperatorPubKey}
    (h : r.Took cfg.operatorTable senders) {signer : P2POperatorPubKey}
    (hsigner : signer ∈ cfg.operatorTable.p2pKey) (operatorPubkey : XOnlyPublicKey)
    (stakeHash : Sha256Hash) (stakeTxid : Txid) (wotsKeys : Wots.PublicKeys) :
    (r.processDepositSetup env cfg pog signer operatorPubkey stakeHash stakeTxid wotsKeys).Leaves
      fun p => p.1.Took cfg.operatorTable (senders ++ [signer]) := by
  have hfrom : ∀ op ∈ (r.upsertInput signer operatorPubkey stakeHash stakeTxid
      wotsKeys).pegOutGraphInputs, op ∈ cfg.operatorTable.p2pKey := by
    intro op hop
    rcases mem_upsertInput.mp hop with rfl | hop
    · exact hsigner
    · exact h.fromTable op hop
  have hinputs : ∀ op ∈ senders ++ [signer], op ∈ (r.upsertInput signer operatorPubkey stakeHash
      stakeTxid wotsKeys).pegOutGraphInputs := by
    intro op hop
    rcases mem_append.mp hop with hop | hop
    · exact mem_upsertInput.mpr (.inr (h.inputs op hop))
    · exact mem_upsertInput.mpr (.inl (mem_singleton.mp hop))
  rw [Requested.processDepositSetup]
  split
  next hsize =>
    refine ⟨hfrom, hinputs, fun _ hall => absurd ?_ hsize⟩
    have hkeys := keys_eq fun op => ⟨hfrom op, hall op⟩
    rw [← OperatorTable.size_p2pKey, ← length_keys, hkeys, length_keys]
  next hsize =>
    rw [leaves_ok]
    refine ⟨?_, ?_, fun _ hall op hop => ?_⟩
    · rw [pegOutGraphInputs_foldl_insertGraph]
      exact hfrom
    · rw [pegOutGraphInputs_foldl_insertGraph]
      exact hinputs
    · rw [pegOutGraphInputs_foldl_insertGraph] at hall
      refine (claimTxids_foldl_insertGraph _).mpr (.inr ?_)
      rw [map_fst_allGraphs]
      exact mem_keys.mpr (hall op hop)

end Requested

/-! ### Announcements -/

structure SetupMessage where
  key : P2POperatorPubKey
  scope : Txid
  setup : DepositSetup
  deriving DecidableEq

namespace ContractManagerCtx

def Input.ofSetup (m : SetupMessage) : Input := .message m.key (.depositSetup m.scope m.setup)

def processSetup (env : Env) (ctx : ContractManagerCtx) (m : SetupMessage) :
    ContractManagerCtx.Reply :=
  ctx.processP2pMessage env m.key (.depositSetup m.scope m.setup)

def processSetups (env : Env) : ContractManagerCtx → List SetupMessage → ContractManagerCtx.Reply :=
  forEach (processSetup env)

def requestedAt (ctx : ContractManagerCtx) (idx : ℕ) : Bool :=
  ctx.activeContracts.toList.any fun e => e.2.cfg.depositIdx = idx &&
    match e.2.state.state with
    | .requested _ => true
    | _ => false

/-- **A round of announcements**: for each of the deposits with the indices below `n`, one
well-formed announcement of every operator under the index of the deposit, those of one operator in
the order of the indices and those of different operators in any order. -/
structure IsRound (ctx : ContractManagerCtx) (n : ℕ) (ms : List SetupMessage) : Prop where
  sender : ∀ m ∈ ms, m.key ∈ ctx.cfg.operatorTable.p2pKeys
  contract : ∀ m ∈ ms, ctx.activeContracts[m.scope]?.map (fun sm => sm.cfg.depositIdx) =
    some m.setup.index
  wellFormed : ∀ m ∈ ms, (Wots.PublicKeys.tryFrom m.setup.wotsPks).toOption.isSome
  order : ∀ op ∈ ctx.cfg.operatorTable.p2pKeys,
    (ms.filter fun m => m.key = op).map (fun m => m.setup.index) = range n

instance (ctx : ContractManagerCtx) (n : ℕ) (ms : List SetupMessage) :
    Decidable (ctx.IsRound n ms) :=
  decidable_of_iff ((∀ m ∈ ms, m.key ∈ ctx.cfg.operatorTable.p2pKeys) ∧
    (∀ m ∈ ms, ctx.activeContracts[m.scope]?.map (fun sm => sm.cfg.depositIdx) =
      some m.setup.index) ∧
    (∀ m ∈ ms, (Wots.PublicKeys.tryFrom m.setup.wotsPks).toOption.isSome) ∧
    ∀ op ∈ ctx.cfg.operatorTable.p2pKeys,
      (ms.filter fun m => m.key = op).map (fun m => m.setup.index) = range n)
    ⟨fun h => ⟨h.1, h.2.1, h.2.2.1, h.2.2.2⟩,
      fun h => ⟨h.sender, h.contract, h.wellFormed, h.order⟩⟩

section Recovery

variable {ctx ctx' : ContractManagerCtx}

structure Taken (env : Env) (ctx : ContractManagerCtx) (m : SetupMessage) (sm : ContractSM)
    (r : Requested) (ctx' : ContractManagerCtx) : Prop where
  cfg : ctx'.cfg = ctx.cfg
  sound : ctx'.stakeChains.Sound env
  keeps : ctx.stakeChains.Keeps ctx'.stakeChains
  staked : (ctx'.stakeChains.stakeTxid m.key m.setup.index).isSome
  contracts : ∃ stakeTxid wotsKeys p ds, r.processDepositSetup env sm.cfg sm.pog m.key
      m.setup.operatorPk m.setup.hash stakeTxid wotsKeys = .ok p ds ∧
    ctx'.activeContracts = ctx.activeContracts.insert m.scope (sm.putRequested p)

/-- **An announcement whose turn it is** is taken: by the stake chain, where the stake transactions
before it are known, and by the contract, which is in the requested phase. -/
theorem setup_taken (hsound : ctx.stakeChains.Sound env)
    (hsender : m.key ∈ ctx.cfg.operatorTable.p2pKey) (hpre : m.key ∈ ctx.stakeChains.stakeChains)
    (hprev : ∀ j < m.setup.index, (ctx.stakeChains.stakeTxid m.key j).isSome) {r : Requested}
    (hsm : ctx.activeContracts[m.scope]? = some sm) (hidx : sm.cfg.depositIdx = m.setup.index)
    (hr : sm.state.state = .requested r)
    (hwots : (Wots.PublicKeys.tryFrom m.setup.wotsPks).toOption.isSome) :
    (ctx.processSetup env m).Succeeds fun ctx' _ => Taken env ctx m sm r ctx' := by
  obtain ⟨idx, hkey⟩ := OperatorTable.mem_p2pKey_iff_exists_idx.mp hsender
  obtain ⟨sc, txid, hsetup⟩ := hsound.processSetup_returns hpre hprev
  have hleaves := hsound.processSetup m.key m.setup
  rw [hsetup] at hleaves
  obtain ⟨hsound', hkeeps⟩ := hleaves
  have hcached := (StakeChainSM.stakeTxid_of_processSetup hsetup).1
  obtain ⟨-, stakeTx, hstakeTx, -⟩ := hsound' m.key m.setup.index txid hcached
  obtain ⟨wotsKeys, hwots⟩ := Option.isSome_iff_exists.mp hwots
  have hwots : Wots.PublicKeys.tryFrom m.setup.wotsPks = .ok wotsKeys := by
    cases hkeys : Wots.PublicKeys.tryFrom m.setup.wotsPks with
    | error e => simp [hkeys, Except.toOption] at hwots
    | ok keys =>
      rw [hkeys] at hwots
      rw [Option.some.inj hwots]
  obtain ⟨p, ds, hok, -⟩ := succeeds_iff.mp (r.processDepositSetup_succeeds env sm.cfg
    sm.pog m.key m.setup.operatorPk m.setup.hash (stakeTx.computeTxid env) wotsKeys)
  have hevent : sm.processContractEvent env (.depositSetup m.key m.setup.operatorPk m.setup.hash
      (stakeTx.computeTxid env) wotsKeys) = .ok (sm.putRequested p) ds := by
    rw [ContractSM.processContractEvent_requested hr rfl, hok]
    rfl
  have htaken (ctx' : ContractManagerCtx) (hcfg : ctx'.cfg = ctx.cfg) (hsc : ctx'.stakeChains = sc)
      (hcontracts : ctx'.activeContracts =
        ctx.activeContracts.insert m.scope (sm.putRequested p)) : Taken env ctx m sm r ctx' := by
    subst hsc
    exact ⟨hcfg, hsound', hkeeps, Option.isSome_iff_exists.mpr ⟨txid, hcached⟩,
      _, _, p, ds, hok, hcontracts⟩
  simp only [processSetup, processP2pMessage, hkey, processUnsignedGossipMsg, processDepositSetup,
    hsm, hsetup, setupContract, hidx, hstakeTx, hwots, deliver, hevent, embed_ok,
    map_ok, bind_ok]
  split
  · exact htaken _ rfl rfl rfl
  · rw [commit_eq]
    exact htaken _ rfl rfl rfl

def sendersFor (k : Txid) (ms : List SetupMessage) : List P2POperatorPubKey :=
  (ms.filter fun m => m.scope = k).map SetupMessage.key

theorem sendersFor_concat (k : Txid) (ms : List SetupMessage) (m : SetupMessage) :
    sendersFor k (ms ++ [m]) = sendersFor k ms ++ if m.scope = k then [m.key] else [] := by
  split
  next hk => simp [sendersFor, hk]
  next hk => simp [sendersFor, hk]

/-- How far a round has got: the announcements that are done are taken by the stake chains, and
every contract that was in the requested phase still is, and has taken those that were for it. -/
structure Progressed (env : Env) (ctx₀ : ContractManagerCtx) (done : List SetupMessage)
    (ctx : ContractManagerCtx) : Prop where
  cfg : ctx.cfg = ctx₀.cfg
  sound : ctx.stakeChains.Sound env
  keeps : ctx₀.stakeChains.Keeps ctx.stakeChains
  staked : ∀ m ∈ done, (ctx.stakeChains.stakeTxid m.key m.setup.index).isSome
  contracts : ∀ (k : Txid) sm₀ r₀, ctx₀.activeContracts[k]? = some sm₀ →
    sm₀.state.state = .requested r₀ → ∃ sm r, ctx.activeContracts[k]? = some sm ∧
      sm.cfg = sm₀.cfg ∧ sm.state.state = .requested r ∧
        r.Took sm₀.cfg.operatorTable (sendersFor k done)

theorem Progressed.snoc {ctx₀ : ContractManagerCtx} (h : Progressed env ctx₀ done ctx)
    {r : Requested} (hsm : ctx.activeContracts[m.scope]? = some sm)
    (hr : sm.state.state = .requested r) (hsender : m.key ∈ sm.cfg.operatorTable.p2pKey)
    (ht : Taken env ctx m sm r ctx') : Progressed env ctx₀ (done ++ [m]) ctx' where
  cfg := ht.cfg.trans h.cfg
  sound := ht.sound
  keeps := h.keeps.trans ht.keeps
  staked m' hm' := by
    rcases mem_append.mp hm' with hm' | hm'
    · obtain ⟨txid, htxid⟩ := Option.isSome_iff_exists.mp (h.staked m' hm')
      exact Option.isSome_iff_exists.mpr ⟨txid, ht.keeps.stakeTxid _ _ txid htxid⟩
    · rw [mem_singleton.mp hm']
      exact ht.staked
  contracts k sm₀ r₀ hsm₀ hr₀ := by
    obtain ⟨sm₁, r₁, hsm₁, hcfg, hr₁, htook⟩ := h.contracts k sm₀ r₀ hsm₀ hr₀
    obtain ⟨stakeTxid, wotsKeys, p, ds, hok, hcontracts⟩ := ht.contracts
    rw [hcontracts, sendersFor_concat]
    by_cases hk : m.scope = k
    · subst hk
      obtain rfl := Option.some.inj (hsm.symm.trans hsm₁)
      obtain rfl := ContractState.requested.inj (hr.symm.trans hr₁)
      refine ⟨sm.putRequested p, p.1, get_insert_self _ _ _, hcfg, rfl, ?_⟩
      rw [if_pos rfl, ← hcfg]
      rw [← hcfg] at htook
      have hleaves : (r.processDepositSetup env sm.cfg sm.pog m.key m.setup.operatorPk m.setup.hash
          stakeTxid wotsKeys).Leaves fun p => p.1.Took sm.cfg.operatorTable
            (sendersFor m.scope done ++ [m.key]) :=
        htook.processDepositSetup hsender m.setup.operatorPk m.setup.hash stakeTxid wotsKeys
      rw [hok] at hleaves
      exact hleaves
    · refine ⟨sm₁, r₁, ?_, hcfg, hr₁, ?_⟩
      · rw [get_insert_of_ne _ _ hk, hsm₁]
      · rw [if_neg hk, append_nil]
        exact htook

private theorem exists_mem_of_map_eq_range {α : Type} {l₁ l₂ : List α} {a : α} {f : α → ℕ}
    (h : (l₁ ++ a :: l₂).map f = range n) {j : ℕ} (hj : j < f a) : ∃ b ∈ l₁, f b = j := by
  have hlen : l₁.length + (l₂.length + 1) = n := by simpa using congrArg length h
  have hget (i : ℕ) (hi : i < n) : ((l₁ ++ a :: l₂).map f)[i]? = some i := by
    rw [h, getElem?_range hi]
  have ha : f a = l₁.length := by simpa using hget l₁.length (by omega)
  have hlt : j < l₁.length := ha ▸ hj
  have hb := hget j (by omega)
  rw [getElem?_map, getElem?_append_left hlt, getElem?_eq_getElem hlt] at hb
  exact ⟨l₁[j], getElem_mem hlt, Option.some.inj hb⟩

namespace IsRound

theorem exists_before (h : ctx.IsRound n ms) {rest : List SetupMessage}
    (hms : ms = done ++ m :: rest) {j : ℕ} (hj : j < m.setup.index) :
    ∃ m' ∈ done, m'.key = m.key ∧ m'.setup.index = j := by
  have horder := h.order m.key (h.sender m (by simp [hms]))
  rw [hms, filter_append, filter_cons_of_pos (by simp)] at horder
  obtain ⟨m', hm', hidx⟩ := exists_mem_of_map_eq_range horder hj
  obtain ⟨hmem, hkey⟩ := mem_filter.mp hm'
  exact ⟨m', hmem, of_decide_eq_true hkey, hidx⟩

theorem index_lt (h : ctx.IsRound n ms) (hm : m ∈ ms) : m.setup.index < n := by
  have hmem : m.setup.index ∈ (ms.filter fun m' => m'.key = m.key).map fun m => m.setup.index :=
    mem_map_of_mem (mem_filter.mpr ⟨hm, by simp⟩)
  rw [h.order m.key (h.sender m hm)] at hmem
  exact mem_range.mp hmem

theorem exists_mem (h : ctx.IsRound n ms) (hop : op ∈ ctx.cfg.operatorTable.p2pKeys) {i : ℕ}
    (hi : i < n) : ∃ m ∈ ms, m.key = op ∧ m.setup.index = i := by
  have hmem : i ∈ (ms.filter fun m => m.key = op).map fun m => m.setup.index := by
    rw [h.order op hop]
    exact mem_range.mpr hi
  obtain ⟨m, hm, hidx⟩ := mem_map.mp hmem
  obtain ⟨hmem, hkey⟩ := mem_filter.mp hm
  exact ⟨m, hmem, of_decide_eq_true hkey, hidx⟩

end IsRound

theorem Indexed.exists_requested {txs : List Transaction} (h : Indexed env txs ctx) {k : Txid}
    (hsm : ctx.activeContracts[k]? = some sm)
    (hrequested : ctx.requestedAt sm.cfg.depositIdx = true) :
    ∃ r, sm.state.state = .requested r := by
  obtain ⟨⟨k', sm'⟩, hmem, hcond⟩ := any_eq_true.mp hrequested
  obtain ⟨hidx, hphase⟩ := (Bool.and_eq_true _ _).mp hcond
  have hsm' := mem_toList.mp hmem
  obtain rfl := h.apart k sm k' sm' hsm hsm' (of_decide_eq_true hidx).symm
  obtain rfl := Option.some.inj (hsm.symm.trans hsm')
  split at hphase
  next r hr => exact ⟨r, hr⟩
  next => cases hphase

theorem IsRound.exists_contract (h : ctx.IsRound n ms) (hm : m ∈ ms) :
    ∃ sm, ctx.activeContracts[m.scope]? = some sm ∧ sm.cfg.depositIdx = m.setup.index :=
  Option.map_eq_some_iff.mp (h.contract m hm)

theorem IsRound.mem_sendersFor {txs : List Transaction} (h : ctx.IsRound n ms)
    (hindexed : Indexed env txs ctx) {k : Txid} (hsm : ctx.activeContracts[k]? = some sm)
    (hlt : sm.cfg.depositIdx < n) (hop : op ∈ ctx.cfg.operatorTable.p2pKeys) :
    op ∈ sendersFor k ms := by
  obtain ⟨m, hm, rfl, hidx⟩ := h.exists_mem hop hlt
  obtain ⟨sm', hsm', hidx'⟩ := h.exists_contract hm
  have hk := hindexed.apart m.scope sm' k sm hsm' hsm (hidx'.trans hidx)
  exact mem_map_of_mem (mem_filter.mpr ⟨hm, decide_eq_true hk⟩)

theorem Progressed.refl (env : Env) (hsound : ctx.stakeChains.Sound env)
    (horigin : ∀ (k : Txid) sm, ctx.activeContracts[k]? = some sm → ctx.HasOrigin env sm) :
    Progressed env ctx [] ctx where
  cfg := rfl
  sound := hsound
  keeps := .refl _
  staked m hm := by cases hm
  contracts k sm r hsm hr := by
    obtain ⟨idx, depositTx, height, deadline, horigin⟩ := horigin k sm hsm
    refine ⟨sm, r, hsm, rfl, hr, fun op hop => ?_, fun op hop => (by cases hop),
      fun hne => absurd rfl hne⟩
    rw [horigin.cfg_eq]
    exact horigin.mem_table hr hop

section Round

variable {txs : List Transaction} {cfg : ExecutionConfig} {ctx₀ : ContractManagerCtx}
  (hindexed : Indexed env txs ctx₀)
  (horigin : ∀ (k : Txid) sm, ctx₀.activeContracts[k]? = some sm → ctx₀.HasOrigin env sm)
  (hpre : ∀ op ∈ ctx₀.cfg.operatorTable.p2pKeys, op ∈ ctx₀.stakeChains.stakeChains)
  (hrequested : ∀ i < n, ctx₀.requestedAt i = true) (hround : ctx₀.IsRound n ms)

include hindexed horigin hpre hrequested hround

/-- **The announcements of a round are taken**, one after the other. -/
theorem Progressed.processSetups {rest : List SetupMessage} (hms : ms = done ++ rest)
    (h : Progressed env ctx₀ done ctx)
    (hreach : Reachable (serve env) (MeetsOnly env txs) (.new cfg) ctx)
    (hmet : Along (serve env) (MeetsOnly env txs) ctx (rest.map .ofSetup)) :
    (ctx.processSetups env rest).Succeeds fun ctx' _ => Progressed env ctx₀ ms ctx' ∧
      Reachable (serve env) (MeetsOnly env txs) (.new cfg) ctx' := by
  induction rest generalizing done ctx with
  | nil =>
    rw [append_nil] at hms
    exact ⟨hms ▸ h, hreach⟩
  | cons m rest ih =>
    have hm : m ∈ ms := by simp [hms]
    obtain ⟨sm₀, hsm₀, hidx⟩ := hround.exists_contract hm
    obtain ⟨r₀, hr₀⟩ := hindexed.exists_requested hsm₀ (hidx ▸ hrequested _ (hround.index_lt hm))
    obtain ⟨sm, r, hsm, hcfg, hr, -⟩ := h.contracts m.scope sm₀ r₀ hsm₀ hr₀
    have hsender : m.key ∈ ctx₀.cfg.operatorTable.p2pKey :=
      mem_keys.mp (hround.sender m hm)
    have hpre' : m.key ∈ ctx.stakeChains.stakeChains := by
      obtain ⟨inputs, hinputs⟩ := mem_iff_exists.mp (hpre m.key (hround.sender m hm))
      obtain ⟨inputs', hinputs', -⟩ := h.keeps.preStake m.key inputs hinputs
      exact mem_iff_exists.mpr ⟨inputs', hinputs'⟩
    -- it is the turn of the announcement, since those before it are done
    have hprev : ∀ j < m.setup.index, (ctx.stakeChains.stakeTxid m.key j).isSome := by
      intro j hj
      obtain ⟨m', hm', hkey, rfl⟩ := hround.exists_before hms hj
      exact hkey ▸ h.staked m' hm'
    obtain ⟨ctx', es, hok, htaken⟩ := succeeds_iff.mp
      (setup_taken h.sound (h.cfg ▸ hsender) hpre' hprev hsm (hcfg ▸ hidx) hr
        (hround.wellFormed m hm))
    have hstep : ctx.serve env (.ofSetup m) = some (ctx', es) := congrArg next hok
    have hms' : ms = (done ++ [m]) ++ rest := by rw [hms, append_assoc, singleton_append]
    have hsender' : m.key ∈ sm.cfg.operatorTable.p2pKey := by
      rw [hcfg, (horigin m.scope sm₀ hsm₀).operatorTable_eq]
      exact hsender
    rw [ContractManagerCtx.processSetups, forEach, hok, bind_ok, succeeds_map]
    exact ih hms' (h.snoc hsm hr hsender' htaken) (hreach.snoc hmet.1 hstep)
      (hmet.2 (ctx', es) hstep)

end Round

end Recovery

/-- The setup of the deposits with indices below `n` is complete: the stake transactions of all
operators are known, and each of the contracts has a graph input and a claim of every operator,
where the index leads from the claim to the contract. -/
structure SetupComplete (ctx : ContractManagerCtx) (n : ℕ) (ctx' : ContractManagerCtx) : Prop where
  stakes : ∀ op ∈ ctx.cfg.operatorTable.p2pKeys, ∀ i < n, (ctx'.stakeChains.stakeTxid op i).isSome
  contracts : ∀ (k : Txid) sm, ctx.activeContracts[k]? = some sm → sm.cfg.depositIdx < n →
    ∃ sm' r, ctx'.activeContracts[k]? = some sm' ∧ sm'.cfg = sm.cfg ∧
      sm'.state.state = .requested r ∧ ∀ op ∈ ctx.cfg.operatorTable.p2pKeys,
        op ∈ r.pegOutGraphInputs ∧ ∃ claim : Txid, r.claimTxids[op]? = some claim ∧
          ctx'.claimTxids[claim]? = some k

/-- **A round of announcements completes the setup.** In every state that a run of the manager
leads to, whatever announcements came before, let the pre-stakes of all operators be known and the
contracts of the deposits with indices below `n` be in the requested phase. If every operator then
announces its data for these deposits, in the order of their indices, every announcement is
processed without an error, and in the end the setup is complete. That txids tell transactions
apart is assumed of those that the manager meets. -/
theorem setup_round_recovers {env : GraphEnv} (henv : env.Taproot) (hgen : env.Generates)
    {txs : List Transaction} (htxs : env.toEnv.TxidsDistinct txs) {cfg : ExecutionConfig}
    {ctx : ContractManagerCtx}
    (hreach : Reachable (serve env.toEnv) (MeetsOnly env.toEnv txs) (.new cfg) ctx)
    (hpre : ∀ op ∈ ctx.cfg.operatorTable.p2pKeys, op ∈ ctx.stakeChains.stakeChains)
    (hrequested : ∀ i < n, ctx.requestedAt i = true) (hround : ctx.IsRound n ms)
    (hmet : Along (serve env.toEnv) (MeetsOnly env.toEnv txs) ctx (ms.map .ofSetup)) :
    (ctx.processSetups env.toEnv ms).Succeeds fun ctx' _ => ctx.SetupComplete n ctx' := by
  have hspend := GraphEnv.claimsSpend henv hgen
  have hindexed := indexed_of_reachable htxs hspend hreach
  have horigin (k : Txid) (sm : ContractSM) (hsm : ctx.activeContracts[k]? = some sm) :
      ctx.HasOrigin env.toEnv sm := hasOrigin_of_reachable hreach hsm
  have hprogress := Progressed.processSetups hindexed horigin hpre hrequested hround rfl
    (.refl env.toEnv hindexed.sound horigin) hreach hmet
  refine hprogress.mono fun ctx' _ hend => ⟨fun op hop i hi => ?_, fun k sm hsm hlt => ?_⟩
  · obtain ⟨m, hm, rfl, rfl⟩ := hround.exists_mem hop hi
    exact hend.1.staked m hm
  · obtain ⟨r, hr⟩ := hindexed.exists_requested hsm (hrequested _ hlt)
    obtain ⟨sm', r', hsm', hcfg, hr', htook⟩ := hend.1.contracts k sm r hsm hr
    rw [(horigin k sm hsm).operatorTable_eq] at htook
    have hsenders (op : P2POperatorPubKey) (hop : op ∈ ctx.cfg.operatorTable.p2pKeys) :
        op ∈ sendersFor k ms := hround.mem_sendersFor hindexed hsm hlt hop
    have hclaims := htook.claims
      (ne_nil_of_mem (hsenders _ (mem_keys.mpr OperatorTable.povP2pKey_mem)))
      fun op hop => htook.inputs op (hsenders op (mem_keys.mpr hop))
    refine ⟨sm', r', hsm', hcfg, hr', fun op hop => ⟨htook.inputs op (hsenders op hop), ?_⟩⟩
    obtain ⟨claim, hclaim⟩ :=
      mem_iff_exists.mp (hclaims op (mem_keys.mp hop))
    exact ⟨claim, hclaim, (indexed_of_reachable htxs hspend hend.2).indexed k sm' r' op claim hsm'
      hr' hclaim⟩

private def recoveryDeposit (idx : ℕ) : Txid :=
  depositTxidIn graphEnv.toEnv oneOperator (5 + idx) idx

private def earlyInputs : List Input :=
  [exchange 0,
    block 100 ([5, 6].map (requestTxIn graphEnv.toEnv oneOperator)),
    announce 0 (recoveryDeposit 1) 1 41 true]

private def recoveryRound : List SetupMessage :=
  [⟨⟨10⟩, recoveryDeposit 0, depositSetup 0 0 40 true⟩,
    ⟨⟨10⟩, recoveryDeposit 1, depositSetup 0 1 41 true⟩]

/-- An announcement came too early: its input is stored, but no stake transaction is known. A round
completes the setup of both deposits. -/
theorem setup_round_recovers_early : ∃ ctx,
    Reachable (serve graphEnv.toEnv) (fun _ _ => True) (manager oneOperator) ctx ∧
    (ctx.stakeChains.stakeInput ⟨10⟩ 1).isSome ∧ ctx.stakeChains.stakeTxid ⟨10⟩ 1 = none ∧
    ctx.IsRound 2 recoveryRound ∧
    (ctx.processSetups graphEnv.toEnv recoveryRound).Succeeds fun ctx' _ =>
      ctx.SetupComplete 2 ctx' := by
  have hfound : (exec (serve graphEnv.toEnv) (fun _ _ => True)
      (manager oneOperator) earlyInputs).any (fun e : ContractManagerCtx × List Emission =>
        decide (∀ op ∈ e.1.cfg.operatorTable.p2pKeys, op ∈ e.1.stakeChains.stakeChains) &&
        decide (∀ i : ℕ, i < 2 → e.1.requestedAt i = true) &&
        decide (e.1.IsRound 2 recoveryRound) &&
        (e.1.stakeChains.stakeInput ⟨10⟩ 1).isSome &&
        (e.1.stakeChains.stakeTxid ⟨10⟩ 1).isNone) = true := by decide +kernel
  obtain ⟨⟨ctx, es⟩, hexec, hfound⟩ := (Option.any_eq_true _ _).mp hfound
  simp only [Bool.and_eq_true, decide_eq_true_eq, Option.isNone_iff_eq_none] at hfound
  obtain ⟨⟨⟨⟨hpre, hrequested⟩, hround⟩, hinput⟩, hnone⟩ := hfound
  -- the transactions of the whole run
  have hdistinct : graphEnv.toEnv.TxidsDistinct
      (observed (serve graphEnv.toEnv) (builds graphEnv.toEnv)
        (manager oneOperator) (earlyInputs ++ recoveryRound.map .ofSetup)) := by
    decide +kernel
  generalize htxs : observed (serve graphEnv.toEnv) (builds graphEnv.toEnv)
    (manager oneOperator) (earlyInputs ++ recoveryRound.map .ofSetup) = txs
    at hdistinct
  have hmet : Along (serve graphEnv.toEnv) (MeetsOnly graphEnv.toEnv txs)
      (manager oneOperator) (earlyInputs ++ recoveryRound.map .ofSetup) :=
    along_of_observed fun tx htx => htxs ▸ htx
  obtain ⟨hearly, hlate⟩ := hmet.append hexec
  have hreach := (Reachable.of_along .refl hearly hexec).mono fun _ _ h => h.1
  have hrun : Run (serve graphEnv.toEnv) (fun _ _ => True)
      (manager oneOperator) ([] ++ es) ctx := .append_exec earlyInputs .nil hexec
  exact ⟨ctx, ⟨_, hrun⟩, hinput, hnone, hround,
    setup_round_recovers taproot generates hdistinct hreach hpre hrequested hround hlate⟩

end ContractManagerCtx

end StrataBridge
