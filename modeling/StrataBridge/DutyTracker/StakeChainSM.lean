import StrataBridge.DutyTracker.ContractState

/-!
# The state machine of the stake chains

For every operator the machine keeps the inputs of the operator's stake transactions, as they
were announced, and a cache of the txids of the stake transactions that could be built. A stake
transaction is built from its own input and from the cached txid of the one before it.

## References

* `crates/duty-tracker/src/stake_chain_state_machine.rs`
-/

namespace StrataBridge

open Rust BTreeMap

variable {txid : Txid}

variable {inputs : StakeChainInputs} {sm' : StakeChainSM}

/-- `DepositSetup` (`contract_state_machine.rs`, lines 62–79). -/
structure DepositSetup where
  index : ℕ
  hash : Sha256Hash
  fundingOutpoint : OutPoint
  operatorPk : XOnlyPublicKey
  wotsPks : WotsPublicKeys
  deriving DecidableEq, Repr

/-- `DepositSetup::stake_tx_data` (`contract_state_machine.rs`, lines 81–93). -/
def DepositSetup.stakeTxData (setup : DepositSetup) : StakeTxData where
  operatorFunds := setup.fundingOutpoint
  hash := setup.hash
  withdrawalFulfillmentPk := setup.wotsPks.withdrawalFulfillment
  operatorPubkey := setup.operatorPk

/-- `StakeChainErr` (`errors.rs`, lines 82–113), the errors of the two transitions. -/
inductive StakeChainErr where
  | missingStakeTxid (op : P2POperatorPubKey) (idx : ℕ)
  | incompleteStakeChainInput (op : P2POperatorPubKey) (idx : ℕ)
  | stakeSetupDataNotFound (op : P2POperatorPubKey)
  | stakeTxNotFound (op : P2POperatorPubKey) (idx : ℕ)
  deriving DecidableEq, Repr

/-- `StakeChainSM` (lines 20–26). -/
structure StakeChainSM where
  network : Network
  params : StakeChainParams
  operatorTable : OperatorTable
  stakeChains : BTreeMap P2POperatorPubKey StakeChainInputs
  stakeTxids : BTreeMap P2POperatorPubKey (BTreeMap ℕ Txid)

namespace StakeChainSM

/-- `StakeChainSM::new`. -/
def new (network : Network) (operatorTable : OperatorTable) (params : StakeChainParams) :
    StakeChainSM :=
  { network, params, operatorTable, stakeChains := ∅, stakeTxids := ∅ }

/-- `StakeChainSM::process_exchange` (lines 97–115): a second exchange of an operator is put back to
the first. -/
def processExchange (sm : StakeChainSM) (op : P2POperatorPubKey) (preStakeOutpoint : OutPoint) :
    StakeChainSM :=
  let inputs := sm.stakeChains.insert op ⟨∅, preStakeOutpoint⟩
  match sm.stakeChains[op]? with
  | some old => { sm with stakeChains := inputs.insert op old }
  | none => { sm with stakeChains := inputs }

/-- `StakeChainSM::stake_txid`. -/
def stakeTxid (sm : StakeChainSM) (op : P2POperatorPubKey) (idx : ℕ) : Option Txid :=
  sm.stakeTxids[op]?.bind fun txids => txids[idx]?

def stakeInput (sm : StakeChainSM) (op : P2POperatorPubKey) (idx : ℕ) : Option StakeTxData :=
  sm.stakeChains[op]?.bind fun inputs => inputs.stakeInputs[idx]?

section Build

variable (env : Env)

/-- The first stake transaction, from the first of the stored inputs (lines 208–232). -/
def headTx (sm : StakeChainSM) (op : P2POperatorPubKey) (inputs : StakeChainInputs) :
    Except StakeChainErr StakeTx :=
  match (vals inputs.stakeInputs).head? with
  | none => .error (.stakeTxNotFound op 0)
  | some input => .ok (StakeTx.newHead env (sm.operatorTable.txBuildContext sm.network) sm.params
      input.hash input.withdrawalFulfillmentPk inputs.preStakeOutpoint input.operatorFunds
      input.operatorPubkey)

/-- A later stake transaction (lines 234–262). -/
def tailTx (sm : StakeChainSM) (op : P2POperatorPubKey) (inputs : StakeChainInputs) (prev : ℕ) :
    Except StakeChainErr StakeTx :=
  match sm.stakeTxids[op]? with
  | none => .error (.stakeTxNotFound op (prev + 1))
  | some txids =>
    match txids[prev]? with
    | none => .error (.missingStakeTxid op prev)
    | some prevStakeTxid =>
      match inputs.stakeInputs[prev]? with
      | none => .error (.incompleteStakeChainInput op prev)
      | some prevInput =>
        match inputs.stakeInputs[prev + 1]? with
        | none => .error (.incompleteStakeChainInput op (prev + 1))
        | some input => .ok (StakeTx.newTail env (sm.operatorTable.txBuildContext sm.network)
            sm.params input prevInput.hash ⟨prevStakeTxid, stakeVout⟩)

/-- `StakeChainSM::stake_tx` (lines 199–266). -/
def stakeTx (sm : StakeChainSM) (op : P2POperatorPubKey) (nth : ℕ) :
    Except StakeChainErr (Option StakeTxKind) :=
  match sm.stakeChains[op]? with
  | none => .ok none
  | some inputs =>
    match nth with
    | 0 => (sm.headTx env op inputs).map fun tx => some (.head tx)
    | prev + 1 => (sm.tailTx env op inputs prev).map fun tx => some (.tail tx)

def insertInput (sm : StakeChainSM) (op : P2POperatorPubKey) (inputs : StakeChainInputs)
    (idx : ℕ) (data : StakeTxData) : StakeChainSM :=
  { sm with
    stakeChains := sm.stakeChains.insert op
      { inputs with stakeInputs := inputs.stakeInputs.insert idx data } }

def cacheTxid (sm : StakeChainSM) (op : P2POperatorPubKey) (idx : ℕ) (txid : Txid) :
    StakeChainSM :=
  { sm with
    stakeTxids := sm.stakeTxids.insert op ((sm.stakeTxids[op]?.getD ∅).insert idx txid) }

/-- `StakeChainSM::process_setup` (lines 124–173): an index with a cached txid is left alone;
otherwise the input is stored, also when the stake transaction cannot be built yet. -/
def processSetup (sm : StakeChainSM) (op : P2POperatorPubKey) (setup : DepositSetup) :
    Outcome StakeChainSM StakeChainErr (Option Txid) :=
  match sm.stakeTxid op setup.index with
  | some txid => .ok sm (some txid)
  | none =>
    match sm.stakeChains[op]? with
    | none => .err sm (.stakeSetupDataNotFound op)
    | some inputs =>
      let sm := sm.insertInput op inputs setup.index setup.stakeTxData
      match sm.stakeTx env op setup.index with
      | .error e => .err sm e
      | .ok none => .ok sm none
      | .ok (some tx) => .ok (sm.cacheTxid op setup.index (tx.computeTxid env))
          (some (tx.computeTxid env))

end Build

/-! ### Lookups after an update -/

variable {env : Env} {sm : StakeChainSM} {op op' : P2POperatorPubKey} {idx idx' : ℕ}

theorem stakeTxid_cacheTxid :
    (sm.cacheTxid op idx txid).stakeTxid op' idx' =
      if op' = op ∧ idx' = idx then some txid else sm.stakeTxid op' idx' := by
  rw [stakeTxid, cacheTxid, get_insert]
  by_cases hop : op = op'
  · subst hop
    rw [if_pos rfl, Option.bind_some, get_insert]
    by_cases hidx : idx = idx'
    · simp [hidx]
    · have : ¬(op = op ∧ idx' = idx) := fun h => hidx h.2.symm
      rw [if_neg hidx, if_neg this, stakeTxid]
      cases sm.stakeTxids[op]? with
      | none => simp
      | some txids => rfl
  · have : ¬(op' = op ∧ idx' = idx) := fun h => hop h.1.symm
    rw [if_neg hop, if_neg this, stakeTxid]

theorem stakeInput_insertInput {data : StakeTxData} (hinputs : sm.stakeChains[op]? = some inputs) :
    (sm.insertInput op inputs idx data).stakeInput op' idx' =
      if op' = op ∧ idx' = idx then some data else sm.stakeInput op' idx' := by
  rw [stakeInput, insertInput, get_insert]
  by_cases hop : op = op'
  · subst hop
    rw [if_pos rfl, Option.bind_some, get_insert]
    by_cases hidx : idx = idx'
    · simp [hidx]
    · have : ¬(op = op ∧ idx' = idx) := fun h => hidx h.2.symm
      rw [if_neg hidx, if_neg this, stakeInput, hinputs, Option.bind_some]
  · have : ¬(op' = op ∧ idx' = idx) := fun h => hop h.1.symm
    rw [if_neg hop, if_neg this, stakeInput]

/-! ### Building stake transactions from lookups -/

theorem exists_inputs_of_stakeInput {input : StakeTxData} (h : sm.stakeInput op idx = some input) :
    ∃ inputs, sm.stakeChains[op]? = some inputs ∧ inputs.stakeInputs[idx]? = some input :=
  Option.bind_eq_some_iff.mp h

theorem stakeTx_zero {input : StakeTxData} (hinputs : sm.stakeChains[op]? = some inputs)
    (hinput : sm.stakeInput op 0 = some input) :
    sm.stakeTx env op 0 = .ok (some (.head (StakeTx.newHead env
      (sm.operatorTable.txBuildContext sm.network) sm.params input.hash
      input.withdrawalFulfillmentPk inputs.preStakeOutpoint input.operatorFunds
      input.operatorPubkey))) := by
  rw [stakeInput, hinputs] at hinput
  simp only [stakeTx, hinputs, headTx, head?_vals_of_zero hinput]
  rfl

theorem stakeTx_succ_eq_some_iff {prev : ℕ} {tx : StakeTxKind} :
    sm.stakeTx env op (prev + 1) = .ok (some tx) ↔
      ∃ txid prevInput input, sm.stakeTxid op prev = some txid ∧
        sm.stakeInput op prev = some prevInput ∧ sm.stakeInput op (prev + 1) = some input ∧
        tx = .tail (StakeTx.newTail env (sm.operatorTable.txBuildContext sm.network) sm.params
          input prevInput.hash ⟨txid, stakeVout⟩) := by
  rw [stakeTx, stakeTxid, stakeInput, stakeInput]
  cases hinputs : sm.stakeChains[op]? with
  | none => simp
  | some inputs =>
  dsimp only
  rw [tailTx]
  cases htxids : sm.stakeTxids[op]? with
  | none => simp [Except.map]
  | some txids =>
  cases htxid : txids[prev]? with
  | none => simp [htxid, Except.map]
  | some txid =>
  cases hprev : inputs.stakeInputs[prev]? with
  | none => simp [htxid, hprev, Except.map]
  | some prevInput =>
  cases hinput : inputs.stakeInputs[prev + 1]? with
  | none => simp [htxid, hinput, Except.map]
  | some input => simp [htxid, hprev, hinput, Except.map, eq_comm]

/-! ### The cache is sound -/

/-- Every cached txid is that of the stake transaction built from the stored inputs, and the
input at its index is stored. -/
def Sound (env : Env) (sm : StakeChainSM) : Prop :=
  ∀ op idx txid, sm.stakeTxid op idx = some txid →
    (sm.stakeInput op idx).isSome ∧
      ∃ tx, sm.stakeTx env op idx = .ok (some tx) ∧ tx.computeTxid env = txid

/-- The machine only grows: pre-stakes stay, and so do cached txids with their inputs. -/
structure Keeps (sm sm' : StakeChainSM) : Prop where
  network : sm'.network = sm.network
  params : sm'.params = sm.params
  operatorTable : sm'.operatorTable = sm.operatorTable
  preStake : ∀ (op : P2POperatorPubKey) (inputs : StakeChainInputs),
    sm.stakeChains[op]? = some inputs → ∃ inputs' : StakeChainInputs,
      sm'.stakeChains[op]? = some inputs' ∧ inputs'.preStakeOutpoint = inputs.preStakeOutpoint
  stakeTxid : ∀ op idx txid, sm.stakeTxid op idx = some txid → sm'.stakeTxid op idx = some txid
  stakeInput : ∀ op idx txid, sm.stakeTxid op idx = some txid →
    sm'.stakeInput op idx = sm.stakeInput op idx

theorem Keeps.refl (sm : StakeChainSM) : sm.Keeps sm :=
  ⟨rfl, rfl, rfl, fun _ inputs h => ⟨inputs, h, rfl⟩, fun _ _ _ h => h, fun _ _ _ _ => rfl⟩

theorem Keeps.trans {sm'' : StakeChainSM} (h : sm.Keeps sm') (h' : sm'.Keeps sm'') :
    sm.Keeps sm'' where
  network := h'.network.trans h.network
  params := h'.params.trans h.params
  operatorTable := h'.operatorTable.trans h.operatorTable
  preStake op inputs hi := by
    obtain ⟨inputs', hi', heq⟩ := h.preStake op inputs hi
    obtain ⟨inputs'', hi'', heq'⟩ := h'.preStake op inputs' hi'
    exact ⟨inputs'', hi'', heq'.trans heq⟩
  stakeTxid op idx txid hc := h'.stakeTxid op idx txid (h.stakeTxid op idx txid hc)
  stakeInput op idx txid hc :=
    (h'.stakeInput op idx txid (h.stakeTxid op idx txid hc)).trans (h.stakeInput op idx txid hc)

/-- **Stake transactions do not change once they are cached.** -/
theorem Keeps.stakeTx (h : sm.Keeps sm') (hsound : sm.Sound env)
    (hcached : sm.stakeTxid op idx = some txid) :
    sm'.stakeTx env op idx = sm.stakeTx env op idx := by
  obtain ⟨hsome, tx, htx, -⟩ := hsound op idx txid hcached
  obtain ⟨input, hinput⟩ := Option.isSome_iff_exists.mp hsome
  have hinput' : sm'.stakeInput op idx = some input :=
    (h.stakeInput op idx txid hcached).trans hinput
  cases idx with
  | zero =>
    obtain ⟨inputs, hinputs, -⟩ := exists_inputs_of_stakeInput hinput
    obtain ⟨inputs', hinputs', hpre⟩ := h.preStake op inputs hinputs
    rw [stakeTx_zero hinputs hinput, stakeTx_zero hinputs' hinput', hpre, h.network, h.params,
      h.operatorTable]
  | succ prev =>
    obtain ⟨prevTxid, prevInput, input₀, hprevTxid, hprev, hi, rfl⟩ :=
      stakeTx_succ_eq_some_iff.mp htx
    obtain rfl := Option.some.inj (hinput.symm.trans hi)
    rw [htx]
    refine stakeTx_succ_eq_some_iff.mpr ⟨prevTxid, prevInput, input,
      h.stakeTxid op prev prevTxid hprevTxid,
      (h.stakeInput op prev prevTxid hprevTxid).trans hprev, hinput', ?_⟩
    rw [h.network, h.params, h.operatorTable]

theorem Sound.of_keeps (hsound : sm.Sound env) (h : sm.Keeps sm')
    (hcached : sm.stakeTxid op idx = some txid) :
    (sm'.stakeInput op idx).isSome ∧
      ∃ tx, sm'.stakeTx env op idx = .ok (some tx) ∧ tx.computeTxid env = txid := by
  obtain ⟨hsome, htx⟩ := hsound op idx txid hcached
  rw [h.stakeInput op idx txid hcached, h.stakeTx hsound hcached]
  exact ⟨hsome, htx⟩

theorem keeps_processExchange (sm : StakeChainSM) (op : P2POperatorPubKey) (preStake : OutPoint) :
    sm.Keeps (sm.processExchange op preStake) := by
  rw [processExchange]
  split
  next old hold =>
    have heq : (sm.stakeChains.insert op ⟨∅, preStake⟩).insert op old = sm.stakeChains := by
      refine Std.ExtTreeMap.ext_getElem? fun k => ?_
      rw [get_insert, get_insert]
      split_ifs with hk
      · rw [← hk, hold]
      · rfl
    rw [heq]
    exact .refl sm
  next hnone =>
    refine ⟨rfl, rfl, rfl, fun k inputs hk => ?_, fun _ _ _ h => h, fun k idx txid _ => ?_⟩
    · have hne : op ≠ k := by
        rintro rfl
        rw [hnone] at hk
        cases hk
      exact ⟨inputs, by rw [get_insert_of_ne _ _ hne, hk], rfl⟩
    · rw [StakeChainSM.stakeInput, StakeChainSM.stakeInput, get_insert]
      split_ifs with hk
      · rw [← hk, hnone]
        rfl
      · rfl

theorem Sound.processExchange (h : sm.Sound env) (op : P2POperatorPubKey) (preStake : OutPoint) :
    (sm.processExchange op preStake).Sound env := by
  have hkeeps := sm.keeps_processExchange op preStake
  intro k idx txid hcached
  have hcached : sm.stakeTxid k idx = some txid := by
    rw [StakeChainSM.processExchange] at hcached
    split at hcached <;> exact hcached
  exact h.of_keeps hkeeps hcached

private theorem keeps_insertInput {data : StakeTxData}
    (hinputs : sm.stakeChains[op]? = some inputs) (hnone : sm.stakeTxid op idx = none) :
    sm.Keeps (sm.insertInput op inputs idx data) := by
  refine ⟨rfl, rfl, rfl, fun k old hk => ?_, fun _ _ _ h => h, fun k n txid hc => ?_⟩
  · rw [insertInput, get_insert]
    split_ifs with heq
    · subst heq
      obtain rfl := Option.some.inj (hinputs.symm.trans hk)
      exact ⟨_, rfl, rfl⟩
    · exact ⟨old, hk, rfl⟩
  · rw [stakeInput_insertInput hinputs, if_neg]
    rintro ⟨rfl, rfl⟩
    rw [hnone] at hc
    cases hc

theorem keeps_cacheTxid (hnone : sm.stakeTxid op idx = none) :
    sm.Keeps (sm.cacheTxid op idx txid) := by
  refine ⟨rfl, rfl, rfl, fun _ inputs h => ⟨inputs, h, rfl⟩, fun k n t hc => ?_, fun _ _ _ _ => rfl⟩
  rw [stakeTxid_cacheTxid, if_neg, hc]
  rintro ⟨rfl, rfl⟩
  rw [hnone] at hc
  cases hc

private theorem stakeTx_cacheTxid {tx : StakeTxKind} (hnone : sm.stakeTxid op idx = none)
    (htx : sm.stakeTx env op idx = .ok (some tx)) :
    (sm.cacheTxid op idx txid).stakeTx env op idx = .ok (some tx) := by
  cases idx with
  | zero => exact htx
  | succ prev =>
    obtain ⟨prevTxid, prevInput, input, hprevTxid, hprev, hi, rfl⟩ :=
      stakeTx_succ_eq_some_iff.mp htx
    refine stakeTx_succ_eq_some_iff.mpr ⟨prevTxid, prevInput, input, ?_, hprev, hi, rfl⟩
    exact (keeps_cacheTxid hnone).stakeTxid op prev prevTxid hprevTxid

/-- **Announcements keep the cache sound**, and never change what is cached. -/
theorem Sound.processSetup (h : sm.Sound env) (op : P2POperatorPubKey) (setup : DepositSetup) :
    (sm.processSetup env op setup).Leaves fun sm' => sm'.Sound env ∧ sm.Keeps sm' := by
  rw [StakeChainSM.processSetup]
  split
  · exact ⟨h, .refl sm⟩
  next hnone =>
  split
  · exact ⟨h, .refl sm⟩
  next inputs hinputs =>
  have hkeeps : sm.Keeps (sm.insertInput op inputs setup.index setup.stakeTxData) :=
    keeps_insertInput hinputs hnone
  have hsound : (sm.insertInput op inputs setup.index setup.stakeTxData).Sound env :=
    fun k idx txid hc => h.of_keeps hkeeps hc
  dsimp only
  split
  · exact ⟨hsound, hkeeps⟩
  · exact ⟨hsound, hkeeps⟩
  next tx htx =>
    have hinput : ((sm.insertInput op inputs setup.index setup.stakeTxData).stakeInput op
        setup.index).isSome := by simp [stakeInput_insertInput hinputs]
    refine ⟨fun k idx txid hc => ?_, hkeeps.trans (keeps_cacheTxid hnone)⟩
    rw [stakeTxid_cacheTxid] at hc
    split_ifs at hc with heq
    · obtain ⟨rfl, rfl⟩ := heq
      exact ⟨hinput, tx, stakeTx_cacheTxid hnone htx, Option.some.inj hc⟩
    · exact hsound.of_keeps (keeps_cacheTxid hnone) hc

theorem stakeTxid_of_processSetup {setup : DepositSetup}
    (h : sm.processSetup env op setup = .ok sm' (some txid)) :
    sm'.stakeTxid op setup.index = some txid ∧
      (sm.stakeTxid op setup.index = none →
        sm'.stakeInput op setup.index = some setup.stakeTxData) := by
  rw [processSetup] at h
  split at h
  next txid' hcached =>
    obtain ⟨rfl, htxid⟩ := Outcome.ok.inj h
    rw [hcached, htxid]
    exact ⟨rfl, fun hnone => by cases hnone⟩
  next hnone =>
  split at h
  · cases h
  next inputs hinputs =>
  dsimp only at h
  split at h
  · cases h
  · cases h
  next tx htx =>
    obtain ⟨rfl, htxid⟩ := Outcome.ok.inj h
    refine ⟨?_, fun _ => ?_⟩
    · rw [stakeTxid_cacheTxid, if_pos ⟨rfl, rfl⟩, htxid]
    · exact (stakeInput_insertInput hinputs).trans (if_pos ⟨rfl, rfl⟩)

end StakeChainSM

end StrataBridge
