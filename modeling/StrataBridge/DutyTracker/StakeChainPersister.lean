import StrataBridge.DutyTracker.StakeChainSM
import StrataBridge.StakeChain.StakeChain
import StrataBridge.StakeChain.StakeDb
import StrataBridge.Transition.Runs

/-!
# Stake chains on disk

The stake chains of all operators are written to the database whenever a stake transaction could
be built, and read back when a node starts. Memory and the database have different policies. In
memory the data of an index are replaced as long as its stake transaction has no txid; in the
database the first row of an index stays. So an announcement that comes too early, is written
together with another one and is then corrected differs from what is read back.

## References

* `crates/duty-tracker/src/stake_chain_persister.rs`
* `crates/duty-tracker/src/stake_chain_state_machine.rs`, lines 44–96
* `crates/duty-tracker/src/contract_manager.rs`, lines 889–962
-/

namespace StrataBridge

open Rust Sql Transition BTreeMap List StakeChain

variable {idx : OperatorIdx}

/-! ### The persister -/

namespace StakeDb

variable (db : StakeDb) (table : OperatorTable)
  {state : BTreeMap P2POperatorPubKey StakeChainInputs}
  (inputs : BTreeMap OperatorIdx StakeChainInputs)

/-- The rows of all operators (`stake_chain_persister.rs`, lines 46–59). -/
def stakeRows : List ((OperatorIdx × ℕ) × StakeTxData) :=
  inputs.toList.flatMap fun e => e.2.stakeInputs.toList.map fun input => ((e.1, input.1), input.2)

/-- `StakeChainPersister::commit_stake_data` (`stake_chain_persister.rs`, lines 34–66). -/
def commitStakeData (state : BTreeMap P2POperatorPubKey StakeChainInputs) : MayPanic StakeDb :=
  match table.convertMapP2pToIdx state with
  | .error _ => .error "fully saturated stake chain inputs"
  | .ok inputs => .ok (db.addAllStakeData (stakeRows inputs))

def loadOperator (idx : OperatorIdx) : Option (P2POperatorPubKey × StakeChainInputs) :=
  match db.getPreStake idx, table.idxToP2pKey idx with
  | some preStakeOutpoint, some p2pKey => some (p2pKey, ⟨db.getAllStakeData idx, preStakeOutpoint⟩)
  | _, _ => none

/-- `StakeChainPersister::load` (`stake_chain_persister.rs`, lines 69–103). -/
def load : BTreeMap P2POperatorPubKey StakeChainInputs :=
  .ofEntries (table.operatorIdxs.filterMap (db.loadOperator table))

variable {db db' : StakeDb} {table : OperatorTable}

theorem loadOperator_eq_some {key : P2POperatorPubKey} {inputs : StakeChainInputs} :
    db.loadOperator table idx = some (key, inputs) ↔
      table.p2pKeyToIdx key = some idx ∧ db.getPreStake idx = some inputs.preStakeOutpoint ∧
        inputs.stakeInputs = db.getAllStakeData idx := by
  rw [loadOperator, OperatorTable.p2pKeyToIdx_eq_some]
  cases hpre : db.getPreStake idx with
  | none => simp
  | some preStake =>
    cases hkey : table.idxToP2pKey idx with
    | none => simp
    | some key' =>
      simp only [Option.some.injEq, Prod.mk.injEq]
      refine and_congr_right fun _ => ⟨?_, ?_⟩
      · rintro rfl
        exact ⟨rfl, rfl⟩
      · rintro ⟨rfl, hrows⟩
        rw [← hrows]

theorem mem_operatorIdxs {key : P2POperatorPubKey} (h : table.p2pKeyToIdx key = some idx) :
    idx ∈ table.operatorIdxs := by
  rw [OperatorTable.p2pKeyToIdx_eq_some] at h
  obtain ⟨e, he, -⟩ := Option.map_eq_some_iff.mp h
  exact Std.ExtTreeMap.mem_keys.mpr (mem_iff_exists.mpr ⟨e, he⟩)

/-- **What is read back of an operator**: its rows, if there is a pre-stake of it. -/
theorem get_load (db : StakeDb) (table : OperatorTable) (key : P2POperatorPubKey) :
    (db.load table)[key]? = (table.p2pKeyToIdx key).bind fun idx =>
      (db.getPreStake idx).map fun preStake => ⟨db.getAllStakeData idx, preStake⟩ := by
  have hnodup : ((table.operatorIdxs.filterMap (db.loadOperator table)).map Prod.fst).Nodup := by
    rw [map_filterMap]
    refine Std.ExtTreeMap.nodup_keys.filterMap fun idx idx' k hk hk' => ?_
    obtain ⟨⟨k₁, inputs⟩, hload, rfl⟩ := Option.map_eq_some_iff.mp hk
    obtain ⟨⟨k₂, inputs'⟩, hload', heq⟩ := Option.map_eq_some_iff.mp hk'
    obtain rfl : k₂ = k₁ := heq
    have hidx := (loadOperator_eq_some.mp hload).1
    have hidx' := (loadOperator_eq_some.mp hload').1
    exact Option.some.inj (hidx.symm.trans hidx')
  ext inputs
  rw [load, get_ofEntries hnodup, mem_filterMap]
  simp only [loadOperator_eq_some, Option.bind_eq_some_iff, Option.map_eq_some_iff]
  constructor
  · rintro ⟨idx, -, hkey, hpre, hrows⟩
    exact ⟨idx, hkey, _, hpre, by rw [← hrows]⟩
  · rintro ⟨idx, hkey, preStake, hpre, rfl⟩
    exact ⟨idx, mem_operatorIdxs hkey, hkey, hpre, rfl⟩

theorem mem_stakeRows {inputs : BTreeMap OperatorIdx StakeChainInputs} {i : ℕ}
    {data : StakeTxData} :
    ((idx, i), data) ∈ stakeRows inputs ↔
      (inputs[idx]?.bind fun e => e.stakeInputs[i]?) = some data := by
  simp only [stakeRows, mem_flatMap, mem_map, Prod.mk.injEq, Option.bind_eq_some_iff]
  constructor
  · rintro ⟨⟨_, e⟩, he, ⟨_, _⟩, hinput, ⟨rfl, rfl⟩, rfl⟩
    exact ⟨e, mem_toList.mp he, mem_toList.mp hinput⟩
  · rintro ⟨e, he, hinput⟩
    exact ⟨(idx, e), mem_toList.mpr he, (i, data), mem_toList.mpr hinput, ⟨rfl, rfl⟩, rfl⟩

theorem find?_stakeRows (idx : OperatorIdx) (i : ℕ) :
    (((stakeRows inputs).find? fun row => row.1 = (idx, i)).map Prod.snd) =
      inputs[idx]?.bind fun e => e.stakeInputs[i]? := by
  cases hfind : (stakeRows inputs).find? fun row => row.1 = (idx, i) with
  | none =>
    refine (Option.eq_none_iff_forall_ne_some.mpr fun data hdata => ?_).symm
    have := find?_eq_none.mp hfind _ (mem_stakeRows.mpr hdata)
    simp at this
  | some row =>
    obtain ⟨k, data⟩ := row
    have hkey : k = (idx, i) := by simpa using find?_some hfind
    subst hkey
    exact (mem_stakeRows.mp (mem_of_find?_eq_some hfind)).symm

/-- **What a commit writes**: the data of every operator, where there is no row yet. -/
theorem commitStakeData_ok (db : StakeDb) (hkeys : ∀ key ∈ state, key ∈ table.p2pKey) :
    ∃ db', db.commitStakeData table state = .ok db' ∧
      ∀ key idx i, table.p2pKeyToIdx key = some idx → db'.getStakeData idx i =
        (db.getStakeData idx i).or (state[key]?.bind fun inputs => inputs.stakeInputs[i]?) := by
  obtain ⟨inputs, hinputs, hget⟩ := OperatorTable.convertMapP2pToIdx_ok hkeys
  refine ⟨db.addAllStakeData (stakeRows inputs), by rw [commitStakeData, hinputs],
    fun key idx i hidx => ?_⟩
  have hentry : inputs[idx]? = state[key]? := by
    ext e
    rw [hget]
    constructor
    · rintro ⟨key', he, hidx'⟩
      rw [OperatorTable.p2pKeyToIdx_eq_some] at hidx hidx'
      rwa [Option.some.inj (hidx.symm.trans hidx')]
    · intro he
      exact ⟨key, he, hidx⟩
  rw [getStakeData, addAllStakeData, KeyedTable.select_insertAll, find?_stakeRows, hentry]
  rfl

theorem getPreStake_of_commitStakeData (h : db.commitStakeData table state = .ok db')
    (idx : OperatorIdx) : db'.getPreStake idx = db.getPreStake idx := by
  rw [commitStakeData] at h
  split at h
  · cases h
  · cases h
    rfl

end StakeDb

/-! ### Restarting -/

/-- `StakeChainSM::restore` (`stake_chain_state_machine.rs`, lines 44–96). The txids of the chains
are paired with the operators from the first one on, also when some operators have no chain. -/
def StakeChainSM.restore (env : Env) (network : Network) (operatorTable : OperatorTable)
    (params : StakeChainParams) (stakeChains : BTreeMap P2POperatorPubKey StakeChainInputs) :
    StakeChainSM :=
  let chains := (operatorTable.p2pKeys.filterMap fun key => stakeChains[key]?).map
    (StakeChain.new env (operatorTable.txBuildContext network) params)
  { network, params, operatorTable, stakeChains
    stakeTxids := .ofEntries (((chains.map (txids env)).zip operatorTable.p2pKeys).map Prod.swap) }

/-- Pairing the values of some keys with all keys from the first one on pairs every value with its
own key, as long as the keys with a value come first. -/
theorem map_swap_zip_filterMap {K V W : Type} {f : K → Option V} {g : V → W} {keys : List K}
    (h : keys.Pairwise fun key later => (f later).isSome → (f key).isSome) :
    (((keys.filterMap f).map g).zip keys).map Prod.swap =
      keys.filterMap fun key => (f key).map fun v => (key, g v) := by
  induction keys with
  | nil => rfl
  | cons key keys ih =>
    obtain ⟨hfirst, hrest⟩ := pairwise_cons.mp h
    cases hkey : f key with
    | none =>
      have hnone (later : K) (hlater : later ∈ keys) : f later = none := by
        refine Option.not_isSome_iff_eq_none.mp fun hsome => ?_
        have := hfirst later hlater hsome
        rw [hkey] at this
        cases this
      have hempty : keys.filterMap f = [] := filterMap_eq_nil_iff.mpr hnone
      rw [filterMap_cons_none hkey, hempty, filterMap_cons_none (by rw [hkey]; rfl),
        filterMap_eq_nil_iff.mpr fun later hlater => by rw [hnone later hlater]; rfl]
      rfl
    | some v =>
      rw [filterMap_cons_some hkey, filterMap_cons_some (b := (key, g v)) (by
        rw [hkey]; rfl), map_cons, zip_cons_cons, map_cons, ih hrest]
      rfl

namespace StakeChainSM

variable {env : Env} {sm : StakeChainSM} {op : P2POperatorPubKey} {inputs : StakeChainInputs}

theorem Sound.nth_of_stakeTxid (hsound : sm.Sound env) (hinputs : sm.stakeChains[op]? = some inputs)
    {n : ℕ} {txid : Txid} (h : sm.stakeTxid op n = some txid) :
    ∃ tx data, nth env (sm.operatorTable.txBuildContext sm.network) sm.params inputs n =
      some tx ∧ tx.computeTxid env = txid ∧ sm.stakeInput op n = some data ∧
        tx.hash = data.hash := by
  induction n generalizing txid with
  | zero =>
    obtain ⟨hsome, tx, htx, rfl⟩ := hsound op 0 txid h
    obtain ⟨data, hdata⟩ := Option.isSome_iff_exists.mp hsome
    rw [stakeTx_zero hinputs hdata] at htx
    cases htx
    have hget : inputs.stakeInputs[0]? = some data := by
      rwa [stakeInput, hinputs, Option.bind_some] at hdata
    exact ⟨_, data, by rw [nth, hget]; rfl, rfl, hdata, rfl⟩
  | succ n ih =>
    obtain ⟨-, tx, htx, rfl⟩ := hsound op (n + 1) txid h
    obtain ⟨prevTxid, prevInput, data, hprevTxid, hprev, hdata, rfl⟩ :=
      stakeTx_succ_eq_some_iff.mp htx
    obtain ⟨last, prevData, hlast, rfl, hprev', hhash⟩ := ih hprevTxid
    have hget : inputs.stakeInputs[n + 1]? = some data := by
      rwa [stakeInput, hinputs, Option.bind_some] at hdata
    refine ⟨last.advance env (sm.operatorTable.txBuildContext sm.network) sm.params data, data, ?_,
      ?_, hdata, rfl⟩
    · rw [nth, hlast, Option.bind_some, hget, Option.map_some]
    · rfl

theorem stakeTxid_restore {network : Network} {table : OperatorTable} {params : StakeChainParams}
    {stakeChains : BTreeMap P2POperatorPubKey StakeChainInputs}
    (haligned : table.p2pKeys.Pairwise fun key later => later ∈ stakeChains → key ∈ stakeChains)
    (hop : op ∈ table.p2pKey) (hinputs : stakeChains[op]? = some inputs) (n : ℕ) :
    (restore env network table params stakeChains).stakeTxid op n =
      (StakeChain.nth env (table.txBuildContext network) params inputs n).map
        (StakeTx.computeTxid env) := by
  have hpairs := map_swap_zip_filterMap (f := fun key => stakeChains[key]?)
    (g := fun inputs =>
      (StakeChain.new env (table.txBuildContext network) params inputs).txids env)
    (haligned.imp fun h hlater => by simpa using h (by simpa using hlater))
  have hnodup : ((table.p2pKeys.filterMap fun key => stakeChains[key]?.map fun inputs =>
      (key, (StakeChain.new env (table.txBuildContext network) params inputs).txids env)).map
        Prod.fst).Nodup := by
    rw [map_filterMap]
    refine Std.ExtTreeMap.nodup_keys.filterMap fun key key' k hk hk' => ?_
    simp only [Option.mem_def, Option.map_map, Option.map_eq_some_iff] at hk hk'
    obtain ⟨_, -, rfl⟩ := hk
    obtain ⟨_, -, heq⟩ := hk'
    exact heq.symm
  have hget : (restore env network table params stakeChains).stakeTxids[op]? =
      some ((StakeChain.new env (table.txBuildContext network) params inputs).txids env) := by
    rw [restore]
    simp only [map_map, Function.comp_def]
    rw [hpairs, get_ofEntries hnodup, mem_filterMap]
    exact ⟨op, Std.ExtTreeMap.mem_keys.mpr hop, by rw [hinputs]; rfl⟩
  rw [stakeTxid, hget, Option.bind_some, StakeChain.get_txids_new]

end StakeChainSM

/-! ### Messages -/

/-- The messages that concern the stake chains. Announcements for a deposit that is not known are
dropped before they get here. -/
inductive StakeMessage where
  | stakeChainExchange (preStake : OutPoint)
  | depositSetup (setup : DepositSetup)
  deriving DecidableEq

inductive StakeWrite where
  | preStake
  | stakeData
  deriving DecidableEq

structure StakeNode where
  stakeChains : StakeChainSM
  db : StakeDb

namespace StakeNode

def new (network : Network) (table : OperatorTable) (params : StakeChainParams) : StakeNode :=
  ⟨.new network table params, .empty⟩

variable (node : StakeNode) (env : Env)

def table : OperatorTable := node.stakeChains.operatorTable

/-- `process_unsigned_gossip_msg` (`contract_manager.rs`, lines 889–962), as far as the stake
chains are concerned. An error is logged, and the node goes on with the state it has. -/
def process (node : StakeNode) (sender : P2POperatorPubKey) :
    StakeMessage → Outcome StakeNode StakeChainErr (List StakeWrite)
  | .stakeChainExchange preStake =>
    match node.table.p2pKeyToIdx sender with
    | none => .panic "sender must be in the operator table"
    | some senderId =>
      .ok ⟨node.stakeChains.processExchange sender preStake,
        node.db.setPreStake senderId preStake⟩ [.preStake]
  | .depositSetup setup =>
    match node.table.p2pKeyToIdx sender with
    | none => .panic "sender must be in the operator table"
    | some _ =>
      match node.stakeChains.processSetup env sender setup with
      | .panic msg => .panic msg
      | .err stakeChains e => .err ⟨stakeChains, node.db⟩ e
      | .ok stakeChains none => .ok ⟨stakeChains, node.db⟩ []
      | .ok stakeChains (some _) =>
        match node.db.commitStakeData node.table stakeChains.stakeChains with
        | .error msg => .panic msg
        | .ok db => .ok ⟨stakeChains, db⟩ [.stakeData]

def step (node : StakeNode) (msg : P2POperatorPubKey × StakeMessage) :
    Option (StakeNode × List StakeWrite) :=
  (node.process env msg.1 msg.2).next

/-- An announcement does not contradict the row that its index has in the database, unless its
stake transaction has a txid, when the announcement is not looked at. -/
def Accords (msg : P2POperatorPubKey × StakeMessage) : Prop :=
  match msg.2 with
  | .stakeChainExchange _ => True
  | .depositSetup setup =>
    node.stakeChains.stakeTxid msg.1 setup.index = none →
      ∀ idx row, node.table.p2pKeyToIdx msg.1 = some idx →
        node.db.getStakeData idx setup.index = some row → row = setup.stakeTxData

instance (node : StakeNode) (msg : P2POperatorPubKey × StakeMessage) :
    Decidable (node.Accords msg) :=
  match msg with
  | (_, .stakeChainExchange _) => .isTrue trivial
  | (sender, .depositSetup setup) =>
    decidable_of_iff (node.stakeChains.stakeTxid sender setup.index = none →
      ((node.table.p2pKeyToIdx sender).bind fun idx => node.db.getStakeData idx setup.index).all
        (· = setup.stakeTxData)) <| by
      simp only [Option.all_eq_true, Option.bind_eq_some_iff, decide_eq_true_eq]
      exact imp_congr_right fun _ => ⟨fun h idx row hidx hrow => h row ⟨idx, hidx, hrow⟩,
        fun h row ⟨idx, hidx, hrow⟩ => h idx row hidx hrow⟩

/-- What is read back of every operator with a pre-stake on disk is what memory holds. -/
def LoadsMemory : Prop :=
  ∀ key idx, node.table.p2pKeyToIdx key = some idx → (node.db.getPreStake idx).isSome →
    (node.db.load node.table)[key]? = node.stakeChains.stakeChains[key]?

def restarted (node : StakeNode) : StakeChainSM :=
  .restore env node.stakeChains.network node.table node.stakeChains.params (node.db.load node.table)

/-- A node that is started again builds the same stake transactions. -/
def RestartKeeps (node : StakeNode) : Prop :=
  ∀ op idx tx, node.stakeChains.stakeTx env op idx = .ok (some tx) →
    (node.restarted env).stakeTx env op idx = .ok (some tx)

/-- No operator with a stake chain comes, in the order of the keys, behind one without. -/
def Aligned : Prop :=
  node.table.p2pKeys.Pairwise fun key later =>
    later ∈ node.stakeChains.stakeChains → key ∈ node.stakeChains.stakeChains

instance (node : StakeNode) : Decidable node.Aligned :=
  inferInstanceAs (Decidable (List.Pairwise _ _))

end StakeNode

end StrataBridge
