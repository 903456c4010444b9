import StrataBridge.DutyTracker.StakeChainPersister
import StrataBridge.Instance.Linear

/-!
# Reading stake chains back

After every commit the database holds, for every index, the first data that were ever written, and
memory holds the last that were taken. These are the same as long as no announcement contradicts
the row that its index already has; then what is read back is what memory holds, and a node that
is started again goes on with the same stake transactions, provided that the operators without a
stake chain come last in the order of the keys.
-/

namespace StrataBridge

open Rust Sql Transition Linear BTreeMap StakeChainSM

variable {msg : StakeMessage}

/-! ### What messages change in memory -/

namespace StakeChainSM

variable {env : Env} {sm : StakeChainSM}

theorem get_processExchange (sm : StakeChainSM) (op : P2POperatorPubKey) (preStake : OutPoint)
    (key : P2POperatorPubKey) :
    (sm.processExchange op preStake).stakeChains[key]? =
      sm.stakeChains[key]?.or (if op = key then some ⟨∅, preStake⟩ else none) := by
  rw [processExchange]
  split
  next old hold =>
    rw [get_insert, get_insert]
    split_ifs with hk
    · rw [← hk, hold, Option.some_or]
    · rw [Option.or_none]
  next hnone =>
    rw [get_insert]
    split_ifs with hk
    · rw [← hk, hnone, Option.none_or]
    · rw [Option.or_none]

theorem stakeInput_processExchange (sm : StakeChainSM) (op : P2POperatorPubKey)
    (preStake : OutPoint) (key : P2POperatorPubKey) (i : ℕ) :
    (sm.processExchange op preStake).stakeInput key i = sm.stakeInput key i := by
  rw [stakeInput, get_processExchange, stakeInput]
  cases sm.stakeChains[key]? with
  | some inputs => rfl
  | none => split_ifs <;> rfl

/-- What an announcement changes: at most the data of its index, when it has no txid. -/
structure TakesSetup (sm sm' : StakeChainSM) (op : P2POperatorPubKey) (setup : DepositSetup) :
    Prop where
  preStake : ∀ key : P2POperatorPubKey,
    sm'.stakeChains[key]?.map StakeChainInputs.preStakeOutpoint =
      sm.stakeChains[key]?.map StakeChainInputs.preStakeOutpoint
  stakeInput : ∀ key i, sm'.stakeInput key i = sm.stakeInput key i ∨
    key = op ∧ i = setup.index ∧ sm.stakeTxid op setup.index = none ∧
      sm'.stakeInput key i = some setup.stakeTxData

theorem TakesSetup.refl (sm : StakeChainSM) (op : P2POperatorPubKey) (setup : DepositSetup) :
    sm.TakesSetup sm op setup :=
  ⟨fun _ => rfl, fun _ _ => .inl rfl⟩

theorem processSetup_takesSetup (env : Env) (sm : StakeChainSM) (op : P2POperatorPubKey)
    (setup : DepositSetup) :
    (sm.processSetup env op setup).Leaves fun sm' => sm.TakesSetup sm' op setup := by
  rw [processSetup]
  split
  · exact .refl sm op setup
  next hnone =>
  split
  · exact .refl sm op setup
  next inputs hinputs =>
  have htakes : sm.TakesSetup (sm.insertInput op inputs setup.index setup.stakeTxData) op
      setup := by
    refine ⟨fun key => ?_, fun key i => ?_⟩
    · rw [insertInput, get_insert]
      split_ifs with hk
      · rw [← hk, hinputs]
        rfl
      · rfl
    · rw [stakeInput_insertInput hinputs]
      split_ifs with hk
      · exact .inr ⟨hk.1, hk.2, hnone, rfl⟩
      · exact .inl rfl
  dsimp only
  split
  · exact htakes
  · exact htakes
  · exact ⟨htakes.preStake, htakes.stakeInput⟩

end StakeChainSM

/-! ### Messages -/

namespace StakeNode

variable {env : Env} {node node' : StakeNode} {sender : P2POperatorPubKey}
  {writes : List StakeWrite}

/-- What a message does: an exchange is entered in memory and on disk, an announcement in memory,
and what is in memory is committed once its stake transaction is known. -/
theorem step_cases (h : node.step env (sender, msg) = some (node', writes)) :
    ∃ senderId, node.table.p2pKeyToIdx sender = some senderId ∧
      ((∃ preStake, msg = .stakeChainExchange preStake ∧ writes = [.preStake] ∧
        node' = ⟨node.stakeChains.processExchange sender preStake,
          node.db.setPreStake senderId preStake⟩) ∨
      ∃ setup, msg = .depositSetup setup ∧
        (∀ P, (node.stakeChains.processSetup env sender setup).Leaves P → P node'.stakeChains) ∧
        (writes = [] ∧ node'.db = node.db ∨
          writes = [.stakeData] ∧
            (∃ txid, node.stakeChains.processSetup env sender setup =
              .ok node'.stakeChains (some txid)) ∧
            node.db.commitStakeData node.table node'.stakeChains.stakeChains = .ok node'.db)) := by
  rw [step] at h
  cases hsender : node.table.p2pKeyToIdx sender with
  | none =>
    cases msg <;> simp only [process, hsender] at h <;> cases h
  | some senderId =>
  refine ⟨senderId, rfl, ?_⟩
  cases msg with
  | stakeChainExchange preStake =>
    simp only [process, hsender] at h
    cases h
    exact .inl ⟨preStake, rfl, rfl, rfl⟩
  | depositSetup setup =>
    refine .inr ⟨setup, rfl, ?_⟩
    simp only [process, hsender] at h
    cases hsetup : node.stakeChains.processSetup env sender setup with
    | panic msg => simp only [hsetup] at h; cases h
    | err stakeChains e =>
      simp only [hsetup] at h
      cases h
      exact ⟨fun _ hP => hP, .inl ⟨rfl, rfl⟩⟩
    | ok stakeChains txid =>
      cases txid with
      | none =>
        simp only [hsetup] at h
        cases h
        exact ⟨fun _ hP => hP, .inl ⟨rfl, rfl⟩⟩
      | some txid =>
        simp only [hsetup] at h
        cases hcommit : node.db.commitStakeData node.table stakeChains.stakeChains with
        | error msg => simp only [hcommit] at h; cases h
        | ok db =>
          simp only [hcommit] at h
          cases h
          exact ⟨fun _ hP => hP, .inr ⟨rfl, ⟨txid, rfl⟩, hcommit⟩⟩

/-! ### The invariant -/

/-- What holds in every run: the cache of txids is sound, all chains are of operators in the
table, and the pre-stakes on disk are those in memory. -/
structure Started (env : Env) (node : StakeNode) : Prop where
  sound : node.stakeChains.Sound env
  keys : ∀ key ∈ node.stakeChains.stakeChains, key ∈ node.table.p2pKey
  preStake : ∀ key idx, node.table.p2pKeyToIdx key = some idx →
    node.db.getPreStake idx =
      node.stakeChains.stakeChains[key]?.map StakeChainInputs.preStakeOutpoint

/-- Every row on disk is what memory holds for its index. -/
def RowsHeld (node : StakeNode) : Prop :=
  ∀ key idx i row, node.table.p2pKeyToIdx key = some idx → node.db.getStakeData idx i = some row →
    node.stakeChains.stakeInput key i = some row

theorem started_new (env : Env) (network : Network) (table : OperatorTable)
    (params : StakeChainParams) : (new network table params).Started env where
  sound op idx txid h := by simp [new, StakeChainSM.new, StakeChainSM.stakeTxid] at h
  keys key hkey := absurd hkey Std.ExtTreeMap.not_mem_empty
  preStake key idx _ := by simp [new, new, StakeDb.getPreStake]; rfl

theorem rowsHeld_new (network : Network) (table : OperatorTable) (params : StakeChainParams) :
    (new network table params).RowsHeld := by
  rintro key idx i row - ⟨⟩

theorem Started.setup {setup : DepositSetup} (h : node.Started env)
    (hsetup : ∀ P, (node.stakeChains.processSetup env sender setup).Leaves P → P node'.stakeChains)
    (hpre : ∀ idx, node'.db.getPreStake idx = node.db.getPreStake idx) :
    node'.Started env ∧ node'.table = node.table := by
  obtain ⟨hsound, hkeeps⟩ := hsetup _ (h.sound.processSetup sender setup)
  have htakes := hsetup _ (processSetup_takesSetup env _ sender setup)
  have htable : node'.table = node.table := hkeeps.operatorTable
  refine ⟨⟨hsound, fun key hkey => ?_, fun key idx hidx => ?_⟩, htable⟩
  · rw [htable]
    refine h.keys key (mem_iff_exists.mpr ?_)
    obtain ⟨inputs', hinputs'⟩ := mem_iff_exists.mp hkey
    have hpre := htakes.preStake key
    rw [hinputs'] at hpre
    obtain ⟨inputs, hinputs, -⟩ := Option.map_eq_some_iff.mp hpre.symm
    exact ⟨inputs, hinputs⟩
  · rw [htable] at hidx
    rw [hpre, h.preStake key idx hidx, htakes.preStake key]

theorem Started.exchange {senderId : OperatorIdx} (h : node.Started env)
    (hsender : node.table.p2pKeyToIdx sender = some senderId) (preStake : OutPoint) :
    Started env ⟨node.stakeChains.processExchange sender preStake,
      node.db.setPreStake senderId preStake⟩ := by
  have htable : (node.stakeChains.processExchange sender preStake).operatorTable = node.table :=
    (node.stakeChains.keeps_processExchange sender preStake).operatorTable
  refine ⟨h.sound.processExchange sender preStake, fun key hkey => ?_, fun key idx hidx => ?_⟩
  · rw [table, htable]
    obtain ⟨inputs, hinputs⟩ := mem_iff_exists.mp hkey
    rw [get_processExchange, Option.or_eq_some_iff] at hinputs
    rcases hinputs with hold | ⟨-, hnew⟩
    · exact h.keys key (mem_iff_exists.mpr ⟨inputs, hold⟩)
    · obtain ⟨rfl, -⟩ := Option.ite_none_right_eq_some.mp hnew
      exact OperatorTable.mem_p2pKey_iff_exists_idx.mpr ⟨senderId, hsender⟩
  · rw [table, htable] at hidx
    have hold := h.preStake key idx hidx
    have hsame : senderId = idx ↔ sender = key := by
      rw [OperatorTable.p2pKeyToIdx_eq_some] at hsender hidx
      constructor
      · rintro rfl
        exact Option.some.inj (hsender.symm.trans hidx)
      · rintro rfl
        rw [← OperatorTable.p2pKeyToIdx_eq_some] at hsender hidx
        exact Option.some.inj (hsender.symm.trans hidx)
    rw [StakeDb.getPreStake] at hold
    rw [StakeDb.getPreStake, StakeDb.setPreStake, KeyedTable.select_insertOrIgnore, hold,
      get_processExchange]
    simp only [hsame]
    cases node.stakeChains.stakeChains[key]? with
    | some inputs => simp
    | none => by_cases hk : sender = key <;> simp

theorem Started.step (h : node.Started env)
    (hstep : node.step env (sender, msg) = some (node', writes)) :
    node'.Started env ∧ node'.table = node.table := by
  obtain ⟨senderId, hsender, hcases⟩ := step_cases hstep
  rcases hcases with ⟨preStake, rfl, -, rfl⟩ | ⟨setup, rfl, hleaves, hdb⟩
  · exact ⟨h.exchange hsender preStake,
      (node.stakeChains.keeps_processExchange sender preStake).operatorTable⟩
  · rcases hdb with ⟨-, hdb⟩ | ⟨-, -, hcommit⟩
    · exact h.setup hleaves fun idx => by rw [hdb]
    · exact h.setup hleaves (StakeDb.getPreStake_of_commitStakeData hcommit)

theorem RowsHeld.setup {setup : DepositSetup} {sm' : StakeChainSM} {key : P2POperatorPubKey}
    {idx : OperatorIdx} {i : ℕ} {row : StakeTxData} (h : node.RowsHeld)
    (haccords : node.Accords (sender, .depositSetup setup))
    (htakes : node.stakeChains.TakesSetup sm' sender setup)
    (hidx : node.table.p2pKeyToIdx key = some idx) (hrow : node.db.getStakeData idx i = some row) :
    sm'.stakeInput key i = some row := by
  rcases htakes.stakeInput key i with hsame | ⟨rfl, rfl, hnone, hnew⟩
  · rw [hsame, h key idx i row hidx hrow]
  · rw [hnew, haccords hnone idx row hidx hrow]

theorem Started.getStakeData_of_commit (h : node'.Started env) (htable : node'.table = node.table)
    (hcommit : node.db.commitStakeData node.table node'.stakeChains.stakeChains = .ok node'.db)
    {key : P2POperatorPubKey} {idx : OperatorIdx} (hidx : node.table.p2pKeyToIdx key = some idx)
    (i : ℕ) :
    node'.db.getStakeData idx i =
      (node.db.getStakeData idx i).or (node'.stakeChains.stakeInput key i) := by
  obtain ⟨db', hdb', hrows⟩ := node.db.commitStakeData_ok (fun key hkey => htable ▸ h.keys key hkey)
  obtain rfl := Except.ok.inj (hcommit.symm.trans hdb')
  exact hrows key idx i hidx

theorem RowsHeld.step (h : node.RowsHeld) (hstart : node.Started env)
    (haccords : node.Accords (sender, msg))
    (hstep : node.step env (sender, msg) = some (node', writes)) : node'.RowsHeld := by
  obtain ⟨hstart', htable⟩ := hstart.step hstep
  obtain ⟨senderId, hsender, hcases⟩ := step_cases hstep
  intro key idx i row hidx hrow
  rw [htable] at hidx
  rcases hcases with ⟨preStake, rfl, -, rfl⟩ | ⟨setup, rfl, hleaves, hdb⟩
  · rw [stakeInput_processExchange]
    exact h key idx i row hidx hrow
  · have htakes := hleaves _ (processSetup_takesSetup env _ sender setup)
    rcases hdb with ⟨-, hdb⟩ | ⟨-, -, hcommit⟩
    · rw [hdb] at hrow
      exact h.setup haccords htakes hidx hrow
    · rw [hstart'.getStakeData_of_commit htable hcommit hidx, Option.or_eq_some_iff] at hrow
      rcases hrow with hold | ⟨-, hnew⟩
      · exact h.setup haccords htakes hidx hold
      · exact hnew

variable {params : StakeChainParams} {table : OperatorTable} {network : Network}

theorem invariant_of_reachable (h : Reachable (step env) Accords (new network table params) node) :
    node.Started env ∧ node.RowsHeld :=
  h.invariant (I := fun node => node.Started env ∧ node.RowsHeld)
    ⟨started_new env network table params, rowsHeld_new network table params⟩
    fun _ _ _ _ ⟨hstart, hrows⟩ haccords hstep =>
      ⟨(hstart.step hstep).1, hrows.step hstart haccords hstep⟩

/-! ### Agreement -/

theorem Started.loadsMemory_iff (h : node.Started env) :
    node.LoadsMemory ↔ ∀ key idx, node.table.p2pKeyToIdx key = some idx →
      key ∈ node.stakeChains.stakeChains → ∀ i,
        node.db.getStakeData idx i = node.stakeChains.stakeInput key i := by
  have hiff {key : P2POperatorPubKey} {idx : OperatorIdx} {inputs : StakeChainInputs}
      (hidx : node.table.p2pKeyToIdx key = some idx)
      (hinputs : node.stakeChains.stakeChains[key]? = some inputs) :
      (node.db.load node.table)[key]? = node.stakeChains.stakeChains[key]? ↔
        ∀ i, node.db.getStakeData idx i = node.stakeChains.stakeInput key i := by
    have hpre := h.preStake key idx hidx
    rw [hinputs, Option.map_some] at hpre
    rw [StakeDb.get_load, hidx, Option.bind_some, hpre, Option.map_some]
    simp only [stakeInput, hinputs, Option.bind_some, Option.some.injEq,
      ← StakeDb.get_getAllStakeData]
    constructor
    · rintro hinputs i
      rw [← hinputs]
    · intro hrows
      cases inputs with
      | mk stakeInputs preStake =>
        exact congrArg (StakeChainInputs.mk · preStake) (Std.ExtTreeMap.ext_getElem? hrows)
  constructor
  · intro hloads key idx hidx hkey
    obtain ⟨inputs, hinputs⟩ := mem_iff_exists.mp hkey
    refine (hiff hidx hinputs).mp (hloads key idx hidx ?_)
    rw [h.preStake key idx hidx, hinputs]
    rfl
  · intro hrows key idx hidx hsome
    rw [h.preStake key idx hidx, Option.isSome_map] at hsome
    obtain ⟨inputs, hinputs⟩ := Option.isSome_iff_exists.mp hsome
    exact (hiff hidx hinputs).mpr (hrows key idx hidx (mem_iff_exists.mpr ⟨inputs, hinputs⟩))

theorem Started.load_eq (h : node.Started env) (hloads : node.LoadsMemory) :
    node.db.load node.table = node.stakeChains.stakeChains := by
  refine Std.ExtTreeMap.ext_getElem? fun key => ?_
  cases hidx : node.table.p2pKeyToIdx key with
  | none =>
    have hnone : node.stakeChains.stakeChains[key]? = none := by
      refine notMem_iff.mp fun hkey => ?_
      obtain ⟨idx, hidx'⟩ := OperatorTable.mem_p2pKey_iff_exists_idx.mp (h.keys key hkey)
      rw [hidx] at hidx'
      cases hidx'
    rw [StakeDb.get_load, hidx, hnone, Option.bind_none]
  | some idx =>
    cases hpre : node.db.getPreStake idx with
    | some preStake => exact hloads key idx hidx (by rw [hpre]; rfl)
    | none =>
      have hmemory := h.preStake key idx hidx
      rw [hpre] at hmemory
      rw [StakeDb.get_load, hidx, Option.bind_some, hpre, Option.map_none,
        Option.map_eq_none_iff.mp hmemory.symm]

/-- **A commit and the announcement before it.** In a run of messages that accord with the rows on
disk, a commit leaves memory and the database in agreement exactly when the announcement that it
follows accords with them too. -/
theorem commit_agrees_iff (hrun : Reachable (step env) Accords (new network table params) node)
    (hstep : node.step env (sender, msg) = some (node', writes)) (hcommit : .stakeData ∈ writes) :
    node'.LoadsMemory ↔ node.Accords (sender, msg) := by
  obtain ⟨hstart, hrows⟩ := invariant_of_reachable hrun
  obtain ⟨hstart', htable⟩ := hstart.step hstep
  rw [hstart'.loadsMemory_iff, htable]
  obtain ⟨senderId, hsender, hcases⟩ := step_cases hstep
  rcases hcases with ⟨preStake, rfl, rfl, -⟩ | ⟨setup, rfl, hleaves, hdb⟩
  · simp at hcommit
  rcases hdb with ⟨rfl, -⟩ | ⟨-, ⟨txid, hsetup⟩, hwritten⟩
  · cases hcommit
  have hread {key : P2POperatorPubKey} {idx : OperatorIdx}
      (hidx : node.table.p2pKeyToIdx key = some idx) (i : ℕ) :=
    hstart'.getStakeData_of_commit htable hwritten hidx i
  constructor
  · intro hagree hnone idx row hidx hrow
    have hinput := (stakeTxid_of_processSetup hsetup).2 hnone
    obtain ⟨inputs, hinputs, -⟩ := exists_inputs_of_stakeInput hinput
    have hsame := hagree sender idx hidx (mem_iff_exists.mpr ⟨inputs, hinputs⟩) setup.index
    rw [hread hidx, hrow, hinput] at hsame
    exact Option.some.inj hsame
  · intro haccords key idx hidx _ i
    rw [hread hidx]
    cases hrow : node.db.getStakeData idx i with
    | none => rw [Option.none_or]
    | some row =>
      have htakes := hleaves _ (processSetup_takesSetup env _ sender setup)
      rw [Option.some_or, hrows.setup haccords htakes hidx hrow]

/-- **A node that reads back what memory holds builds the same stake transactions.** -/
theorem Started.restartKeeps (h : node.Started env) (hloads : node.LoadsMemory)
    (haligned : node.Aligned) : node.RestartKeeps env := by
  intro op idx tx htx
  have hrestored : node.restarted env = .restore env node.stakeChains.network node.table
      node.stakeChains.params node.stakeChains.stakeChains := by
    rw [restarted, h.load_eq hloads]
  rw [hrestored]
  cases idx with
  | zero => exact htx
  | succ prev =>
    obtain ⟨txid, prevInput, input, hprevTxid, hprev, hinput, rfl⟩ :=
      stakeTx_succ_eq_some_iff.mp htx
    refine stakeTx_succ_eq_some_iff.mpr ⟨txid, prevInput, input, ?_, hprev, hinput, rfl⟩
    obtain ⟨inputs, hinputs, -⟩ := exists_inputs_of_stakeInput hprev
    obtain ⟨last, -, hlast, rfl, -⟩ := h.sound.nth_of_stakeTxid hinputs hprevTxid
    have hop := h.keys op (mem_iff_exists.mpr ⟨inputs, hinputs⟩)
    rw [stakeTxid_restore haligned hop hinputs]
    exact congrArg (Option.map _) hlast

/-- **When the stake chains are read back as they are.** In a run of messages that accord with the
rows on disk, what is read back after a commit is what memory holds, exactly when the announcement
that led to the commit accords with the rows too. A node that is started again then builds the
same stake transactions, if the operators without a stake chain come last. -/
theorem commit_loads_memory_iff
    (hrun : Reachable (step env) Accords (new network table params) node)
    (hstep : node.step env (sender, msg) = some (node', writes)) (hcommit : .stakeData ∈ writes) :
    (node'.LoadsMemory ↔ node.Accords (sender, msg)) ∧
      (node.Accords (sender, msg) → node'.Aligned → node'.RestartKeeps env) := by
  have hagrees := commit_agrees_iff hrun hstep hcommit
  have hstart := ((invariant_of_reachable hrun).1.step hstep).1
  exact ⟨hagrees, fun haccords haligned => hstart.restartKeeps (hagrees.mpr haccords) haligned⟩

def sampleSetup (index hash : ℕ) : P2POperatorPubKey × StakeMessage :=
  (⟨10⟩, .depositSetup ⟨index, ⟨hash⟩, ⟨⟨79⟩, index⟩, ⟨30⟩, ⟨⟨0⟩, [], [], []⟩⟩)

def sampleExchange : P2POperatorPubKey × StakeMessage := (⟨10⟩, .stakeChainExchange ⟨⟨78⟩, 0⟩)

theorem first_setup_loads :
    ∃ node node' writes,
      Reachable (step plain) Accords (new .regtest twoOperators stakeParams) node ∧
      node.step plain (sampleSetup 0 40) = some (node', writes) ∧ .stakeData ∈ writes ∧
      node'.LoadsMemory ∧ node'.RestartKeeps plain := by
  obtain ⟨node, os, hrun, h⟩ := exists_run_of_exec (step plain) Accords
    (new .regtest twoOperators stakeParams) [sampleExchange]
    (fun node _ => decide (node.Accords (sampleSetup 0 40)) &&
      (node.step plain (sampleSetup 0 40)).any fun r : StakeNode × List StakeWrite =>
        decide (StakeWrite.stakeData ∈ r.2) && decide r.1.Aligned) (by decide +kernel)
  simp only [Bool.and_eq_true, Option.any_eq_true, decide_eq_true_eq] at h
  obtain ⟨haccords, ⟨node', writes⟩, hstep, hcommit, haligned⟩ := h
  have hloads := commit_loads_memory_iff ⟨os, hrun⟩ hstep hcommit
  exact ⟨node, node', writes, ⟨os, hrun⟩, hstep, hcommit, hloads.1.mpr haccords,
    hloads.2 haccords haligned⟩

/-- **An announcement that came too early comes back.** The data for index 1 come before those for
index 0, are written together with them, and are then corrected. Memory builds the stake
transaction of index 1 from the correction; a node that is started again builds another one. -/
theorem early_setup_lost :
    ∃ node node' writes,
      Reachable (step plain) (fun _ _ => True) (new .regtest twoOperators stakeParams) node ∧
      node.step plain (sampleSetup 1 42) = some (node', writes) ∧ .stakeData ∈ writes ∧
      ¬node'.LoadsMemory ∧
      (node'.restarted plain).stakeTx plain ⟨10⟩ 1 ≠ node'.stakeChains.stakeTx plain ⟨10⟩ 1 := by
  obtain ⟨node, os, hrun, h⟩ := exists_run_of_exec (step plain) Accords
    (new .regtest twoOperators stakeParams)
    [sampleExchange, sampleSetup 1 41, sampleSetup 0 40]
    (fun node _ => decide (¬node.Accords (sampleSetup 1 42)) &&
      (node.step plain (sampleSetup 1 42)).any fun r : StakeNode × List StakeWrite =>
        decide (StakeWrite.stakeData ∈ r.2) &&
          decide ((r.1.restarted plain).stakeTx plain ⟨10⟩ 1 ≠
            r.1.stakeChains.stakeTx plain ⟨10⟩ 1)) (by decide +kernel)
  simp only [Bool.and_eq_true, Option.any_eq_true, decide_eq_true_eq] at h
  obtain ⟨haccords, ⟨node', writes⟩, hstep, hcommit, hdiffer⟩ := h
  exact ⟨node, node', writes, ⟨os, hrun.mono fun _ _ _ => trivial⟩, hstep, hcommit,
    fun hloads => haccords ((commit_agrees_iff ⟨os, hrun⟩ hstep hcommit).mp hloads), hdiffer⟩

end StakeNode

end StrataBridge
