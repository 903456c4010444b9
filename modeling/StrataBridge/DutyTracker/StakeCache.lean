import StrataBridge.DutyTracker.StakeChainPersister
import StrataBridge.StakeChain.Links

/-!
# The cache of stake transactions

The machine of the stake chains stores what operators announce, in any order and with any gaps, and
caches the txid of each stake transaction that it could build. Here is what holds of the cache in
every state that calls can lead to: it has no gaps, it agrees with the stored inputs, the cached
transactions form a chain, and what is cached never changes.

Two operations do not keep to this. The first stake transaction is built from the first of the
stored inputs, which need not be the one at index 0. And a restart pairs the chains that it
rebuilds with the operators from the first one on, which are the right ones only as long as no
operator without a stake chain comes before one that has staked.

## Main results

* `StakeChainSM.cache_coherent`: what holds of the cache
* `StakeChainSM.stakeTx_own_input_iff`: when a stake has its own input
* `StakeChainSM.restores_txids_iff`: when a restart restores the cache

## References

* `crates/duty-tracker/src/stake_chain_state_machine.rs`, lines 45–268
-/

namespace StrataBridge

open Rust Transition Linear BTreeMap List

namespace StakeChainSM

/-! ### Calls -/

inductive Call where
  | exchange (op : P2POperatorPubKey) (preStakeOutpoint : OutPoint)
  | setup (op : P2POperatorPubKey) (setup : DepositSetup)
  deriving DecidableEq

def call (env : Env) (sm : StakeChainSM) : Call → Option (StakeChainSM × List Txid)
  | .exchange op preStakeOutpoint => some (sm.processExchange op preStakeOutpoint, [])
  | .setup op setup => ((sm.processSetup env op setup).map Option.toList).next

def sampleExchange (i : ℕ) : Call := .exchange ⟨10 + i⟩ ⟨⟨78⟩, i⟩

def sampleSetup (i index : ℕ) : Call :=
  .setup ⟨10 + i⟩ ⟨index, ⟨40 + index⟩, ⟨⟨79⟩, index⟩, ⟨30 + i⟩, ⟨⟨0⟩, [], [], []⟩⟩

theorem exists_called (calls : List Call) (p : StakeChainSM → Bool)
    (h : (exec (call plain) (fun _ _ => True)
      (new .regtest twoOperators stakeParams) calls).any (fun r => p r.1) = true) :
    ∃ sm, Reachable (call plain) (fun _ _ => True)
      (new .regtest twoOperators stakeParams) sm ∧ p sm = true := by
  obtain ⟨sm, txids, hrun, hp⟩ := exists_run_of_exec (call plain) (fun _ _ => True)
    (new .regtest twoOperators stakeParams) calls (fun sm _ => p sm) h
  exact ⟨sm, ⟨txids, hrun⟩, hp⟩

variable {env : Env} {sm sm' : StakeChainSM} {op : P2POperatorPubKey}

theorem Sound.call (h : sm.Sound env) {c : Call} {txids : List Txid}
    (hcall : sm.call env c = some (sm', txids)) : sm'.Sound env ∧ sm.Keeps sm' := by
  cases c with
  | exchange op preStakeOutpoint =>
    cases hcall
    exact ⟨h.processExchange op preStakeOutpoint, sm.keeps_processExchange op preStakeOutpoint⟩
  | setup op setup =>
    have hleaves := h.processSetup op setup
    rw [StakeChainSM.call] at hcall
    cases hres : sm.processSetup env op setup with
    | ok s txid =>
      rw [hres] at hleaves hcall
      cases hcall
      exact hleaves
    | err s e =>
      rw [hres] at hleaves hcall
      cases hcall
      exact hleaves
    | panic msg =>
      rw [hres] at hcall
      cases hcall

theorem sound_new (env : Env) (network : Network) (table : OperatorTable)
    (params : StakeChainParams) : (new network table params).Sound env := by
  intro op idx txid h
  simp [new, stakeTxid] at h

theorem Sound.calls (h : sm.Sound env)
    (hcalls : Reachable (StakeChainSM.call env) (fun _ _ => True) sm sm') :
    sm'.Sound env ∧ sm.Keeps sm' :=
  hcalls.invariant (I := fun s => s.Sound env ∧ sm.Keeps s) ⟨h, .refl sm⟩
    fun _ _ _ _ hs _ hcall =>
      ⟨(hs.1.call hcall).1, hs.2.trans (hs.1.call hcall).2⟩

/-! ### The cache fits the inputs -/

/-- The cache fits the inputs: for every operator it has the indices up to some bound, each with the
txid of the stake transaction that the inputs give, and each transaction spends the stake of the one
before. -/
structure Coherent (env : Env) (sm : StakeChainSM) : Prop where
  gapFree : ∀ op, ∃ k, ∀ i, (sm.stakeTxid op i).isSome ↔ i < k
  built : ∀ op i txid, sm.stakeTxid op i = some txid →
    ∃ tx, sm.stakeTx env op i = .ok (some tx) ∧ tx.computeTxid env = txid
  linked : ∀ op i txid, sm.stakeTxid op (i + 1) = some txid →
    ∃ tx next, sm.stakeTx env op i = .ok (some tx) ∧
      sm.stakeTx env op (i + 1) = .ok (some (.tail next)) ∧
      next.unsignedTx.input[1]?.map TxIn.previousOutput = some ⟨tx.computeTxid env, stakeVout⟩

theorem Sound.stakeTxid_of_succ (h : sm.Sound env) {i : ℕ}
    (hi : (sm.stakeTxid op (i + 1)).isSome) : (sm.stakeTxid op i).isSome := by
  obtain ⟨txid, htxid⟩ := Option.isSome_iff_exists.mp hi
  obtain ⟨-, tx, htx, -⟩ := h op (i + 1) txid htxid
  obtain ⟨prevTxid, -, -, hprev, -⟩ := stakeTx_succ_eq_some_iff.mp htx
  exact Option.isSome_iff_exists.mpr ⟨prevTxid, hprev⟩

theorem Sound.stakeTxid_of_le (h : sm.Sound env) {i j : ℕ} (hij : i ≤ j)
    (hj : (sm.stakeTxid op j).isSome) : (sm.stakeTxid op i).isSome := by
  induction j, hij using Nat.le_induction with
  | base => exact hj
  | succ j _ ih => exact ih (h.stakeTxid_of_succ hj)

theorem exists_uncached (sm : StakeChainSM) (op : P2POperatorPubKey) :
    ∃ k, ¬(sm.stakeTxid op k).isSome ∧ ∀ i < k, (sm.stakeTxid op i).isSome := by
  simp only [StakeChainSM.stakeTxid]
  cases sm.stakeTxids[op]? with
  | none => exact ⟨0, by simp⟩
  | some txids =>
    obtain ⟨k, hk, hbelow⟩ := exists_least_notMem txids
    refine ⟨k, by simpa using hk, fun i hi => by simpa using hbelow i hi⟩

theorem Sound.coherent (h : sm.Sound env) : sm.Coherent env := by
  refine ⟨fun op => ?_, fun op i txid htxid => (h op i txid htxid).2, fun op i txid htxid => ?_⟩
  · obtain ⟨k, hk, hbelow⟩ := sm.exists_uncached op
    exact ⟨k, fun i => ⟨fun hi => Nat.lt_of_not_le fun hle => hk (h.stakeTxid_of_le hle hi),
      hbelow i⟩⟩
  · obtain ⟨-, tx, htx, -⟩ := h op (i + 1) txid htxid
    obtain ⟨prevTxid, prevInput, input, hprev, -, -, rfl⟩ := stakeTx_succ_eq_some_iff.mp htx
    obtain ⟨-, prevTx, hprevTx, rfl⟩ := h op i prevTxid hprev
    exact ⟨prevTx, _, hprevTx, htx, rfl⟩

/-- **The cache fits the inputs in every state that calls lead to, and what it has never changes**:
neither the txid at a cached index nor the input there, whatever is called later. -/
theorem cache_coherent {network : Network} {table : OperatorTable} {params : StakeChainParams}
    (h : Reachable (call env) (fun _ _ => True) (new network table params) sm) :
    sm.Coherent env ∧
      ∀ later, Reachable (call env) (fun _ _ => True) sm later →
        ∀ op i txid, sm.stakeTxid op i = some txid →
          later.stakeTxid op i = some txid ∧
            ∃ input, sm.stakeInput op i = some input ∧ later.stakeInput op i = some input := by
  obtain ⟨hsound, -⟩ := (sound_new env network table params).calls h
  refine ⟨hsound.coherent, fun later hlater op i txid htxid => ?_⟩
  obtain ⟨-, hkeeps⟩ := hsound.calls hlater
  obtain ⟨input, hinput⟩ := Option.isSome_iff_exists.mp (hsound op i txid htxid).1
  exact ⟨hkeeps.stakeTxid op i txid htxid, input, hinput,
    (hkeeps.stakeInput op i txid htxid).trans hinput⟩

/-- The cache after announcements that came out of order: the early one is not cached until it comes
again. -/
theorem late_setups_coherent :
    ∃ sm, Reachable (call plain) (fun _ _ => True) (new .regtest twoOperators stakeParams) sm ∧
      (sm.stakeTxid ⟨10⟩ 1).isSome ∧ sm.Coherent plain := by
  obtain ⟨sm, hcalls, hcached⟩ := exists_called
    [sampleExchange 0, sampleSetup 0 1, sampleSetup 0 0, sampleSetup 0 1]
    (fun sm => (sm.stakeTxid ⟨10⟩ 1).isSome) (by decide +kernel)
  exact ⟨sm, hcalls, hcached, (cache_coherent hcalls).1⟩

/-! ### The input of a stake transaction -/

inductive BuiltFrom (env : Env) (sm : StakeChainSM) (input : StakeTxData) : StakeTxKind → Prop
  | head (preStake : OutPoint) : BuiltFrom env sm input (.head (.newHead env
      (sm.operatorTable.txBuildContext sm.network) sm.params input.hash
      input.withdrawalFulfillmentPk preStake input.operatorFunds input.operatorPubkey))
  | tail (prevHash : Sha256Hash) (prevStake : OutPoint) : BuiltFrom env sm input (.tail (.newTail
      env (sm.operatorTable.txBuildContext sm.network) sm.params input prevHash prevStake))

/-- **A stake transaction is built from the input at its own index, unless it is the first one and
only later inputs are there.** -/
theorem stakeTx_own_input_iff (env : Env) (sm : StakeChainSM) (op : P2POperatorPubKey) (n : ℕ) :
    (∀ tx, sm.stakeTx env op n = .ok (some tx) →
        ∃ input, sm.stakeInput op n = some input ∧ BuiltFrom env sm input tx) ↔
      (n = 0 → ∀ inputs, sm.stakeChains[op]? = some inputs →
        inputs.stakeInputs = ∅ ∨ 0 ∈ inputs.stakeInputs) := by
  cases n with
  | zero =>
    constructor
    · rintro h - inputs hinputs
      by_cases hempty : inputs.stakeInputs = ∅
      · exact .inl hempty
      obtain ⟨first, hfirst⟩ : ∃ first, (vals inputs.stakeInputs).head? = some first :=
        Option.ne_none_iff_exists'.mp fun hnone => hempty (head?_vals_eq_none.mp hnone)
      have htx := h _ (by rw [stakeTx, hinputs]; simp only [headTx, hfirst]; rfl)
      obtain ⟨input, hinput, -⟩ := htx
      rw [stakeInput, hinputs] at hinput
      exact .inr (mem_iff_exists.mpr ⟨input, hinput⟩)
    · intro h tx htx
      cases hinputs : sm.stakeChains[op]? with
      | none => simp [stakeTx, hinputs] at htx
      | some inputs =>
        rcases h rfl inputs hinputs with hempty | hzero
        · have hnone := head?_vals_eq_none.mpr hempty
          simp [stakeTx, hinputs, headTx, hnone, Except.map] at htx
        · obtain ⟨input, hget⟩ := mem_iff_exists.mp hzero
          have hinput : sm.stakeInput op 0 = some input := by
            rw [stakeInput, hinputs, Option.bind_some, hget]
          rw [stakeTx_zero hinputs hinput] at htx
          cases htx
          exact ⟨input, hinput, .head inputs.preStakeOutpoint⟩
  | succ prev =>
    refine ⟨fun _ hzero => absurd hzero (Nat.succ_ne_zero prev), fun _ tx htx => ?_⟩
    obtain ⟨txid, prevInput, input, -, -, hinput, rfl⟩ := stakeTx_succ_eq_some_iff.mp htx
    exact ⟨input, hinput, .tail prevInput.hash ⟨txid, stakeVout⟩⟩

/-- **The first stake transaction is built from a later input.** After an announcement for index 1
only, there is a stake transaction at index 0. -/
theorem first_stake_from_later_input :
    ∃ sm tx, Reachable (call plain) (fun _ _ => True) (new .regtest twoOperators stakeParams) sm ∧
      sm.stakeTx plain ⟨10⟩ 0 = .ok (some tx) ∧ sm.stakeInput ⟨10⟩ 0 = none := by
  obtain ⟨sm, hcalls, h⟩ := exists_called [sampleExchange 0, sampleSetup 0 1]
    (fun sm => (sm.stakeTx plain ⟨10⟩ 0).toOption.join.isSome &&
      (sm.stakeInput ⟨10⟩ 0).isNone) (by decide +kernel)
  obtain ⟨hbuilt, hnone⟩ := Bool.and_eq_true_iff.mp h
  cases htx : sm.stakeTx plain ⟨10⟩ 0 with
  | error => simp [htx, Except.toOption] at hbuilt
  | ok built =>
    obtain ⟨tx, rfl⟩ : ∃ tx, built = some tx :=
      Option.isSome_iff_exists.mp (by simpa [htx, Except.toOption] using hbuilt)
    exact ⟨sm, tx, hcalls, htx, Option.isNone_iff_eq_none.mp hnone⟩

/-! ### Pairing with the operators from the first one on -/

section Pairing

variable {K W : Type} {val : K → Option W} {e : W}

theorem getD_append_of_eq {l l' : List W} (h : ∀ w ∈ l', w = e) (j : ℕ) :
    (l ++ l')[j]?.getD e = l[j]?.getD e := by
  rcases Nat.lt_or_ge j l.length with hj | hj
  · rw [getElem?_append_left hj]
  · rw [getElem?_append_right hj, getElem?_eq_none hj]
    cases hw : l'[j - l.length]? with
    | none => rfl
    | some w => exact h w (mem_of_getElem? hw)

variable {keys : List K}

theorem getD_filterMap_of_eq (h : ∀ key ∈ keys, (val key).getD e = e) (j : ℕ) :
    (keys.filterMap val)[j]?.getD e = e := by
  have hall : ∀ w ∈ keys.filterMap val, w = e := by
    intro w hw
    obtain ⟨key, hkey, hval⟩ := mem_filterMap.mp hw
    simpa [hval] using h key hkey
  simpa using getD_append_of_eq (l := []) hall j

theorem getD_map_of_eq (h : ∀ key ∈ keys, (val key).getD e = e) (j : ℕ) :
    (keys.map fun key => (val key).getD e)[j]?.getD e = e := by
  have hall : ∀ w ∈ keys.map fun key => (val key).getD e, w = e := by
    intro w hw
    obtain ⟨key, hkey, rfl⟩ := mem_map.mp hw
    exact h key hkey
  simpa using getD_append_of_eq (l := []) hall j

/-- When the first key has no value, the pairing is right only if there are no values but `e`. -/
private theorem eq_of_shifted (h : ∀ j : ℕ, (keys.filterMap val)[j]?.getD e =
      (e :: keys.map fun key => (val key).getD e)[j]?.getD e) :
    ∀ key ∈ keys, (val key).getD e = e := by
  induction keys using reverseRecOn with
  | nil => simp
  | append_singleton keys last ih =>
    simp only [filterMap_append, map_append, ← cons_append] at h
    have hlast : (val last).getD e = e := by
      have hat := h (keys.length + 1)
      rw [getElem?_eq_none] at hat
      · simpa using hat.symm
      · have := length_filterMap_le val keys
        have := length_filterMap_le val [last]
        simp only [length_append, length_singleton] at *
        omega
    have hnew : ∀ w ∈ [last].filterMap val, w = e := by
      intro w hw
      simp only [mem_filterMap, mem_singleton, exists_eq_left] at hw
      rw [hw] at hlast
      exact hlast
    have hall := ih fun j => by
      have hat := h j
      rw [getD_append_of_eq hnew, getD_append_of_eq (by simp [hlast])] at hat
      exact hat
    intro key hkey
    rcases mem_append.mp hkey with hkey | hkey
    · exact hall key hkey
    · rw [mem_singleton.mp hkey, hlast]

/-- **Pairing the values of some keys with all keys from the first one on** is right exactly if
every key before one with a value other than `e` has a value. -/
private theorem paired_iff :
    (∀ j : ℕ, (keys.filterMap val)[j]?.getD e = (keys.map fun key => (val key).getD e)[j]?.getD e) ↔
      keys.Pairwise fun key later => (val later).getD e ≠ e → (val key).isSome := by
  induction keys with
  | nil => simp
  | cons key keys ih =>
    rw [pairwise_cons, ← ih]
    cases hkey : val key with
    | some w =>
      rw [filterMap_cons_some hkey, map_cons, hkey]
      constructor
      · exact fun h => ⟨fun _ _ _ => rfl, fun j => h (j + 1)⟩
      · rintro ⟨-, h⟩ (_ | j)
        · rfl
        · exact h j
    | none =>
      rw [filterMap_cons_none hkey, map_cons, hkey]
      constructor
      · intro h
        have hall := eq_of_shifted h
        exact ⟨fun later hlater hne => absurd (hall later hlater) hne, fun j =>
          (getD_filterMap_of_eq hall j).trans (getD_map_of_eq hall j).symm⟩
      · rintro ⟨h, -⟩ j
        have hall : ∀ later ∈ keys, (val later).getD e = e := fun later hlater =>
          not_not.mp fun hne => by cases h later hlater hne
        rw [getD_filterMap_of_eq hall]
        cases j with
        | zero => rfl
        | succ j => exact (getD_map_of_eq hall j).symm

private theorem map_snd_zip_sublist {l : List W} : ((l.zip keys).map Prod.snd).Sublist keys := by
  induction l generalizing keys with
  | nil => simp
  | cons w l ih =>
    cases keys with
    | nil => simp
    | cons key keys => simpa using ih

end Pairing

/-! ### Restarting -/

def restored (env : Env) (sm : StakeChainSM) : StakeChainSM :=
  restore env sm.network sm.operatorTable sm.params sm.stakeChains

def chainTxids (env : Env) (sm : StakeChainSM) (op : P2POperatorPubKey) :
    Option (BTreeMap ℕ Txid) :=
  sm.stakeChains[op]?.map fun inputs =>
    (StakeChain.new env (sm.operatorTable.txBuildContext sm.network) sm.params inputs).txids env

/-- A restart finds the txids of every operator: those that were cached, and in all those of the
chain that the operator's own inputs give. -/
structure RestoresTxids (env : Env) (sm : StakeChainSM) : Prop where
  cached : ∀ op ∈ sm.operatorTable.p2pKey, ∀ i txid, sm.stakeTxid op i = some txid →
    (sm.restored env).stakeTxid op i = some txid
  chain : ∀ op ∈ sm.operatorTable.p2pKey, ∀ i, (sm.restored env).stakeTxid op i =
    sm.stakeChains[op]?.bind fun inputs =>
      (StakeChain.new env (sm.operatorTable.txBuildContext sm.network) sm.params
        inputs).txs[i]?.map (StakeTx.computeTxid env)

theorem chainTxids_ne_empty_iff :
    (sm.chainTxids env op).getD ∅ ≠ ∅ ↔ (sm.stakeInput op 0).isSome := by
  rw [chainTxids, stakeInput]
  cases sm.stakeChains[op]? with
  | none => simp
  | some inputs =>
    rw [Option.map_some, Option.getD_some, Option.bind_some]
    constructor
    · intro hne
      by_contra hzero
      have hnth : StakeChain.nth env (sm.operatorTable.txBuildContext sm.network) sm.params
          inputs 0 = none := by
        rw [StakeChain.nth, Option.not_isSome_iff_eq_none.mp hzero, Option.map_none]
      refine hne (Std.ExtTreeMap.ext_getElem? fun i => ?_)
      rw [StakeChain.get_txids_new, StakeChain.nth_eq_none_of_le hnth (Nat.zero_le i)]
      simp
    · rintro hzero hempty
      obtain ⟨input, hinput⟩ := Option.isSome_iff_exists.mp hzero
      have hget : ((StakeChain.new env (sm.operatorTable.txBuildContext sm.network) sm.params
          inputs).txids env)[0]? = _ := StakeChain.get_txids_new 0
      rw [hempty, StakeChain.nth, hinput] at hget
      simp at hget

theorem isSome_chainTxids_iff : (sm.chainTxids env op).isSome ↔ op ∈ sm.stakeChains := by
  rw [chainTxids, Option.isSome_map, Std.ExtTreeMap.mem_iff_isSome_getElem?]

theorem get_chainTxids (i : ℕ) :
    ((sm.chainTxids env op).getD ∅)[i]? = sm.stakeChains[op]?.bind fun inputs =>
      (StakeChain.new env (sm.operatorTable.txBuildContext sm.network) sm.params
        inputs).txs[i]?.map (StakeTx.computeTxid env) := by
  rw [chainTxids]
  cases sm.stakeChains[op]? with
  | none => simp
  | some inputs =>
    rw [Option.map_some, Option.getD_some, Option.bind_some, StakeChain.get_txids_new,
      StakeChain.getElem?_txs_new]

theorem stakeTxid_eq_getD (sm : StakeChainSM) (op : P2POperatorPubKey) (i : ℕ) :
    sm.stakeTxid op i = (sm.stakeTxids[op]?.getD ∅)[i]? := by
  rw [stakeTxid]
  cases sm.stakeTxids[op]? <;> simp

theorem Sound.get_chainTxids (h : sm.Sound env) {i : ℕ} {txid : Txid}
    (htxid : sm.stakeTxid op i = some txid) : ((sm.chainTxids env op).getD ∅)[i]? = some txid := by
  obtain ⟨input, hinput⟩ := Option.isSome_iff_exists.mp (h op i txid htxid).1
  obtain ⟨inputs, hinputs, -⟩ := exists_inputs_of_stakeInput hinput
  obtain ⟨tx, -, htx, rfl, -⟩ := h.nth_of_stakeTxid hinputs htxid
  rw [StakeChainSM.get_chainTxids, hinputs, Option.bind_some, StakeChain.getElem?_txs_new, htx,
    Option.map_some]

theorem stakeTxids_restored {j : ℕ} (hj : sm.operatorTable.p2pKeys[j]? = some op) :
    ((sm.restored env).stakeTxids[op]?).getD ∅ =
      (sm.operatorTable.p2pKeys.filterMap (sm.chainTxids env))[j]?.getD ∅ := by
  have hnodup : sm.operatorTable.p2pKeys.Nodup := Std.ExtTreeMap.nodup_keys
  generalize hchains : sm.operatorTable.p2pKeys.filterMap (sm.chainTxids env) = chains
  have hentries : (sm.restored env).stakeTxids =
      .ofEntries ((chains.zip sm.operatorTable.p2pKeys).map Prod.swap) := by
    rw [restored, restore, ← hchains]
    simp only [map_filterMap, Option.map_map]
    rfl
  have hfst : (((chains.zip sm.operatorTable.p2pKeys).map Prod.swap).map Prod.fst).Nodup := by
    rw [map_map]
    exact hnodup.sublist map_snd_zip_sublist
  have hmem (w : BTreeMap ℕ Txid) :
      (sm.restored env).stakeTxids[op]? = some w ↔ chains[j]? = some w := by
    rw [hentries, get_ofEntries hfst, mem_map]
    constructor
    · rintro ⟨⟨w', key⟩, hzip, heq⟩
      cases heq
      obtain ⟨i, hi⟩ := mem_iff_getElem?.mp hzip
      obtain ⟨hw, hkey⟩ := getElem?_zip_eq_some.mp hi
      have hlt : i < sm.operatorTable.p2pKeys.length := (List.getElem?_eq_some_iff.mp hkey).1
      rwa [(getElem?_inj hlt hnodup).mp (hkey.trans hj.symm)] at hw
    · intro hw
      exact ⟨(w, op), mem_iff_getElem?.mpr ⟨j, getElem?_zip_eq_some.mpr ⟨hw, hj⟩⟩, rfl⟩
  exact congrArg (Option.getD · ∅) (Option.ext hmem)

/-- **A restart finds the txids of every operator exactly if no operator without a stake chain
comes, in the order of the keys, before one that has an input at index 0.** -/
theorem restores_txids_iff {network : Network} {table : OperatorTable} {params : StakeChainParams}
    (h : Reachable (call env) (fun _ _ => True) (new network table params) sm) :
    sm.RestoresTxids env ↔
      sm.operatorTable.p2pKeys.Pairwise fun key later =>
        (sm.stakeInput later 0).isSome → key ∈ sm.stakeChains := by
  have hiff : (sm.operatorTable.p2pKeys.Pairwise fun key later =>
      (sm.stakeInput later 0).isSome → key ∈ sm.stakeChains) ↔
      sm.operatorTable.p2pKeys.Pairwise fun key later =>
        (sm.chainTxids env later).getD ∅ ≠ ∅ → (sm.chainTxids env key).isSome := by
    simp only [chainTxids_ne_empty_iff, isSome_chainTxids_iff]
  rw [hiff, ← paired_iff]
  constructor
  · intro hrestores j
    cases hj : sm.operatorTable.p2pKeys[j]? with
    | none =>
      have hle := getElem?_eq_none_iff.mp hj
      have hlen := length_filterMap_le (sm.chainTxids env) sm.operatorTable.p2pKeys
      rw [getElem?_eq_none (Nat.le_trans hlen hle), getElem?_map, hj]
      rfl
    | some key =>
      have hkey : key ∈ sm.operatorTable.p2pKey :=
        Std.ExtTreeMap.mem_keys.mp (mem_of_getElem? hj)
      rw [getElem?_map, hj, ← stakeTxids_restored hj]
      refine Std.ExtTreeMap.ext_getElem? fun i => ?_
      rw [← stakeTxid_eq_getD, hrestores.chain key hkey, ← get_chainTxids]
      rfl
  · intro hpaired
    have hfound : ∀ op ∈ sm.operatorTable.p2pKey, ∀ i,
        (sm.restored env).stakeTxid op i = ((sm.chainTxids env op).getD ∅)[i]? := by
      intro op hop i
      obtain ⟨j, hj⟩ := mem_iff_getElem?.mp (Std.ExtTreeMap.mem_keys.mpr hop)
      have hat := hpaired j
      rw [← stakeTxids_restored hj, getElem?_map, OperatorTable.p2pKeys, hj] at hat
      rw [stakeTxid_eq_getD, hat]
      rfl
    obtain ⟨hsound, -⟩ := (sound_new env network table params).calls h
    exact ⟨fun op hop i txid htxid => (hfound op hop i).trans (hsound.get_chainTxids htxid),
      fun op hop i => (hfound op hop i).trans (get_chainTxids i)⟩

/-- When the operator with the first key has staked and the other one has not, a restart finds
everything. -/
theorem first_operator_restored :
    ∃ sm, Reachable (call plain) (fun _ _ => True) (new .regtest twoOperators stakeParams) sm ∧
      (sm.stakeTxid ⟨10⟩ 0).isSome ∧ sm.RestoresTxids plain := by
  obtain ⟨sm, hcalls, h⟩ := exists_called [sampleExchange 0, sampleSetup 0 0]
    (fun sm => (sm.stakeTxid ⟨10⟩ 0).isSome && decide (sm.operatorTable.p2pKeys.Pairwise
      fun key later => (sm.stakeInput later 0).isSome → key ∈ sm.stakeChains)) (by decide +kernel)
  obtain ⟨hcached, hpairwise⟩ := Bool.and_eq_true_iff.mp h
  exact ⟨sm, hcalls, hcached, (restores_txids_iff hcalls).mpr (of_decide_eq_true hpairwise)⟩

/-- **A restart loses the stake transactions of an operator** when the one with the first key has
not sent anything: its txid is found under the other key. -/
theorem second_operator_lost :
    ∃ sm txid, Reachable (call plain) (fun _ _ => True) (new .regtest twoOperators stakeParams) sm ∧
      sm.stakeTxid ⟨11⟩ 0 = some txid ∧ (sm.restored plain).stakeTxid ⟨11⟩ 0 = none ∧
      (sm.restored plain).stakeTxid ⟨10⟩ 0 = some txid ∧
      ¬sm.RestoresTxids plain := by
  obtain ⟨sm, hcalls, h⟩ := exists_called [sampleExchange 1, sampleSetup 1 0]
    (fun sm => (sm.stakeTxid ⟨11⟩ 0).any fun txid =>
      decide ((sm.restored plain).stakeTxid ⟨11⟩ 0 = none ∧
        (sm.restored plain).stakeTxid ⟨10⟩ 0 = some txid ∧
        ⟨11⟩ ∈ sm.operatorTable.p2pKey)) (by decide +kernel)
  obtain ⟨txid, htxid, h⟩ := (Option.any_eq_true _ _).mp h
  obtain ⟨hlost, hother, hkey⟩ := of_decide_eq_true h
  refine ⟨sm, txid, hcalls, htxid, hlost, hother, fun hrestores => ?_⟩
  have hfound := hrestores.cached ⟨11⟩ hkey 0 txid htxid
  rw [hlost] at hfound
  cases hfound

end StakeChainSM

end StrataBridge
