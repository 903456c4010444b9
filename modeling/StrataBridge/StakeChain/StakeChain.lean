import StrataBridge.DutyTracker.ContractState

/-!
# Stake chains

A whole stake chain is rebuilt from its inputs when a node starts: the first stake transaction,
then one transaction for every further input until the first gap. The loop advances from the last
transaction it has made; here it is shown to give the transactions that are specified one by one,
each from the one before it, and to have a transaction for every index up to the first that has no
input.

## References

* `crates/stake-chain/src/stake_chain.rs`, lines 41–141
* `crates/stake-chain/src/transactions/stake.rs`, lines 169–255
-/

namespace StrataBridge

open Rust BTreeMap List

/-- `StakeTx::advance` (`stake.rs`, lines 169–255): the next stake transaction spends the stake
output of this one. -/
def StakeTx.advance (env : Env) (ctx : TxBuildContext) (params : StakeChainParams) (tx : StakeTx)
    (input : StakeTxData) : StakeTx :=
  let agg := ctx.aggregatedPubkey env
  let prevStake : OutPoint := ⟨tx.computeTxid env, stakeVout⟩
  let connectorP := env.connectorP agg input.hash ctx.network
  -- the connector of the previous stake, with the key of the new input
  let prevStakeScript :=
    env.connectorStake agg input.operatorPubkey tx.hash params.delta ctx.network
  let spendInfo :=
    env.connectorStakeSpendInfo agg input.operatorPubkey tx.hash params.delta ctx.network
  { unsignedTx :=
      { version := 3
        lockTime := 0
        input := tailInputs params input.operatorFunds prevStake
        output := createTxOuts
          [(env.connectorK ctx.network input.withdrawalFulfillmentPk, fundingAmount),
            (connectorP, env.minimalNonDust connectorP),
            (env.connectorStake agg input.operatorPubkey input.hash params.delta ctx.network,
              params.stakeAmount),
            (env.connectorCpfp input.operatorPubkey ctx.network, segwitMinAmount)] }
    witnessUtxo := some ⟨params.stakeAmount, prevStakeScript⟩
    hash := input.hash
    witnesses := (.key, .script spendInfo.1 spendInfo.2) }

theorem StakeTx.advance_eq_newTail (env : Env) (ctx : TxBuildContext) (params : StakeChainParams)
    (tx : StakeTx) (input : StakeTxData) :
    tx.advance env ctx params input =
      .newTail env ctx params input tx.hash ⟨tx.computeTxid env, stakeVout⟩ :=
  rfl

/-- `StakeChain` (`stake_chain.rs`, lines 42–46). -/
structure StakeChain where
  head : Option StakeTx
  tail : List StakeTx
  deriving DecidableEq

namespace StakeChain

section Build

variable (env : Env) (ctx : TxBuildContext) (params : StakeChainParams) (inputs : StakeChainInputs)

def headOf (input : StakeTxData) : StakeTx :=
  .newHead env ctx params input.hash input.withdrawalFulfillmentPk inputs.preStakeOutpoint
    input.operatorFunds input.operatorPubkey

/-- The loop over the later indices, up to the first one without an input
(`stake_chain.rs`, lines 101–114). -/
def advanceAlong (last : StakeTx) : List ℕ → List StakeTx
  | [] => []
  | index :: rest =>
    match inputs.stakeInputs[index]? with
    | none => []
    | some input =>
      last.advance env ctx params input ::
        advanceAlong (last.advance env ctx params input) rest

/-- `StakeChain::new` (`stake_chain.rs`, lines 62–120). -/
def new : StakeChain :=
  match inputs.stakeInputs[0]? with
  | none => ⟨none, []⟩
  | some first =>
    let firstTx := headOf env ctx params inputs first
    match inputs.stakeInputs[1]? with
    | none => ⟨some firstTx, []⟩
    | some next =>
      let nextTx := firstTx.advance env ctx params next
      ⟨some firstTx, nextTx ::
        advanceAlong env ctx params inputs nextTx ((range inputs.stakeInputs.size).drop 2)⟩

def nth : ℕ → Option StakeTx
  | 0 => inputs.stakeInputs[0]?.map (headOf env ctx params inputs)
  | n + 1 => (nth n).bind fun last =>
      inputs.stakeInputs[n + 1]?.map (last.advance env ctx params)

def txs (chain : StakeChain) : List StakeTx := chain.head.toList ++ chain.tail

/-- `StakeChain::len` (`stake_chain.rs`, lines 133–135). -/
def len (chain : StakeChain) : ℕ :=
  match chain.head with
  | none => 0
  | some _ => 1 + chain.tail.length

/-- The txids of a chain by index, as they are read off when a node starts
(`stake_chain_state_machine.rs`, lines 60–78). -/
def txids (chain : StakeChain) : BTreeMap ℕ Txid :=
  match chain.head with
  | none => ∅
  | some head => .ofEntries ((0, head.computeTxid env) ::
      chain.tail.mapIdx fun index tx => (index + 1, tx.computeTxid env))

end Build

variable {env : Env} {ctx : TxBuildContext} {params : StakeChainParams} {inputs : StakeChainInputs}

/-! ### The loop -/

theorem mem_of_nth {n : ℕ} {tx : StakeTx} (h : nth env ctx params inputs n = some tx) {i : ℕ}
    (hi : i ≤ n) : i ∈ inputs.stakeInputs := by
  induction n generalizing tx with
  | zero =>
    obtain rfl := Nat.le_zero.mp hi
    obtain ⟨input, hinput, -⟩ := Option.map_eq_some_iff.mp h
    exact mem_iff_exists.mpr ⟨input, hinput⟩
  | succ n ih =>
    obtain ⟨last, hlast, h⟩ := Option.bind_eq_some_iff.mp h
    obtain ⟨input, hinput, -⟩ := Option.map_eq_some_iff.mp h
    rcases Nat.le_or_eq_of_le_succ hi with hi | rfl
    · exact ih hlast hi
    · exact mem_iff_exists.mpr ⟨input, hinput⟩

theorem lt_size_of_nth {n : ℕ} {tx : StakeTx} (h : nth env ctx params inputs n = some tx) :
    n < inputs.stakeInputs.size := by
  have hsub : range (n + 1) ⊆ inputs.stakeInputs.keys := fun i hi =>
    Std.ExtTreeMap.mem_keys.mpr (mem_of_nth h (Nat.lt_succ_iff.mp (mem_range.mp hi)))
  have hlen := (nodup_range.subperm hsub).length_le
  rw [length_range, Std.ExtTreeMap.length_keys] at hlen
  exact hlen

theorem nth_eq_none_of_le {n m : ℕ} (h : nth env ctx params inputs n = none) (hle : n ≤ m) :
    nth env ctx params inputs m = none := by
  induction m, hle using Nat.le_induction with
  | base => exact h
  | succ m _ ih => rw [nth, ih, Option.bind_none]

theorem getElem?_advanceAlong {last : StakeTx} {start : ℕ}
    (hlast : nth env ctx params inputs start = some last) (count j : ℕ) :
    (advanceAlong env ctx params inputs last (range' (start + 1) count))[j]? =
      if j < count then nth env ctx params inputs (start + 1 + j) else none := by
  induction count generalizing last start j with
  | zero => simp [advanceAlong]
  | succ count ih =>
    have hnext : nth env ctx params inputs (start + 1) =
        inputs.stakeInputs[start + 1]?.map (last.advance env ctx params) := by
      rw [nth, hlast, Option.bind_some]
    rw [range'_succ, advanceAlong]
    cases hinput : inputs.stakeInputs[start + 1]? with
    | none =>
      rw [hinput] at hnext
      simp [nth_eq_none_of_le hnext (Nat.le_add_right _ j)]
    | some input =>
      rw [hinput] at hnext
      cases j with
      | zero => simp [hnext]
      | succ j =>
        rw [getElem?_cons_succ, ih hnext j]
        simp only [Nat.add_lt_add_iff_right]
        rw [Nat.add_right_comm, Nat.add_assoc (start + 1) j 1]

/-- **The chain consists of the stake transactions one by one.** -/
theorem getElem?_txs_new (n : ℕ) :
    (new env ctx params inputs).txs[n]? = nth env ctx params inputs n := by
  rw [new]
  cases hfirst : inputs.stakeInputs[0]? with
  | none =>
    have hnone : nth env ctx params inputs 0 = none := by rw [nth, hfirst, Option.map_none]
    rw [nth_eq_none_of_le hnone (Nat.zero_le n)]
    rfl
  | some first =>
    have hzero : nth env ctx params inputs 0 = some (headOf env ctx params inputs first) := by
      rw [nth, hfirst, Option.map_some]
    cases hsecond : inputs.stakeInputs[1]? with
    | none =>
      have hnone : nth env ctx params inputs 1 = none := by
        rw [nth, hzero, Option.bind_some, hsecond, Option.map_none]
      cases n with
      | zero => exact hzero.symm
      | succ n => rw [nth_eq_none_of_le hnone (Nat.le_add_left 1 n)]; rfl
    | some second =>
      have hone : nth env ctx params inputs 1 =
          some ((headOf env ctx params inputs first).advance env ctx params second) := by
        rw [nth, hzero, Option.bind_some, hsecond, Option.map_some]
      match n with
      | 0 => exact hzero.symm
      | 1 => exact hone.symm
      | j + 2 =>
        have hrange : (range inputs.stakeInputs.size).drop 2 =
            range' (1 + 1) (inputs.stakeInputs.size - 2) := by
          rw [range_eq_range', drop_range']
        have hlast : nth env ctx params inputs (j + 2) =
            if j < inputs.stakeInputs.size - 2 then nth env ctx params inputs (1 + 1 + j)
            else none := by
          rw [Nat.add_comm j 2]
          split_ifs with hj
          · rfl
          · refine Option.eq_none_iff_forall_ne_some.mpr fun tx htx => hj ?_
            have := lt_size_of_nth htx
            omega
        rw [hlast, ← getElem?_advanceAlong hone, ← hrange]
        rfl

/-- **The txids that are read off a chain.** -/
theorem get_txids_new (n : ℕ) :
    ((new env ctx params inputs).txids env)[n]? =
      (nth env ctx params inputs n).map (StakeTx.computeTxid env) := by
  rw [← getElem?_txs_new]
  generalize hchain : new env ctx params inputs = chain
  cases hhead : chain.head with
  | none =>
    have htail : chain.tail = [] := by
      subst hchain
      rw [new] at hhead ⊢
      split at hhead
      · rfl
      · split at hhead <;> cases hhead
    simp [txids, txs, hhead, htail]
  | some head =>
    have htxs : chain.txs = head :: chain.tail := by simp [txs, hhead]
    have hentries : ((0, head.computeTxid env) ::
        chain.tail.mapIdx fun index tx => (index + 1, tx.computeTxid env)) =
        (chain.txs.map (StakeTx.computeTxid env)).mapIdx Prod.mk := by
      rw [htxs, map_cons, mapIdx_cons]
      exact congrArg _ (ext_getElem? fun i => by simp [Function.comp_def])
    simp only [txids, hhead, hentries]
    rw [get_ofEntries_mapIdx, getElem?_map]

end StakeChain

end StrataBridge
