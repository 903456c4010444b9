import StrataBridge.StakeChain.StakeChain
import StrataBridge.Instance.Linear

/-!
# How the transactions of a stake chain hang together

A stake chain has a transaction for every index up to the first one without an input. Each of them
after the first is the one that the direct constructor builds, so that it does not matter whether a
chain is advanced step by step or a single transaction of it is built from the data of its own
index and of the one before.

Each of them also records the output that it spends, from which its signature hash and its control
block are made. That record is not read off the previous transaction: the connector of the previous
stake is put together again, from the hash of the previous index and the operator key of the current
one. It is the output that is really there exactly if both indices have the same key.

## Main results

* `StakeChain.new_eq_direct`: the chain is that of the direct constructor
* `StakeChain.records_prevout_iff`: when a record is right

## References

* `crates/stake-chain/src/stake_chain.rs`, lines 53–120
* `crates/stake-chain/src/transactions/stake.rs`, lines 169–255 and 432–517
-/

namespace StrataBridge

open Rust Linear BTreeMap List

variable {env : Env} {ctx : TxBuildContext} {params : StakeChainParams} {inputs : StakeChainInputs}

variable {n : ℕ} {input : StakeTxData}

namespace StakeChain

/-! ### The transactions one by one -/

/-- A stake transaction is the first one with its data, or advances another one with them. -/
theorem nth_cases {tx : StakeTx} (h : nth env ctx params inputs n = some tx)
    (hinput : inputs.stakeInputs[n]? = some input) :
    tx = headOf env ctx params inputs input ∨
      ∃ last : StakeTx, tx = last.advance env ctx params input := by
  cases n with
  | zero =>
    obtain ⟨first, hfirst, rfl⟩ := Option.map_eq_some_iff.mp h
    obtain rfl := Option.some.inj (hinput.symm.trans hfirst)
    exact .inl rfl
  | succ n =>
    obtain ⟨last, -, h⟩ := Option.bind_eq_some_iff.mp h
    obtain ⟨next, hnext, rfl⟩ := Option.map_eq_some_iff.mp h
    obtain rfl := Option.some.inj (hinput.symm.trans hnext)
    exact .inr ⟨last, rfl⟩

theorem hash_of_nth {tx : StakeTx} (h : nth env ctx params inputs n = some tx)
    (hinput : inputs.stakeInputs[n]? = some input) : tx.hash = input.hash := by
  rcases nth_cases h hinput with rfl | ⟨last, rfl⟩ <;> rfl

theorem exists_nth (env : Env) (ctx : TxBuildContext) (params : StakeChainParams)
    (h : ∀ i ≤ n, i ∈ inputs.stakeInputs) : ∃ tx, nth env ctx params inputs n = some tx := by
  induction n with
  | zero =>
    obtain ⟨first, hfirst⟩ := mem_iff_exists.mp (h 0 (Nat.le_refl 0))
    exact ⟨_, by rw [nth, hfirst, Option.map_some]⟩
  | succ n ih =>
    obtain ⟨last, hlast⟩ := ih fun i hi => h i (Nat.le_succ_of_le hi)
    obtain ⟨next, hnext⟩ := mem_iff_exists.mp (h (n + 1) (Nat.le_refl _))
    exact ⟨_, by rw [nth, hlast, Option.bind_some, hnext, Option.map_some]⟩

theorem nth_succ_eq_newTail {last : StakeTx} {prev : StakeTxData}
    (hlast : nth env ctx params inputs n = some last) (hprev : inputs.stakeInputs[n]? = some prev)
    (hinput : inputs.stakeInputs[n + 1]? = some input) :
    nth env ctx params inputs (n + 1) =
      some (.newTail env ctx params input prev.hash ⟨last.computeTxid env, stakeVout⟩) := by
  rw [nth, hlast, Option.bind_some, hinput, Option.map_some, StakeTx.advance_eq_newTail,
    hash_of_nth hlast hprev]

/-! ### The length of a chain -/

theorem len_new : (new env ctx params inputs).len = (new env ctx params inputs).txs.length := by
  rw [new]
  split
  · rfl
  · split <;> simp [len, txs, Nat.add_comm]

theorem len_new_eq {m : ℕ} (hmissing : m ∉ inputs.stakeInputs)
    (hpresent : ∀ i < m, i ∈ inputs.stakeInputs) : (new env ctx params inputs).len = m := by
  rw [len_new]
  refine Nat.le_antisymm (getElem?_eq_none_iff.mp ?_) (Nat.le_of_not_lt fun hlt => ?_)
  · rw [getElem?_txs_new]
    exact Option.eq_none_iff_forall_ne_some.mpr fun tx htx =>
      hmissing (mem_of_nth htx (Nat.le_refl m))
  · obtain ⟨tx, htx⟩ := exists_nth env ctx params fun i hi =>
      hpresent i (Nat.lt_of_le_of_lt hi hlt)
    rw [← getElem?_txs_new, getElem?_eq_none (Nat.le_refl _)] at htx
    cases htx

/-- **A chain consists of directly built transactions.** Its length is the first index without an
input. The transaction at index 0 is the head, and each later one is built from its own input, the
hash at the index before and the stake output of the transaction before. -/
theorem new_eq_direct (env : Env) (ctx : TxBuildContext) (params : StakeChainParams)
    (inputs : StakeChainInputs) :
    ∃ m, m ∉ inputs.stakeInputs ∧ (∀ i < m, i ∈ inputs.stakeInputs) ∧
      (new env ctx params inputs).len = m ∧ (new env ctx params inputs).txs.length = m ∧
      (∀ first, inputs.stakeInputs[0]? = some first →
        (new env ctx params inputs).txs[0]? = some (headOf env ctx params inputs first)) ∧
      ∀ (i : ℕ) prev input, i + 1 < m → inputs.stakeInputs[i]? = some prev →
        inputs.stakeInputs[i + 1]? = some input →
        ∃ last, (new env ctx params inputs).txs[i]? = some last ∧
          (new env ctx params inputs).txs[i + 1]? =
            some (.newTail env ctx params input prev.hash ⟨last.computeTxid env, stakeVout⟩) := by
  obtain ⟨m, hmissing, hpresent⟩ := exists_least_notMem inputs.stakeInputs
  have hlen : (new env ctx params inputs).len = m := len_new_eq hmissing hpresent
  refine ⟨m, hmissing, hpresent, hlen, len_new.symm.trans hlen, fun first hfirst => ?_,
    fun i prev input hi hprev hinput => ?_⟩
  · rw [getElem?_txs_new, nth, hfirst, Option.map_some]
  · obtain ⟨last, hlast⟩ := exists_nth env ctx params fun j (hj : j ≤ i) =>
      hpresent j (by omega)
    refine ⟨last, by rw [getElem?_txs_new, hlast], ?_⟩
    rw [getElem?_txs_new, nth_succ_eq_newTail hlast hprev hinput]

end StakeChain

/-! ### The recorded output -/

/-- A stake transaction spends the stake of another one, and the output it records for that input
is the one that is there. -/
structure StakeTx.SpendsStakeOf (env : Env) (tx prev : StakeTx) : Prop where
  outpoint : tx.unsignedTx.input[1]?.map TxIn.previousOutput =
    some ⟨prev.computeTxid env, stakeVout⟩
  prevout : ∃ out, prev.unsignedTx.output[stakeVout]? = some out ∧ tx.witnessUtxo = some out

/-- Stake outputs that differ only in the key of the operator have different scripts: a taproot
address commits to its leaf, and the leaf starts with the key. -/
def StakeLocksApart (env : Env) : Prop :=
  ∀ agg key key' hash delta network,
    env.connectorStake agg key hash delta network =
      env.connectorStake agg key' hash delta network → key = key'

namespace Linear

/-- The linear instance with stake outputs whose scripts tell all keys apart. -/
def lockEnv : Env :=
  { plain with
    connectorStake := fun agg key hash _ _ =>
      replicate key.code 1 ++ toBeBytes 4 agg.code ++ toBeBytes 4 hash.code }

theorem stakeLocksApart : StakeLocksApart lockEnv := by
  intro agg key key' hash delta network h
  have hlen := congrArg length h
  simp only [lockEnv, length_append, length_replicate, Nat.add_right_cancel_iff] at hlen
  exact congrArg XOnlyPublicKey.mk hlen

def stakeData (key idx : ℕ) : StakeTxData where
  operatorFunds := ⟨stakeTxid idx, 7⟩
  hash := ⟨40 + idx⟩
  withdrawalFulfillmentPk := ⟨50 + idx⟩
  operatorPubkey := ⟨key⟩

def twoStakes (key key' : ℕ) : StakeChainInputs where
  stakeInputs := (∅ : BTreeMap ℕ StakeTxData).insert 0 (stakeData key 0) |>.insert 1
    (stakeData key' 1)
  preStakeOutpoint := ⟨stakeTxid 5, 0⟩

end Linear

namespace StakeChain

theorem stakeOutput_of_nth {tx : StakeTx} (h : nth env ctx params inputs n = some tx)
    (hinput : inputs.stakeInputs[n]? = some input) :
    tx.unsignedTx.output[stakeVout]? = some ⟨params.stakeAmount,
      env.connectorStake (ctx.aggregatedPubkey env) input.operatorPubkey input.hash params.delta
        ctx.network⟩ := by
  rcases nth_cases h hinput with rfl | ⟨last, rfl⟩ <;> rfl

/-- **A stake transaction records the output it spends exactly if its index and the one before have
the same operator key.** The outpoint is right in any case. -/
theorem records_prevout_iff (hlocks : StakeLocksApart env) {n : ℕ} {prev input : StakeTxData}
    (hpresent : ∀ i ≤ n + 1, i ∈ inputs.stakeInputs)
    (hprev : inputs.stakeInputs[n]? = some prev)
    (hinput : inputs.stakeInputs[n + 1]? = some input) :
    ∃ last tx, (new env ctx params inputs).txs[n]? = some last ∧
      (new env ctx params inputs).txs[n + 1]? = some tx ∧
      (tx.SpendsStakeOf env last ↔ input.operatorPubkey = prev.operatorPubkey) := by
  obtain ⟨last, hlast⟩ := exists_nth env ctx params fun i (hi : i ≤ n) =>
    hpresent i (Nat.le_succ_of_le hi)
  have hout := stakeOutput_of_nth hlast hprev
  refine ⟨last, .newTail env ctx params input prev.hash ⟨last.computeTxid env, stakeVout⟩,
    by rw [getElem?_txs_new, hlast],
    by rw [getElem?_txs_new, nth_succ_eq_newTail hlast hprev hinput], ?_, ?_⟩
  · rintro ⟨-, out, hout', hrecorded⟩
    obtain rfl := Option.some.inj (hout.symm.trans hout')
    exact hlocks _ _ _ _ _ _ (congrArg TxOut.scriptPubkey (Option.some.inj hrecorded))
  · intro hkey
    refine ⟨rfl, _, hout, ?_⟩
    rw [StakeTx.newTail, hkey]

/-- With one operator key the output is recorded as it is. -/
theorem one_key_records_prevout :
    ∃ last tx,
      (new lockEnv (oneOperator.txBuildContext .regtest) stakeParams
        (twoStakes 1 1)).txs[0]? = some last ∧
      (new lockEnv (oneOperator.txBuildContext .regtest) stakeParams
        (twoStakes 1 1)).txs[1]? = some tx ∧
      tx.SpendsStakeOf lockEnv last := by
  have hpresent : ∀ i ≤ 0 + 1, i ∈ (twoStakes 1 1).stakeInputs := by decide +kernel
  have hprev : (twoStakes 1 1).stakeInputs[0]? = some (stakeData 1 0) := by
    decide +kernel
  have hinput : (twoStakes 1 1).stakeInputs[0 + 1]? = some (stakeData 1 1) := by
    decide +kernel
  obtain ⟨last, tx, hlast, htx, hiff⟩ :=
    records_prevout_iff stakeLocksApart hpresent hprev hinput
  exact ⟨last, tx, hlast, htx, hiff.mpr rfl⟩

/-- **An operator that changes its key breaks the record**: the second stake transaction spends the
stake of the first one, but records an output that is locked by the new key. -/
theorem changed_key_misrecords_prevout :
    (∀ i ≤ 1, i ∈ (twoStakes 1 2).stakeInputs) ∧
      ∃ last tx,
        (new plain (oneOperator.txBuildContext .regtest) stakeParams
          (twoStakes 1 2)).txs[0]? = some last ∧
        (new plain (oneOperator.txBuildContext .regtest) stakeParams
          (twoStakes 1 2)).txs[1]? = some tx ∧
        tx.unsignedTx.input[1]?.map TxIn.previousOutput = some ⟨last.computeTxid plain, stakeVout⟩ ∧
        ¬tx.SpendsStakeOf plain last := by
  have hpresent : ∀ i ≤ 1, i ∈ (twoStakes 1 2).stakeInputs := by decide +kernel
  have hprev : (twoStakes 1 2).stakeInputs[0]? = some (stakeData 1 0) := by
    decide +kernel
  have hinput : (twoStakes 1 2).stakeInputs[0 + 1]? = some (stakeData 2 1) := by
    decide +kernel
  obtain ⟨last, hlast⟩ := exists_nth plain (oneOperator.txBuildContext .regtest)
    stakeParams fun i (hi : i ≤ 0) => hpresent i (Nat.le_succ_of_le hi)
  refine ⟨hpresent, last, _, by rw [getElem?_txs_new, hlast],
    by rw [getElem?_txs_new, nth_succ_eq_newTail hlast hprev hinput], rfl, fun h => ?_⟩
  obtain ⟨out, hout, hrecorded⟩ := h.prevout
  obtain rfl := Option.some.inj ((stakeOutput_of_nth hlast hprev).symm.trans hout)
  exact absurd (congrArg TxOut.scriptPubkey (Option.some.inj hrecorded)) (by decide +kernel)

end StakeChain

end StrataBridge
