import StrataBridge.OperatorWallet.Wallet
import StrataBridge.Transition.Runs

/-!
# Leases of claim funding outputs

A claim funding output that was handed out stays leased until a sync shows a transaction that spends
it. The two wallets share the leases and are synced one after the other. A spend that only the sync
of the general wallet shows drops the lease, while the stakechain wallet goes on listing the output.

## References

* `crates/operator-wallet/src/lib.rs`, `crates/operator-wallet/src/sync.rs`,
  `crates/duty-tracker/src/executors/deposit.rs`
-/

namespace StrataBridge

open Rust Transition List

variable {W : Type} (bdk : Bdk W)

/-! ### What a sync leaves -/

/-- The transactions that a sync hands over to one wallet. -/
def Responses.delivered (r : Responses) : List Transaction :=
  (fetch r.nextBlock r.mempool).1.flatMap WalletUpdate.txs

theorem foldl_applyUpdate (updates : List WalletUpdate) (w : W) (leases : Finset OutPoint)
    (o : OutPoint) :
    (o ∈ (updates.foldl (applyUpdate bdk) (w, leases)).2 ↔
        o ∈ leases ∧ o ∉ spentOutpoints (updates.flatMap WalletUpdate.txs)) ∧
      (bdk.spent (updates.foldl (applyUpdate bdk) (w, leases)).1 o ↔
        bdk.spent w o ∨ o ∈ spentOutpoints (updates.flatMap WalletUpdate.txs)) := by
  induction updates generalizing w leases with
  | nil => simp [spentOutpoints]
  | cons update updates ih =>
    obtain ⟨hleases, hspent⟩ := ih (bdk.apply w update)
      (leases \ (spentOutpoints update.txs).toFinset)
    have happend : spentOutpoints (update.txs ++ updates.flatMap WalletUpdate.txs) =
        spentOutpoints update.txs ++ spentOutpoints (updates.flatMap WalletUpdate.txs) :=
      flatMap_append
    rw [flatMap_cons, happend, mem_append, not_or]
    refine ⟨hleases.trans ?_, hspent.trans ?_⟩
    · rw [Finset.mem_sdiff, mem_toFinset, and_assoc]
    · rw [bdk.spent_apply, or_assoc]

namespace OperatorWallet

/-- The transactions that a sync hands over to the stakechain wallet: none after a failure in the
sync of the general wallet. -/
def stakechainDelivered (node : Node) : List Transaction :=
  if (node 0).1.fails then [] else (node 0).2.delivered

/-- **What a sync leaves**, whether it returns or panics. -/
theorem sync_spec (node : Node) (w : OperatorWallet W) (o : OutPoint) :
    (o ∈ (w.sync bdk node).wallet.leasedOutpoints ↔
        o ∈ w.leasedOutpoints ∧ o ∉ spentOutpoints (node 0).1.delivered ∧
          o ∉ spentOutpoints (stakechainDelivered node)) ∧
      (bdk.spent (w.sync bdk node).wallet.stakechainWallet o ↔
        bdk.spent w.stakechainWallet o ∨ o ∈ spentOutpoints (stakechainDelivered node)) := by
  have hgeneral := (foldl_applyUpdate bdk (fetch (node 0).1.nextBlock (node 0).1.mempool).1
    w.generalWallet w.leasedOutpoints o).1
  have hstakechain := foldl_applyUpdate bdk (fetch (node 0).2.nextBlock (node 0).2.mempool).1
    w.stakechainWallet (w.afterGeneral bdk (node 0).1).leasedOutpoints o
  rw [sync_eq, stakechainDelivered]
  by_cases hfails : (node 0).1.fails
  · rw [if_pos hfails, if_pos hfails]
    exact ⟨hgeneral.trans (by simp [spentOutpoints, Responses.delivered]),
      by simp [afterGeneral, spentOutpoints]⟩
  · rw [if_neg hfails, if_neg hfails]
    exact ⟨hstakechain.1.trans ((and_congr_left' hgeneral).trans and_assoc), hstakechain.2⟩

/-! ### Handing out claim funding outputs -/

variable (w : OperatorWallet W) (ignore : OutPoint → Bool)

def isClaimFundingOutput (txout : LocalOutput) : Bool :=
  txout.txout.value = w.config.stakeFundingUtxoValue

def claimFundingOutputs : List LocalOutput :=
  (bdk.listUnspent w.stakechainWallet).filter w.isClaimFundingOutput

/-- `lease`: whether the outpoint was not leased before. -/
def lease (outpoint : OutPoint) : OperatorWallet W × Bool :=
  ({ w with leasedOutpoints := insert outpoint w.leasedOutpoints }, outpoint ∉ w.leasedOutpoints)

/-- `claim_funding_utxo` (`lib.rs`, lines 265–282). -/
def claimFundingUtxo (w : OperatorWallet W) : OperatorWallet W × Option OutPoint × ℕ :=
  match (w.claimFundingOutputs bdk).filter fun l =>
    !(ignore l.outpoint || l.outpoint ∈ w.leasedOutpoints) with
  | [] => (w, none, 0)
  | utxo :: considered =>
    let leased := w.lease utxo.outpoint
    (leased.1, if leased.2 then some utxo.outpoint else none, considered.length)

theorem claimFundingUtxo_cases (w : OperatorWallet W) :
    w.claimFundingUtxo bdk ignore = (w, none, 0) ∧
        (∀ l ∈ w.claimFundingOutputs bdk,
          ignore l.outpoint = false → l.outpoint ∈ w.leasedOutpoints) ∨
      ∃ utxo ∈ bdk.listUnspent w.stakechainWallet, utxo.outpoint ∉ w.leasedOutpoints ∧
        ∃ remaining, w.claimFundingUtxo bdk ignore =
          ((w.lease utxo.outpoint).1, some utxo.outpoint, remaining) := by
  rw [claimFundingUtxo]
  split
  next hnone =>
    refine .inl ⟨rfl, fun l hl => ?_⟩
    simpa using filter_eq_nil_iff.mp hnone l hl
  next utxo considered hcons =>
    have hmem := hcons ▸ mem_cons_self (a := utxo) (l := considered)
    obtain ⟨hlisted, hconsider⟩ := mem_filter.mp hmem
    have hnew : utxo.outpoint ∉ w.leasedOutpoints := by
      simp only [Bool.not_eq_true', Bool.or_eq_false_iff, decide_eq_false_iff_not] at hconsider
      exact hconsider.2
    refine .inr ⟨utxo, (mem_filter.mp hlisted).1, hnew, considered.length, ?_⟩
    simp [lease, hnew]

/-! ### Runs -/

inductive FundingCall where
  | claimFundingUtxo (ignore : OutPoint → Bool)
  | sync (node : Node)

/-- One call, with the outpoint it hands out. A sync that panics leaves the wallet to the next
call: the lock that guards it is not poisoned. -/
def serve : FundingCall → Option (OperatorWallet W × List OutPoint)
  | .claimFundingUtxo ignore =>
    let r := w.claimFundingUtxo bdk ignore
    some (r.1, r.2.1.toList)
  | .sync node => some ((w.sync bdk node).wallet, [])

/-- The stakechain wallet sees, by the end of a sync, the spends of leased outputs that the general
wallet sees in it. -/
def SeesSpends : FundingCall → Prop
  | .claimFundingUtxo _ => True
  | .sync node => ∀ o ∈ w.leasedOutpoints, o ∈ spentOutpoints (node 0).1.delivered →
      bdk.spent w.stakechainWallet o ∨ o ∈ spentOutpoints (stakechainDelivered node)

/-- **No claim funding output is handed out twice** in a run in which the stakechain wallet sees, by
the end of every sync, the spends of leased outputs that the general wallet sees in it. The syncs
may fail, and the wallets may see different blocks and mempools. -/
theorem never_handed_out_twice {w₀ w : OperatorWallet W} {outpoints : List OutPoint}
    (hrun : Run (serve bdk) (SeesSpends bdk) w₀ outpoints w) : outpoints.Nodup := by
  -- Whatever was handed out is leased, or the stakechain wallet has seen it spent.
  refine (hrun.invariant (I := fun outpoints w => outpoints.Nodup ∧ ∀ o ∈ outpoints,
    o ∈ w.leasedOutpoints ∨ bdk.spent w.stakechainWallet o) ⟨.nil, forall_mem_nil _⟩ ?_).1
  rintro outpoints w call w' handed ⟨hnodup, hkept⟩ hsees hserve
  cases call with
  | claimFundingUtxo ignore =>
    cases hserve
    rcases claimFundingUtxo_cases bdk ignore w with
      ⟨heq, -⟩ | ⟨utxo, hlisted, hnew, remaining, heq⟩
    · rw [heq]
      exact ⟨by simpa using hnodup, by simpa using hkept⟩
    · have hfresh : utxo.outpoint ∉ outpoints := fun hold =>
        (hkept _ hold).elim hnew (bdk.not_spent _ utxo hlisted)
      rw [heq]
      refine ⟨nodup_append.mpr ⟨hnodup, nodup_singleton _, ?_⟩, ?_⟩
      · rintro o ho o' ho' rfl
        obtain rfl := mem_singleton.mp ho'
        exact hfresh ho
      · intro o ho
        rcases mem_append.mp ho with ho | ho
        · exact (hkept o ho).imp_left Finset.mem_insert_of_mem
        · obtain rfl := mem_singleton.mp ho
          exact .inl (Finset.mem_insert_self _ _)
  | sync node =>
    cases hserve
    rw [append_nil]
    refine ⟨hnodup, fun o ho => ?_⟩
    obtain ⟨hleased, hspent⟩ := sync_spec bdk node w o
    rw [hleased, hspent]
    rcases hkept o ho with hold | hold
    · by_cases hgeneral : o ∈ spentOutpoints (node 0).1.delivered
      · exact .inr (hsees o hold hgeneral)
      · by_cases hstakechain : o ∈ spentOutpoints (stakechainDelivered node)
        · exact .inr (.inr hstakechain)
        · exact .inl ⟨hold, hgeneral, hstakechain⟩
    · exact .inr (.inl hold)

def fundingOutput (n : ℕ) : LocalOutput := ⟨⟨⟨BitVec.ofNat 256 n⟩, 0⟩, ⟨600, [2]⟩⟩

def spending (outputs : List LocalOutput) : Transaction :=
  ⟨2, 0, outputs.map fun l => ⟨l.outpoint, [], 0, []⟩, []⟩

/-- A wallet with two claim funding outputs. -/
def funded : OperatorWallet Ledger := holding [] [fundingOutput 1, fundingOutput 2]

/-- Take an output, let a sync meet the given answers once the stake transaction is in the mempool,
and take another. -/
def takeTwice (stakechain : Responses) : List FundingCall :=
  [.claimFundingUtxo fun _ => false,
    .sync fun _ => (mempool [spending [fundingOutput 1]], stakechain),
    .claimFundingUtxo fun _ => false]

instance (w : OperatorWallet Ledger) (call : FundingCall) :
    Decidable (SeesSpends Ledger.bdk w call) := by
  cases call <;> unfold SeesSpends <;> infer_instance

/-- Both wallets see the stake transaction in the mempool, and the next call gets the other
output. -/
theorem never_handed_out_twice_seen : ∃ w outpoints,
    Run (serve Ledger.bdk) (SeesSpends Ledger.bdk) funded outpoints w ∧
    outpoints = [(fundingOutput 1).outpoint, (fundingOutput 2).outpoint] ∧ outpoints.Nodup := by
  obtain ⟨w, outpoints, hrun, h⟩ := exists_run_of_exec (serve Ledger.bdk) (SeesSpends Ledger.bdk)
    funded (takeTwice (mempool [spending [fundingOutput 1]]))
    (fun _ outpoints => outpoints = [(fundingOutput 1).outpoint, (fundingOutput 2).outpoint])
    (by decide +kernel)
  exact ⟨w, outpoints, hrun, of_decide_eq_true h, never_handed_out_twice Ledger.bdk hrun⟩

/-- The general wallet sees the stake transaction in the mempool. When the calls for the stakechain
wallet fail, or the transaction has left the mempool in between, the output is handed out again. -/
theorem handed_out_twice :
    ([⟨[.error "timeout"], .ok []⟩, mempool []] : List Responses).map (fun stakechain =>
      (exec (serve Ledger.bdk) (fun _ _ => True) funded (takeTwice stakechain)).map Prod.snd) =
      .replicate 2 (some [(fundingOutput 1).outpoint, (fundingOutput 1).outpoint]) := by
  decide +kernel

end OperatorWallet

end StrataBridge
