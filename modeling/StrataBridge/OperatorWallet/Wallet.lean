import StrataBridge.Instance.LinearChain
import Mathlib.Data.Finset.SDiff
import Mathlib.Data.List.Pairwise

/-!
# The wallet of an operator

An operator has a general wallet, from which withdrawals are fronted and claim funding outputs are
made, and a stakechain wallet, which holds the claim funding outputs. An output that is handed out
for a stake is leased until a sync shows a transaction that spends it.

The library that keeps the two wallets is a parameter. A sync makes two calls of the node for each
wallet, one of them again and again; what they answer, or that they fail, is its input. The answers
are fetched in a blocking task that a spawned task waits for, and are handed over through a channel.
A failed call panics in the blocking task, and both waits end in `expect`.

## Main definitions

* `OperatorWallet.sync`: a sync of both wallets

## Main results

* `OperatorWallet.sync_as_documented_iff`: it does what is documented if no call fails

## References

* `crates/operator-wallet/src/lib.rs`, `crates/operator-wallet/src/sync.rs`
-/

namespace StrataBridge

open Rust

/-! ### The library -/

/-- `LocalOutput`: an unspent output that a wallet knows. -/
structure LocalOutput where
  outpoint : OutPoint
  txout : TxOut
  deriving DecidableEq, Repr

/-- `WalletUpdate` (`sync.rs`, lines 18–23). -/
inductive WalletUpdate where
  | newBlock (block : ChainBlock)
  | mempoolTxs (txs : List Transaction)
  deriving DecidableEq, Repr

def WalletUpdate.txs : WalletUpdate → List Transaction
  | .newBlock block => block.txdata
  | .mempoolTxs txs => txs

def Transaction.spentOutpoints (tx : Transaction) : List OutPoint :=
  tx.input.map TxIn.previousOutput

def spentOutpoints (txs : List Transaction) : List OutPoint :=
  txs.flatMap Transaction.spentOutpoints

/-- The wallets of the library, with what is assumed of them: an output that the wallet has seen
spent is not listed. -/
structure Bdk (W : Type) where
  /-- `Wallet::list_unspent`. -/
  listUnspent : W → List LocalOutput
  /-- `Wallet::apply_block_connected_to` and `Wallet::apply_unconfirmed_txs`. -/
  apply : W → WalletUpdate → W
  /-- The wallet has applied a transaction that spends the output. -/
  spent : W → OutPoint → Prop
  not_spent : ∀ w, ∀ l ∈ listUnspent w, ¬spent w l.outpoint
  spent_apply : ∀ w update o, spent (apply w update) o ↔ spent w o ∨ o ∈ spentOutpoints update.txs

/-- `OperatorWalletConfig`, of which the functions below read one amount. -/
structure OperatorWalletConfig where
  stakeFundingUtxoValue : ℕ
  deriving DecidableEq, Repr

/-- `OperatorWallet` (`lib.rs`, lines 67–84), with what syncing and leasing read. -/
structure OperatorWallet (W : Type) where
  generalWallet : W
  stakechainWallet : W
  config : OperatorWalletConfig
  leasedOutpoints : Finset OutPoint

/-! ### Syncing -/

/-- The answers of the node while one wallet is synced: to `next_block` until it has no further
block, and to `mempool`. -/
structure Responses where
  nextBlock : List (Except String ChainBlock)
  mempool : Except String (List Transaction)

/-- The answers for the general and for the stakechain wallet, by the attempt. -/
abbrev Node : Type := ℕ → Responses × Responses

def Responses.fails (r : Responses) : Bool :=
  r.nextBlock.any (fun b => !b.toBool) || !r.mempool.toBool

def Node.fails (node : Node) (attempt : ℕ) : Bool :=
  (node attempt).1.fails || (node attempt).2.fails

/-- The closure of the blocking task (`sync.rs`, lines 122–130): what it sends, and how it ends. -/
def fetch : List (Except String ChainBlock) → Except String (List Transaction) →
    List WalletUpdate × MayPanic (Except String Unit)
  | .error e :: _, _ => ([], .error e)
  | .ok block :: rest, mempool =>
    let r := fetch rest mempool
    (.newBlock block :: r.1, r.2)
  | [], .error e => ([], .error e)
  | [], .ok txs => ([.mempoolTxs txs], .ok (.ok ()))

/-- Wait for a task and `expect` that it did not panic. -/
def joinExpect {α : Type} (msg : String) : MayPanic α → MayPanic α
  | .ok a => .ok a
  | .error _ => .error msg

/-- `sync_wallet_bitcoin_core` over `with_bitcoin_core` (`sync.rs`, lines 112–147). -/
def syncWalletBitcoinCore (blocking : MayPanic (Except String Unit)) :
    MayPanic (Except String Unit) :=
  joinExpect "thread should be fine" blocking

section Sync

variable {W : Type} (bdk : Bdk W)

/-- Apply an update and drop the leases of what it spends (`sync.rs`, lines 53–80). -/
def applyUpdate (s : W × Finset OutPoint) (update : WalletUpdate) : W × Finset OutPoint :=
  (bdk.apply s.1 update, s.2 \ (spentOutpoints update.txs).toFinset)

/-- `Backend::sync_wallet` (`sync.rs`, lines 37–88): the wallet and the leases keep the updates that
were sent before the task ended, however it ended. -/
def syncWallet (wallet : W) (leases : Finset OutPoint) (r : Responses) :
    (W × Finset OutPoint) × MayPanic (Except String Unit) :=
  let fetched := fetch r.nextBlock r.mempool
  (fetched.1.foldl (applyUpdate bdk) (wallet, leases),
    joinExpect "thread to be fine" (syncWalletBitcoinCore fetched.2))

def syncRetries : ℕ := 5

/-- How a sync ends: the wallet it leaves, also when it panics, and the attempts it made. -/
structure SyncEnd (W : Type) where
  wallet : OperatorWallet W
  attempts : ℕ
  result : MayPanic (Except String Unit)

namespace OperatorWallet

def afterGeneral (r : Responses) (w : OperatorWallet W) : OperatorWallet W :=
  let s := (syncWallet bdk w.generalWallet w.leasedOutpoints r).1
  { w with generalWallet := s.1, leasedOutpoints := s.2 }

def afterStakechain (r : Responses) (w : OperatorWallet W) : OperatorWallet W :=
  let s := (syncWallet bdk w.stakechainWallet w.leasedOutpoints r).1
  { w with stakechainWallet := s.1, leasedOutpoints := s.2 }

/-- The loop of `sync` (`lib.rs`, lines 333–365), from an attempt on, with the retries that are
left. -/
def syncFrom (node : Node) : ℕ → ℕ → OperatorWallet W → SyncEnd W
  | attempt, left, w =>
    let general := (syncWallet bdk w.generalWallet w.leasedOutpoints (node attempt).1).2
    let w := w.afterGeneral bdk (node attempt).1
    match general with
    | .error msg => ⟨w, attempt + 1, .error msg⟩
    | .ok first =>
      let stakechain := (syncWallet bdk w.stakechainWallet w.leasedOutpoints (node attempt).2).2
      let w := w.afterStakechain bdk (node attempt).2
      match stakechain with
      | .error msg => ⟨w, attempt + 1, .error msg⟩
      | .ok second =>
        match first, second with
        | .ok _, .ok _ => ⟨w, attempt + 1, .ok (.ok ())⟩
        | .error e, .ok _ | _, .error e =>
          match left with
          | 0 => ⟨w, attempt + 1, .ok (.error e)⟩
          | left + 1 => syncFrom node (attempt + 1) left w

/-- `OperatorWallet::sync`. -/
def sync (node : Node) (w : OperatorWallet W) : SyncEnd W := w.syncFrom bdk node 0 syncRetries

end OperatorWallet

theorem snd_fetch (blocks : List (Except String ChainBlock))
    (mempool : Except String (List Transaction)) :
    if (Responses.mk blocks mempool).fails then ∃ e, (fetch blocks mempool).2 = .error e
    else (fetch blocks mempool).2 = .ok (.ok ()) := by
  induction blocks with
  | nil =>
    cases mempool with
    | error e => exact ⟨e, rfl⟩
    | ok txs => rfl
  | cons response blocks ih =>
    cases response with
    | error e => exact ⟨e, rfl⟩
    | ok block => exact ih

/-- **A failed call is a panic of the caller**: neither wait hands an error on. -/
theorem snd_syncWallet (wallet : W) (leases : Finset OutPoint) (r : Responses) :
    (syncWallet bdk wallet leases r).2 =
      if r.fails then .error "thread to be fine" else .ok (.ok ()) := by
  have h := snd_fetch r.nextBlock r.mempool
  rw [syncWallet]
  split_ifs at h ⊢ with hfails
  · obtain ⟨e, he⟩ := h
    rw [he]
    rfl
  · rw [h]
    rfl

namespace OperatorWallet

theorem sync_eq (node : Node) (w : OperatorWallet W) :
    w.sync bdk node =
      ⟨if (node 0).1.fails then w.afterGeneral bdk (node 0).1
        else (w.afterGeneral bdk (node 0).1).afterStakechain bdk (node 0).2, 1,
        if node.fails 0 then .error "thread to be fine" else .ok (.ok ())⟩ := by
  rw [sync, syncFrom, Node.fails]
  simp only [snd_syncWallet]
  by_cases hfirst : (node 0).1.fails
  · simp [hfirst]
  · by_cases hsecond : (node 0).2.fails <;> simp [hfirst, hsecond]

/-- What the retries are for: no panic, `Ok` after the first attempt that syncs both wallets, and
`Err` when all attempts fail. -/
def SyncAsDocumented (node : Node) (s : SyncEnd W) : Prop :=
  (∃ attempt ≤ syncRetries, node.fails attempt = false ∧
    (∀ earlier < attempt, node.fails earlier = true) ∧
    s.attempts = attempt + 1 ∧ s.result = .ok (.ok ())) ∨
  ((∀ attempt ≤ syncRetries, node.fails attempt = true) ∧
    s.attempts = syncRetries + 1 ∧ ∃ e, s.result = .ok (.error e))

/-- **A sync does what its retries are for exactly when the first attempt meets no failure.** For
every pattern of failing calls: if a call of the first attempt fails, in either wallet, the sync
panics in that attempt, whatever later attempts would meet, and an `Err` is never returned; if none
fails, it returns `Ok`. -/
theorem sync_as_documented_iff (node : Node) (w : OperatorWallet W) :
    (SyncAsDocumented node (w.sync bdk node) ↔ node.fails 0 = false) ∧
      (node.fails 0 = true → (w.sync bdk node).result = .error "thread to be fine") := by
  rw [sync_eq]
  refine ⟨⟨?_, fun h => .inl ⟨0, Nat.zero_le _, h, by simp, rfl, by simp [h]⟩⟩,
    fun h => by simp [h]⟩
  rintro (⟨attempt, -, h, -, hcount, -⟩ | ⟨-, hcount, -⟩)
  · obtain rfl : attempt = 0 := (Nat.succ.inj hcount).symm
    exact h
  · cases hcount

end OperatorWallet

end Sync

/-! ### A ledger of outputs -/

/-- A wallet that keeps the outputs it has received and the ones it has seen spent. -/
structure Ledger where
  scriptPubkey : ScriptBuf
  received : List LocalOutput
  spent : List OutPoint

namespace Ledger

def receipts (w : Ledger) (tx : Transaction) : List LocalOutput :=
  (tx.output.zipIdx.map fun p => ⟨⟨Linear.computeTxid tx, p.2⟩, p.1⟩).filter
    (·.txout.scriptPubkey = w.scriptPubkey)

def bdk : Bdk Ledger where
  listUnspent w := (w.received.pwFilter (·.outpoint ≠ ·.outpoint)).filter (·.outpoint ∉ w.spent)
  apply w update := { w with
    received := w.received ++ update.txs.flatMap w.receipts
    spent := w.spent ++ spentOutpoints update.txs }
  spent w o := o ∈ w.spent
  not_spent _ _ hl := of_decide_eq_true (List.mem_filter.mp hl).2
  spent_apply _ _ _ := List.mem_append

instance (w : Ledger) (o : OutPoint) : Decidable (bdk.spent w o) :=
  inferInstanceAs (Decidable (o ∈ w.spent))

end Ledger

namespace OperatorWallet

/-- A wallet with the given unspent outputs in its general and in its stakechain wallet. -/
def holding (general stakechain : List LocalOutput) : OperatorWallet Ledger :=
  ⟨⟨[1], general, []⟩, ⟨[2], stakechain, []⟩, ⟨600⟩, ∅⟩

/-- The answers of a node with the given transactions in its mempool. -/
def mempool (txs : List Transaction) : Responses := ⟨[], .ok txs⟩

/-- The first call for the stakechain wallet fails and every later one would succeed: the sync
panics instead of trying again. -/
theorem one_failure_panics :
    ((holding [] []).sync Ledger.bdk fun attempt =>
      (mempool [], if attempt = 0 then ⟨[.error "timeout"], .ok []⟩ else mempool [])).result =
        .error "thread to be fine" := by
  rw [sync_eq]
  rfl

end OperatorWallet

end StrataBridge
