import StrataBridge.DutyTracker.ContractManager
import StrataBridge.Executors.WotsHandler
import StrataBridge.StakeChain.StakeDb
import StrataBridge.TxGraph.Transactions

/-!
# Announcing a deposit

For every deposit an operator announces the data of its graph: the hash that locks its stake, the
output that funds its claim, its key and its one-time keys (`handle_publish_deposit_setup`). The
keys and the preimage of the hash come from the secret service. What was announced before is read
from the database, so that an announcement is the same whenever it is repeated.

## References

* `crates/duty-tracker/src/executors/deposit.rs`, lines 77–255
-/

namespace StrataBridge

open Rust

/-! ### What the executors are built on -/

/-- The client of the secret service. It is deterministic: a request has one answer. -/
structure SecretService where
  wots : WotsClient
  /-- `general_wallet_signer().pubkey()`. -/
  generalPubkey : Except ClientErr XOnlyPublicKey
  /-- `stake_chain_preimages().get_preimg(…)`. -/
  getPreimg : Txid → ℕ → ℕ → Except ClientErr Bytes

structure ExecutorEnv extends GraphEnv where
  /-- `sha256::Hash::hash`. -/
  sha256 : Bytes → Sha256Hash
  /-- The proof of a fulfillment and the assertions about it, by the fulfillment, the height to
  start from and the index of the deposit. -/
  generateAssertions : Txid → BitcoinBlockHeight → ℕ → Except ℕ Wots.Assertions

inductive ExecutorErr where
  | secretService (e : ClientErr)
  | wallet (code : ℕ)
  | proof (code : ℕ)
  | stakeSetupDataNotFound (op : P2POperatorPubKey)
  | panicked (msg : String)
  deriving DecidableEq, Repr

def ask {α : Type} (answer : Except ClientErr α) : Except ExecutorErr α :=
  answer.mapError .secretService

def orPanic {α : Type} (x : MayPanic α) : Except ExecutorErr α := x.mapError .panicked

theorem ask_eq_ok {α : Type} {answer : Except ClientErr α} {a : α} :
    ask answer = .ok a ↔ answer = .ok a := by
  cases answer <;> simp [ask, Except.mapError]

theorem bind_eq_ok {ε α β : Type} {x : Except ε α} {f : α → Except ε β} {b : β} :
    (x >>= f) = .ok b ↔ ∃ a, x = .ok a ∧ f a = .ok b := by
  cases x <;> simp [bind, Except.bind]

/-! ### The executor -/

section Setup

variable (env : ExecutorEnv) (table : OperatorTable) (s2 : SecretService)

/-- `handle_publish_deposit_setup` (lines 77–255), with the output that the wallet finds for the
claim. What is already in the database is announced again; otherwise the data are stored before they
are announced. -/
def handlePublishDepositSetup (db : StakeDb) (depositTxid : Txid) (depositIdx : ℕ)
    (inputs : StakeChainInputs) (fundingUtxo : Except ℕ OutPoint) :
    Except ExecutorErr (StakeDb × DepositSetup) := do
  let operatorPk ← ask s2.generalPubkey
  let wotsPks ← ask (getWotsPks s2.wots depositTxid)
  match db.getStakeData table.povIdx depositIdx with
  | some data => pure (db, ⟨depositIdx, data.hash, data.operatorFunds, operatorPk, wotsPks⟩)
  | none =>
    let preimg ← ask (s2.getPreimg inputs.preStakeOutpoint.txid inputs.preStakeOutpoint.vout
      depositIdx)
    let hash := env.sha256 preimg
    let fundingUtxo ← fundingUtxo.mapError .wallet
    let data : StakeTxData := ⟨fundingUtxo, hash, wotsPks.withdrawalFulfillment, operatorPk⟩
    pure (db.addStakeData table.povIdx depositIdx data,
      ⟨depositIdx, hash, fundingUtxo, operatorPk, wotsPks⟩)

structure OwnRows (preStake : OutPoint) (db : StakeDb) : Prop where
  start : db.getPreStake table.povIdx = some preStake
  rows : ∀ idx data, db.getStakeData table.povIdx idx = some data →
    ∃ preimg, s2.getPreimg preStake.txid preStake.vout idx = .ok preimg ∧
      data.hash = env.sha256 preimg

variable {env table s2} {db db' : StakeDb} {depositTxid : Txid} {depositIdx : ℕ}
  {inputs : StakeChainInputs} {fundingUtxo : Except ℕ OutPoint} {setup : DepositSetup}

/-- **What is announced**: the key and the one-time keys that the service has for the deposit, and
the data in the operator's row for it, which the database holds from then on. -/
theorem announced_of_handlePublishDepositSetup
    (h : handlePublishDepositSetup env table s2 db depositTxid depositIdx inputs fundingUtxo =
      .ok (db', setup)) :
    s2.generalPubkey = .ok setup.operatorPk ∧ getWotsPks s2.wots depositTxid = .ok setup.wotsPks ∧
      db.Extends db' ∧
      ∃ data, db'.getStakeData table.povIdx depositIdx = some data ∧ data.hash = setup.hash := by
  obtain ⟨operatorPk, hkey, h⟩ := bind_eq_ok.mp h
  obtain ⟨wotsPks, hwots, h⟩ := bind_eq_ok.mp h
  rw [ask_eq_ok] at hkey hwots
  cases hrow : db.getStakeData table.povIdx depositIdx with
  | some data =>
    simp only [hrow] at h
    cases h
    exact ⟨hkey, hwots, .refl _, data, hrow, rfl⟩
  | none =>
    simp only [hrow] at h
    obtain ⟨preimg, -, h⟩ := bind_eq_ok.mp h
    obtain ⟨funding, -, h⟩ := bind_eq_ok.mp h
    cases h
    exact ⟨hkey, hwots, db.extends_addStakeData _ _ _, _, StakeDb.getStakeData_addStakeData hrow,
      rfl⟩

/-- **Announcements keep the operator's own rows in order.** -/
theorem OwnRows.handlePublishDepositSetup {preStake : OutPoint}
    (hrows : OwnRows env table s2 preStake db) (hinputs : inputs.preStakeOutpoint = preStake)
    (h : handlePublishDepositSetup env table s2 db depositTxid depositIdx inputs fundingUtxo =
      .ok (db', setup)) :
    OwnRows env table s2 preStake db' := by
  obtain ⟨operatorPk, -, h⟩ := bind_eq_ok.mp h
  obtain ⟨wotsPks, -, h⟩ := bind_eq_ok.mp h
  cases hrow : db.getStakeData table.povIdx depositIdx with
  | some data =>
    simp only [hrow] at h
    cases h
    exact hrows
  | none =>
    simp only [hrow] at h
    obtain ⟨preimg, hpreimg, h⟩ := bind_eq_ok.mp h
    obtain ⟨funding, -, h⟩ := bind_eq_ok.mp h
    cases h
    rw [ask_eq_ok, hinputs] at hpreimg
    refine ⟨hrows.start, fun idx data hdata => ?_⟩
    rcases StakeDb.of_getStakeData_addStakeData hdata with hold | ⟨rfl, rfl⟩
    · exact hrows.rows idx data hold
    · exact ⟨preimg, hpreimg, rfl⟩

end Setup

end StrataBridge
