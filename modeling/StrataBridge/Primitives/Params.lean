import StrataBridge.Primitives.OperatorTable
import StrataBridge.Primitives.Scripts
import Mathlib.Data.Multiset.Basic

/-!
# Parameters, build contexts and signing data

The consensus parameters of the bridge, the context in which its transactions are built, and
the data of a joint signature: the witness a signature is made for, and the aggregated nonce of a
session.

An aggregated nonce is the sum of the nonces of all signers. The sum forgets their order, and
two different multisets of nonces are taken to have different sums; so an aggregated nonce is
carried as the multiset of its summands.

## References

* `crates/params/src/`, `crates/primitives/src/build_context.rs`,
  `crates/primitives/src/scripts/taproot.rs`
-/

namespace StrataBridge

abbrev BitcoinBlockHeight : Type := ℕ

/-! ### Parameters -/

/-- `PegOutGraphParams` (`crates/params/src/tx_graph.rs`, lines 31–50). -/
structure PegOutGraphParams where
  tag : Tag
  depositAmount : ℕ
  operatorFee : ℕ
  challengeCost : ℕ
  refundDelay : ℕ
  /-- The fee is a part of the deposit: `deposit_amount - operator_fee`, the amount that a
  fulfillment pays, panics otherwise. -/
  operatorFee_le : operatorFee ≤ depositAmount
  deriving DecidableEq, Repr

/-- `ConnectorParams` (`crates/params/src/connectors.rs`, lines 8–20): relative timelocks in
blocks. -/
structure ConnectorParams where
  payoutOptimisticTimelock : ℕ
  preAssertTimelock : ℕ
  payoutTimelock : ℕ
  deriving DecidableEq, Repr

/-- `StakeChainParams` (`crates/params/src/stake_chain.rs`, lines 12–27). -/
structure StakeChainParams where
  stakeAmount : ℕ
  burnAmount : ℕ
  delta : ℕ
  slashStakeCount : ℕ
  deriving DecidableEq, Repr

/-- The parameters of the sidesystem, of which the bridge itself reads the address length. -/
structure RollupParams where
  addressLength : ℕ
  code : ℕ
  deriving DecidableEq, Repr

/-- `TxBuildContext` (`crates/primitives/src/build_context.rs`, lines 34–49). -/
structure TxBuildContext where
  network : Network
  pubkeyTable : List (OperatorIdx × PublicKey)
  ownIndex : OperatorIdx
  deriving DecidableEq, Repr

/-- `OperatorTable::tx_build_context`. -/
def OperatorTable.txBuildContext (t : OperatorTable) (network : Network) : TxBuildContext where
  network := network
  pubkeyTable := t.publicKeyTable
  ownIndex := t.pov

/-! ### Signing -/

/-- How an input is spent (`crates/primitives/src/scripts/taproot.rs`, lines 198–221). -/
inductive TaprootWitness where
  | key
  | script (scriptBuf : ScriptBuf) (controlBlock : Bytes)
  | tweaked (tweak : BitVec 256)
  deriving DecidableEq, Repr

structure KeyAggContext where
  code : ℕ
  deriving DecidableEq, Repr

/-- The aggregated nonce of a signing session, as the multiset of its summands. -/
structure AggNonce where
  summands : Multiset PubNonce
  deriving DecidableEq

/-- `AggNonce::sum`. -/
def AggNonce.sum (nonces : List PubNonce) : AggNonce := ⟨nonces⟩

theorem AggNonce.sum_perm {l l' : List PubNonce} (h : l.Perm l') : sum l = sum l' := by
  rw [sum, sum, Multiset.coe_eq_coe.mpr h]

structure Sha256Hash where
  code : ℕ
  deriving DecidableEq, Repr

end StrataBridge
