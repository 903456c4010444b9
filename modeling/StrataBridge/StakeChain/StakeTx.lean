import StrataBridge.TxGraph.PegOutGraph

/-!
# Stake transactions

An operator's stake moves along a chain of transactions, one for every deposit. The first one
spends the pre-stake output, every later one the stake output of the one before it.

## References

* `crates/stake-chain/src/transactions/stake.rs`,
  `crates/stake-chain/src/transactions/constants.rs`
-/

namespace StrataBridge

def stakeVout : ℕ := 2

/-- `WITHDRAWAL_FULFILLMENT_VOUT`: the output of a stake transaction that the claim spends. -/
def withdrawalFulfillmentVout : ℕ := 0

/-- `OPERATOR_FUNDS` (`constants.rs`): what funds the dust outputs of the graph. -/
def operatorFunds : ℕ := 330 * 2 * numAssertDataTx + 330 * 2 + 330 + 330 + 330 + 330

/-- `FUNDING_AMOUNT` (`crates/primitives/src/constants.rs`, line 124). -/
def fundingAmount : ℕ := 2 * 39 * 330 + 330 + 3 * 330

def segwitMinAmount : ℕ := 330

structure StakeTxData where
  operatorFunds : OutPoint
  hash : Sha256Hash
  withdrawalFulfillmentPk : Wots256PublicKey
  operatorPubkey : XOnlyPublicKey
  deriving DecidableEq, Repr

/-- `StakeTx` (`stake.rs`, lines 128–139): the unsigned transaction, the output that its second
input spends where it is recorded, the hash that locks the stake, and how the inputs are
spent. -/
structure StakeTx where
  unsignedTx : Transaction
  witnessUtxo : Option TxOut
  hash : Sha256Hash
  witnesses : TaprootWitness × TaprootWitness
  deriving DecidableEq, Repr

inductive StakeTxKind where
  | head (tx : StakeTx)
  | tail (tx : StakeTx)
  deriving DecidableEq, Repr

section Build

variable (env : Env)

namespace StakeTx

/-- `StakeTx::<Head>::new` (`stake.rs`, lines 313–382). -/
def newHead (ctx : TxBuildContext) (params : StakeChainParams) (hash : Sha256Hash)
    (withdrawalFulfillmentPk : Wots256PublicKey) (preStake funds : OutPoint)
    (operatorPubkey : XOnlyPublicKey) : StakeTx :=
  let agg := ctx.aggregatedPubkey env
  let connectorP := env.connectorP agg hash ctx.network
  let cpfp := env.connectorCpfp operatorPubkey ctx.network
  { unsignedTx :=
      { version := 3
        lockTime := 0
        input := createTxIns [funds, preStake]
        output := createTxOuts
          [(env.connectorK ctx.network withdrawalFulfillmentPk, operatorFunds - 2 * 330),
            (connectorP, env.minimalNonDust connectorP),
            (env.connectorStake agg operatorPubkey hash params.delta ctx.network,
              params.stakeAmount),
            (cpfp, env.minimalNonDust cpfp)] }
    witnessUtxo := none
    hash := hash
    witnesses := (.key, .key) }

/-- The inputs of a later stake transaction: the second one waits for the relative timelock
(`stake.rs`, lines 222 and 484; the height is cut to 16 bits). -/
def tailInputs (params : StakeChainParams) (funds prevStake : OutPoint) : List TxIn :=
  [⟨funds, [], enableRbfNoLocktime, []⟩, ⟨prevStake, [], params.delta % 2 ^ 16, []⟩]

/-- `StakeTx::<Tail>::new` (`stake.rs`, lines 432–517). -/
def newTail (ctx : TxBuildContext) (params : StakeChainParams) (input : StakeTxData)
    (prevHash : Sha256Hash) (prevStake : OutPoint) : StakeTx :=
  let agg := ctx.aggregatedPubkey env
  let connectorP := env.connectorP agg input.hash ctx.network
  let spendInfo :=
    env.connectorStakeSpendInfo agg input.operatorPubkey prevHash params.delta ctx.network
  { unsignedTx :=
      { version := 3
        lockTime := 0
        input := tailInputs params input.operatorFunds prevStake
        output := createTxOuts
          [(env.connectorK ctx.network input.withdrawalFulfillmentPk, fundingAmount),
            (connectorP, env.minimalNonDust connectorP),
            (env.connectorStake agg input.operatorPubkey input.hash params.delta ctx.network,
              params.stakeAmount),
            (env.connectorCpfp input.operatorPubkey ctx.network, segwitMinAmount)] }
    witnessUtxo := some
      ⟨params.stakeAmount,
        env.connectorStake agg input.operatorPubkey prevHash params.delta ctx.network⟩
    hash := input.hash
    witnesses := (.key, .script spendInfo.1 spendInfo.2) }

def computeTxid (tx : StakeTx) : Txid := env.computeTxid tx.unsignedTx

end StakeTx

/-- `StakeTxKind::compute_txid`. -/
def StakeTxKind.computeTxid : StakeTxKind → Txid
  | .head tx => tx.computeTxid env
  | .tail tx => tx.computeTxid env

end Build

end StrataBridge
