import StrataBridge.Bitcoin.Transaction

/-!
# Building transactions and data scripts

The helpers from which the transactions of the bridge are put together: unsigned inputs, outputs,
and the `OP_RETURN` script that carries the metadata of a deposit.

## References

* `crates/primitives/src/scripts/general.rs`, `crates/primitives/src/scripts/metadata.rs`
-/

namespace StrataBridge

/-- `Sequence::ENABLE_RBF_NO_LOCKTIME`, the sequence number that `create_tx_ins` sets. -/
def enableRbfNoLocktime : ℕ := 0xfffffffd

def createTxIns (utxos : List OutPoint) : List TxIn :=
  utxos.map fun utxo => ⟨utxo, [], enableRbfNoLocktime, []⟩

def createTxOuts (scriptsAndAmounts : List (ScriptBuf × ℕ)) : List TxOut :=
  scriptsAndAmounts.map fun p => ⟨p.2, p.1⟩

def createTx (txIns : List TxIn) (txOuts : List TxOut) : Transaction where
  version := 2
  lockTime := 0
  input := txIns
  output := txOuts

/-- `Builder::push_slice`: the shortest push opcode for the length, then the bytes. -/
def pushSlice (data : Bytes) : Bytes :=
  let n := data.length
  (if n ≤ 0x4b then [UInt8.ofNat n]
    else if n < 2 ^ 8 then [0x4c, UInt8.ofNat n]
    else if n < 2 ^ 16 then 0x4d :: (toBeBytes 2 n).reverse
    else 0x4e :: (toBeBytes 4 n).reverse) ++ data

/-- `DepositMetadata` (`metadata.rs`, lines 19–59). -/
inductive DepositMetadata where
  | depositRequestTx (takebackPubkey : Bytes) (eeAddress : Bytes)
  | depositTx (stakeIndex : ℕ) (eeAddress : Bytes) (takebackHash : BitVec 256) (inputAmount : ℕ)
  deriving DecidableEq, Repr

/-- `TAG_SIZE` (`crates/params/src/types.rs`, line 8). -/
def tagSize : ℕ := 4

/-- `Tag` (`crates/params/src/types.rs`, lines 10–12): the magic bytes of the bridge. -/
structure Tag where
  bytes : Bytes
  length_eq : bytes.length = tagSize
  deriving DecidableEq, Repr

/-- `AuxiliaryData` (`metadata.rs`, lines 6–16). -/
structure AuxiliaryData where
  tag : Tag
  metadata : DepositMetadata
  deriving DecidableEq, Repr

/-- `AuxiliaryData::to_vec` (`metadata.rs`, lines 67–97). -/
def AuxiliaryData.toVec (data : AuxiliaryData) : Bytes :=
  data.tag.bytes ++
    match data.metadata with
    | .depositRequestTx takebackPubkey eeAddress => takebackPubkey ++ eeAddress
    | .depositTx stakeIndex eeAddress takebackHash inputAmount =>
      toBeBytes 4 stakeIndex ++ eeAddress ++ toBeBytes 32 takebackHash.toNat ++
        toBeBytes 8 inputAmount

/-- `metadata_script` (`general.rs`, lines 80–93). -/
def metadataScript (data : AuxiliaryData) : ScriptBuf := opReturn :: pushSlice data.toVec

end StrataBridge
