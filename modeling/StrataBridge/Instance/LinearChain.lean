import StrataBridge.Bitcoin.Block
import StrataBridge.Instance.Linear

/-!
# Blocks in the linear instance

Blocks with which the client of Bitcoin Core can be run in the linear instance.
-/

namespace StrataBridge.Linear

open Rust

def payment (n : ℕ) : Transaction := ⟨2, n, [], []⟩

def chainBlock (height hash prev : ℕ) (txs : List Transaction) : ChainBlock where
  bip34BlockHeight := some height
  txdata := txs
  header := ⟨0, hash⟩
  blockHash := ⟨BitVec.ofNat 256 hash⟩
  prevBlockhash := ⟨BitVec.ofNat 256 prev⟩

def emptyBlock (height : ℕ) : ChainBlock := chainBlock height (height + 1) height []

def contractAt (height : ℕ) : BTreeMap Txid ContractSM :=
  (∅ : BTreeMap Txid ContractSM).insert ⟨1⟩ (.new (cfg oneOperator 0 1) height 100)

end StrataBridge.Linear
