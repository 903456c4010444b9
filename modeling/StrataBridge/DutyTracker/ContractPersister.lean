import StrataBridge.DutyTracker.ContractSM
import StrataBridge.Sql.UniqueTable

/-!
# The contracts table

Contracts are kept on disk in a table with the txid of the deposit as primary key and a unique
deposit index. Every commit is an `INSERT OR REPLACE`, so what the table holds follows from the
rows that were committed; the persister is modelled by their sequence. Writes and reads are taken
to succeed, and the serializers to round trip.

## References

* `crates/duty-tracker/src/contract_persister.rs`
-/

namespace StrataBridge

open Rust

structure StoredContract where
  depositIdx : ℕ
  depositTx : DepositTx
  operatorTable : OperatorTable
  state : MachineState

def StoredContract.of (sm : ContractSM) : StoredContract where
  depositIdx := sm.cfg.depositIdx
  depositTx := sm.cfg.depositTx
  operatorTable := sm.cfg.operatorTable
  state := sm.state

/-- A row of the table `contracts` (lines 84–90). -/
structure ContractRow extends StoredContract where
  depositTxid : Txid

/-- The table `contracts`: a primary key and a unique index. -/
abbrev ContractsTable : Type :=
  Sql.UniqueTable ContractRow.depositTxid fun row => row.depositIdx

structure ContractPersister where
  log : List ContractRow

namespace ContractPersister

def table (p : ContractPersister) : ContractsTable := .replay p.log

/-- `ContractPersister::commit` (lines 162–211). -/
def commit (p : ContractPersister) (depositTxid : Txid) (contract : StoredContract) :
    ContractPersister :=
  ⟨p.log ++ [⟨contract, depositTxid⟩]⟩

/-- `ContractPersister::commit_all` (lines 214–284): one statement for every contract, in one
transaction. -/
def commitAll (p : ContractPersister) (activeContracts : BTreeMap Txid ContractSM) :
    ContractPersister :=
  ⟨p.log ++ activeContracts.toList.map fun e => ⟨.of e.2, e.1⟩⟩

/-- `ContractPersister::load` (lines 287–369). -/
def load (p : ContractPersister) (depositTxid : Txid) : Option StoredContract :=
  (p.table.select depositTxid).map ContractRow.toStoredContract

end ContractPersister

end StrataBridge
