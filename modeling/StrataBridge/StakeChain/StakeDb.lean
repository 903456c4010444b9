import StrataBridge.Sql.KeyedTable
import StrataBridge.StakeChain.StakeTx

/-!
# The stake chains in the database

Two tables hold what the operators have announced: the output that an operator's stake chain starts
from, by the operator, and the data of its stake transactions, by the operator and the index of the
deposit. All statements that write to them are of the form `INSERT OR IGNORE`.

## References

* `crates/db/src/persistent/sqlite.rs`, lines 344–513 and
  `migrations/20241113060253_init_schema.sql`, lines 61–80
-/

namespace StrataBridge

open Rust Sql

variable {idx : ℕ} {data : StakeTxData}

structure StakeDb where
  preStakes : KeyedTable OperatorIdx OutPoint
  stakeData : KeyedTable (OperatorIdx × ℕ) StakeTxData

namespace StakeDb

def empty : StakeDb := ⟨∅, ∅⟩

section Operations

variable (db : StakeDb) (op : OperatorIdx)

/-- `set_pre_stake` (lines 344–368). -/
def setPreStake (preStake : OutPoint) : StakeDb :=
  { db with preStakes := db.preStakes.insertOrIgnore op preStake }

/-- `get_pre_stake` (lines 370–388). -/
def getPreStake : Option OutPoint := db.preStakes.select op

/-- `add_stake_data` (lines 389–423). -/
def addStakeData (stakeIndex : ℕ) (data : StakeTxData) : StakeDb :=
  { db with stakeData := db.stakeData.insertOrIgnore (op, stakeIndex) data }

/-- `get_stake_data` (lines 425–451). -/
def getStakeData (depositIdx : ℕ) : Option StakeTxData := db.stakeData.select (op, depositIdx)

/-- `add_all_stake_data` (lines 453–483). -/
def addAllStakeData (data : List ((OperatorIdx × ℕ) × StakeTxData)) : StakeDb :=
  { db with stakeData := db.stakeData.insertAll data }

def rowsOf : List (ℕ × StakeTxData) :=
  db.stakeData.rows.filterMap fun row => if row.1.1 = op then some (row.1.2, row.2) else none

/-- `get_all_stake_data` (lines 485–513). -/
def getAllStakeData : BTreeMap ℕ StakeTxData := BTreeMap.ofEntries (db.rowsOf op)

end Operations

variable {db db' : StakeDb} {op : OperatorIdx}

theorem mem_rowsOf : (idx, data) ∈ db.rowsOf op ↔ ((op, idx), data) ∈ db.stakeData.rows := by
  simp only [rowsOf, List.mem_filterMap, Option.ite_none_right_eq_some, Option.some.injEq,
    Prod.mk.injEq]
  constructor
  · rintro ⟨⟨⟨op', idx'⟩, data'⟩, hmem, rfl, rfl, rfl⟩
    exact hmem
  · intro hmem
    exact ⟨_, hmem, rfl, rfl, rfl⟩

theorem nodup_rowsOf (db : StakeDb) (op : OperatorIdx) : ((db.rowsOf op).map Prod.fst).Nodup := by
  have hkeys : (db.rowsOf op).map Prod.fst =
      (db.stakeData.rows.map Prod.fst).filterMap fun k => if k.1 = op then some k.2 else none := by
    rw [rowsOf, List.map_filterMap, List.filterMap_map]
    refine List.filterMap_congr fun row _ => ?_
    by_cases h : row.1.1 = op <;> simp
  rw [hkeys]
  refine db.stakeData.unique.filterMap fun k k' idx hk hk' => ?_
  simp only [Option.mem_def, Option.ite_none_right_eq_some, Option.some.injEq] at hk hk'
  exact Prod.ext (hk.1.trans hk'.1.symm) (hk.2.trans hk'.2.symm)

/-- **All rows of an operator, one by one.** -/
theorem get_getAllStakeData (db : StakeDb) (op : OperatorIdx) (idx : ℕ) :
    (db.getAllStakeData op)[idx]? = db.getStakeData op idx := by
  ext data
  rw [getAllStakeData, BTreeMap.get_ofEntries (db.nodup_rowsOf op), mem_rowsOf, getStakeData,
    KeyedTable.select_eq_some_iff]

theorem getStakeData_addStakeData (h : db.getStakeData op idx = none) :
    (db.addStakeData op idx data).getStakeData op idx = some data := by
  rw [getStakeData] at h
  rw [getStakeData, addStakeData, KeyedTable.select_insertOrIgnore, h, if_pos rfl, Option.none_or]

theorem of_getStakeData_addStakeData {idx' : ℕ} {data' : StakeTxData}
    (h : (db.addStakeData op idx data).getStakeData op idx' = some data') :
    db.getStakeData op idx' = some data' ∨ idx = idx' ∧ data = data' := by
  rw [getStakeData, addStakeData, KeyedTable.select_insertOrIgnore, Option.or_eq_some_iff] at h
  rcases h with hold | ⟨-, hnew⟩
  · exact .inl hold
  · obtain ⟨hkey, hdata⟩ := Option.ite_none_right_eq_some.mp hnew
    exact .inr ⟨(Prod.mk.inj hkey).2, Option.some.inj hdata⟩

/-! ### Databases that grow -/

structure Extends (db db' : StakeDb) : Prop where
  preStakes : db.preStakes.Extends db'.preStakes
  stakeData : db.stakeData.Extends db'.stakeData

theorem Extends.refl (db : StakeDb) : db.Extends db := ⟨.refl _, .refl _⟩

theorem extends_addStakeData (db : StakeDb) (op : OperatorIdx) (idx : ℕ) (data : StakeTxData) :
    db.Extends (db.addStakeData op idx data) :=
  ⟨.refl _, db.stakeData.extends_insertOrIgnore _ _⟩

theorem extends_addAllStakeData (db : StakeDb) (data : List ((OperatorIdx × ℕ) × StakeTxData)) :
    db.Extends (db.addAllStakeData data) :=
  ⟨.refl _, db.stakeData.extends_insertAll data⟩

end StakeDb

end StrataBridge
