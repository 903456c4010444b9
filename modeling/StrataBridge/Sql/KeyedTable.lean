import Mathlib.Data.List.Nodup

/-!
# Tables with a primary key

A table whose rows are unique in their key. `INSERT OR IGNORE` writes a row only where there is
none with its key, so a row never changes once it is there: reading a key returns the row that was
first written under it, and tables grow.
-/

namespace Sql

variable {κ ρ : Type}

/-- A table with rows that are unique in their key. -/
structure KeyedTable (κ ρ : Type) where
  rows : List (κ × ρ)
  unique : (rows.map Prod.fst).Nodup

namespace KeyedTable

instance : EmptyCollection (KeyedTable κ ρ) := ⟨⟨[], .nil⟩⟩

variable [DecidableEq κ]

/-- `SELECT` by the primary key. -/
def select (t : KeyedTable κ ρ) (k : κ) : Option ρ :=
  (t.rows.find? fun row => row.1 = k).map Prod.snd

variable {t t' : KeyedTable κ ρ} {k k' : κ} {r : ρ}

/-- A row is read exactly if it is there. -/
theorem select_eq_some_iff : t.select k = some r ↔ (k, r) ∈ t.rows := by
  rw [select, Option.map_eq_some_iff]
  constructor
  · rintro ⟨⟨k', r'⟩, hfind, rfl⟩
    have hk : k' = k := by simpa using List.find?_some hfind
    rw [← hk]
    exact List.mem_of_find?_eq_some hfind
  · intro hmem
    cases hfind : t.rows.find? fun row => row.1 = k with
    | none => simpa using List.find?_eq_none.mp hfind (k, r) hmem
    | some row =>
      have hk : row.1 = k := by simpa using List.find?_some hfind
      have hrow : row = (k, r) :=
        List.inj_on_of_nodup_map t.unique (List.mem_of_find?_eq_some hfind) hmem hk
      exact ⟨row, rfl, by rw [hrow]⟩

theorem select_eq_none_iff : t.select k = none ↔ k ∉ t.rows.map Prod.fst := by
  rw [select, Option.map_eq_none_iff, List.find?_eq_none]
  simp only [decide_eq_true_eq, List.mem_map, not_exists, not_and]

/-- `INSERT OR IGNORE`: a row whose key is taken is dropped. -/
def insertOrIgnore (t : KeyedTable κ ρ) (k : κ) (r : ρ) : KeyedTable κ ρ :=
  if h : k ∈ t.rows.map Prod.fst then t
  else
    { rows := t.rows ++ [(k, r)]
      unique := by
        rw [List.map_append, List.map_singleton]
        exact t.unique.append (List.nodup_singleton k) (by simpa using h) }

/-- `INSERT OR IGNORE` of several rows, one after the other. -/
def insertAll (t : KeyedTable κ ρ) (rows : List (κ × ρ)) : KeyedTable κ ρ :=
  rows.foldl (fun t row => t.insertOrIgnore row.1 row.2) t

/-- A row that is there hides the one that is written. -/
theorem select_insertOrIgnore :
    (t.insertOrIgnore k r).select k' = (t.select k').or (if k = k' then some r else none) := by
  rw [insertOrIgnore]
  split_ifs with hmem hk hk
  · subst hk
    have hne : t.select k ≠ none := fun h => select_eq_none_iff.mp h hmem
    obtain ⟨r', hr'⟩ := Option.ne_none_iff_exists'.mp hne
    rw [hr', Option.some_or]
  · rw [Option.or_none]
  · subst hk
    rw [select_eq_none_iff.mpr hmem, Option.none_or, select_eq_some_iff]
    exact List.mem_append_right _ (List.mem_singleton_self _)
  · rw [Option.or_none]
    ext r'
    rw [select_eq_some_iff, select_eq_some_iff, List.mem_append, List.mem_singleton]
    exact or_iff_left fun h => hk (Prod.mk.inj h).1.symm

/-- **Reading what was first written.** -/
theorem select_insertAll (rows : List (κ × ρ)) :
    (t.insertAll rows).select k =
      (t.select k).or ((rows.find? fun row => row.1 = k).map Prod.snd) := by
  induction rows generalizing t with
  | nil => simp [insertAll]
  | cons row rows ih =>
    rw [insertAll, List.foldl_cons, ← insertAll, ih, select_insertOrIgnore]
    by_cases hk : row.1 = k <;> simp [hk]

/-! ### Tables that grow -/

/-- Every row of a table is in the other one. -/
def Extends (t t' : KeyedTable κ ρ) : Prop := ∀ k r, t.select k = some r → t'.select k = some r

theorem Extends.refl (t : KeyedTable κ ρ) : t.Extends t := fun _ _ h => h

/-- Writing rows changes none that are there. -/
theorem extends_insertAll (t : KeyedTable κ ρ) (rows : List (κ × ρ)) :
    t.Extends (t.insertAll rows) := by
  intro k r hr
  rw [select_insertAll, hr, Option.some_or]

theorem extends_insertOrIgnore (t : KeyedTable κ ρ) (k : κ) (r : ρ) :
    t.Extends (t.insertOrIgnore k r) :=
  t.extends_insertAll [(k, r)]

end KeyedTable

end Sql
