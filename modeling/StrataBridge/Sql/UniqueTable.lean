import Mathlib.Data.List.Induction
import Mathlib.Data.List.Pairwise

/-!
# Tables with two unique columns

A table whose rows are unique in a primary key and in a second column. `INSERT OR REPLACE` never
fails on such a table: it removes every row that conflicts with the new one in either column,
which may be two rows, and then inserts. What a table holds after a sequence of such statements
is a function of the sequence.
-/

namespace Sql

variable {ρ κ ι : Type} {key : ρ → κ} {idx : ρ → ι}

/-- Rows that a table cannot hold together. -/
def Conflict (key : ρ → κ) (idx : ρ → ι) (a b : ρ) : Prop := key a = key b ∨ idx a = idx b

instance [DecidableEq κ] [DecidableEq ι] (a b : ρ) : Decidable (Conflict key idx a b) :=
  inferInstanceAs (Decidable (_ ∨ _))

/-- A table with a primary key and a unique index. -/
structure UniqueTable (key : ρ → κ) (idx : ρ → ι) where
  rows : List ρ
  unique : rows.Pairwise fun a b => ¬Conflict key idx a b

namespace UniqueTable

instance : EmptyCollection (UniqueTable key idx) := ⟨⟨[], .nil⟩⟩

section

variable [DecidableEq κ] [DecidableEq ι]

/-- `INSERT OR REPLACE`: rows in conflict with the new one are deleted. -/
def insertOrReplace (t : UniqueTable key idx) (row : ρ) : UniqueTable key idx where
  rows := t.rows.filter (fun r => ¬Conflict key idx r row) ++ [row]
  unique := by
    refine List.pairwise_append.mpr ⟨t.unique.filter _, List.pairwise_singleton _ _, ?_⟩
    intro a ha b hb
    obtain rfl := List.mem_singleton.mp hb
    exact of_decide_eq_true (List.mem_filter.mp ha).2

def select (t : UniqueTable key idx) (k : κ) : Option ρ := t.rows.find? fun r => key r = k

def replay (log : List ρ) : UniqueTable key idx := log.foldl insertOrReplace ∅

variable {t : UniqueTable key idx} {row r : ρ} {k : κ}

theorem mem_insertOrReplace :
    r ∈ (t.insertOrReplace row).rows ↔ r = row ∨ r ∈ t.rows ∧ ¬Conflict key idx r row := by
  simp only [insertOrReplace, List.mem_append, List.mem_filter, List.mem_singleton,
    decide_eq_true_eq]
  exact or_comm

omit [DecidableEq ι] in
theorem select_eq_some_iff : t.select k = some r ↔ r ∈ t.rows ∧ key r = k := by
  constructor
  · intro h
    exact ⟨List.mem_of_find?_eq_some h, by simpa using List.find?_some h⟩
  · rintro ⟨hr, hk⟩
    cases hs : t.select k with
    | none => simpa [hk] using List.find?_eq_none.mp hs r hr
    | some r' =>
      have hr' : r' ∈ t.rows := List.mem_of_find?_eq_some hs
      have hk' : key r' = k := by simpa using List.find?_some hs
      by_contra hne
      have : Std.Symm fun a b => ¬Conflict key idx a b :=
        ⟨fun a b h hc => h (hc.imp Eq.symm Eq.symm)⟩
      exact t.unique.forall hr hr' (fun h => hne (by rw [h])) (.inl (hk.trans hk'.symm))

theorem replay_append (log : List ρ) :
    (replay (log ++ [row]) : UniqueTable key idx) = (replay log).insertOrReplace row := by
  simp [replay]

theorem mem_of_mem_replay {log : List ρ} (h : r ∈ (replay log : UniqueTable key idx).rows) :
    r ∈ log := by
  induction log using List.reverseRecOn with
  | nil => exact h
  | append_singleton log row ih =>
    rw [replay_append, mem_insertOrReplace] at h
    rcases h with rfl | ⟨h, -⟩
    · simp
    · exact List.mem_append_left _ (ih h)

/-- **Reading what was last written.** Where rows agree in one column exactly when they agree in
the other, no statement removes anything but the previous version of its own row. -/
theorem select_replay {log : List ρ} (h : ∀ a ∈ log, ∀ b ∈ log, key a = key b ↔ idx a = idx b) :
    (replay log : UniqueTable key idx).select k = log.reverse.find? fun r => key r = k := by
  induction log using List.reverseRecOn with
  | nil => rfl
  | append_singleton log row ih =>
    have hlog := ih fun a ha b hb =>
      h a (List.mem_append_left _ ha) b (List.mem_append_left _ hb)
    rw [List.reverse_append, List.reverse_singleton, List.singleton_append, List.find?_cons]
    split
    next hk =>
      rw [replay_append, select_eq_some_iff, mem_insertOrReplace]
      exact ⟨.inl rfl, by simpa using hk⟩
    next hk =>
      have hk : key row ≠ k := by simpa using hk
      rw [← hlog]
      ext r
      rw [replay_append, select_eq_some_iff, select_eq_some_iff, mem_insertOrReplace]
      constructor
      · rintro ⟨rfl | ⟨hr, -⟩, hr'⟩
        · exact absurd hr' hk
        · exact ⟨hr, hr'⟩
      · rintro ⟨hr, rfl⟩
        refine ⟨.inr ⟨hr, ?_⟩, rfl⟩
        have hmem : r ∈ log ++ [row] := List.mem_append_left _ (mem_of_mem_replay hr)
        rintro (hkey | hidx)
        · exact hk hkey.symm
        · exact hk ((h r hmem row (by simp)).mpr hidx).symm

end

end UniqueTable

end Sql
