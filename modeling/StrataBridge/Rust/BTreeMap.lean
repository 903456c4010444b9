import Mathlib.Tactic.Common
import Mathlib.Data.List.Nodup
import Mathlib.Data.List.Perm.Subperm
import Mathlib.Data.Nat.Find
import Mathlib.Algebra.GroupWithZero.Nat

/-!
# Ordered maps

`BTreeMap` is the ordered map of the standard library: a finite map that is iterated in the
order of its keys. Two maps with the same entries are equal. Hash maps whose iteration order
is never observed are modelled by the same type.
-/

namespace Rust

/-- Finite maps iterated in key order. -/
abbrev BTreeMap (K V : Type) [Ord K] : Type := Std.ExtTreeMap K V compare

section Code

variable {K L : Type} [Ord K] [Ord L]

/-- An order that is read off a code is transitive when that of the codes is. -/
theorem transOrd_of_code [Std.TransOrd L] (f : K → L)
    (h : ∀ a b : K, compare a b = compare (f a) (f b)) : Std.TransOrd K where
  eq_swap := by
    intro a b
    rw [h, h]
    exact Std.OrientedCmp.eq_swap
  isLE_trans := by
    intro a b c hab hbc
    rw [h] at *
    exact Std.TransCmp.isLE_trans hab hbc

/-- An order that is read off an injective code tells its elements apart. -/
theorem lawfulEqOrd_of_code [Std.LawfulEqOrd L] (f : K → L) (hf : ∀ a b, f a = f b → a = b)
    (h : ∀ a b : K, compare a b = compare (f a) (f b)) : Std.LawfulEqOrd K where
  compare_self := by
    intro a
    rw [h]
    exact Std.ReflCmp.compare_self
  eq_of_compare := by
    intro a b hab
    rw [h] at hab
    exact hf a b (Std.LawfulEqCmp.eq_of_compare hab)

end Code

namespace BTreeMap

open Std.ExtTreeMap

variable {K V W : Type} [Ord K] [Std.TransOrd K] [Std.LawfulEqOrd K]
variable {m : BTreeMap K V} {k : K} {l : List (K × V)}

/-- `BTreeMap::values`: the values in the order of their keys. -/
def vals (m : BTreeMap K V) : List V := m.toList.map Prod.snd

variable {v : V}

theorem mem_vals : v ∈ vals m ↔ ∃ k : K, m[k]? = some v := by
  simp [vals]

/-- The entries are those that a lookup finds. -/
@[simp] theorem mem_toList : (k, v) ∈ m.toList ↔ m[k]? = some v :=
  mem_toList_iff_getElem?_eq_some

omit [Std.LawfulEqOrd K] in
theorem mem_iff_exists : k ∈ m ↔ ∃ v, m[k]? = some v := by
  rw [mem_iff_isSome_getElem?, Option.isSome_iff_exists]

omit [Std.LawfulEqOrd K] in
theorem notMem_iff : k ∉ m ↔ m[k]? = none := by
  rw [mem_iff_exists, ← Option.not_isSome_iff_eq_none, Option.isSome_iff_exists]

theorem mem_insert {a : K} : a ∈ m.insert k v ↔ k = a ∨ a ∈ m := by
  rw [Std.ExtTreeMap.mem_insert, Std.LawfulEqOrd.compare_eq_iff_eq]

omit [Std.LawfulEqOrd K] in
theorem nodup_map_fst_toList (m : BTreeMap K V) : (m.toList.map Prod.fst).Nodup := by
  rw [map_fst_toList_eq_keys]
  exact nodup_keys

theorem filterMap_keys (m : BTreeMap K V) : m.keys.filterMap (fun k => m[k]?) = vals m := by
  have h : ∀ e ∈ m.toList, m[e.1]? = some e.2 := fun e he => mem_toList.mp he
  rw [vals, ← map_fst_toList_eq_keys, List.filterMap_map]
  rw [← List.filterMap_eq_map (f := Prod.snd)]
  exact List.filterMap_congr fun e he => h e he

section Lookup

variable [DecidableEq K]

/-- A lookup after an insertion. -/
theorem get_insert (m : BTreeMap K V) (k a : K) (v : V) :
    (m.insert k v)[a]? = if k = a then some v else m[a]? := by
  simp only [getElem?_insert, Std.LawfulEqOrd.compare_eq_iff_eq]

theorem get_alter (m : BTreeMap K V) (k a : K) (f : Option V → Option V) :
    (m.alter k f)[a]? = if k = a then f m[k]? else m[a]? := by
  simp only [getElem?_alter, Std.LawfulEqOrd.compare_eq_iff_eq]

theorem get_erase (m : BTreeMap K V) (k a : K) :
    (m.erase k)[a]? = if k = a then none else m[a]? := by
  simp only [getElem?_erase, Std.LawfulEqOrd.compare_eq_iff_eq]

omit [DecidableEq K] in
theorem get_insert_self (m : BTreeMap K V) (k : K) (v : V) : (m.insert k v)[k]? = some v := by
  simp

theorem get_insert_of_ne (m : BTreeMap K V) {a : K} (v : V) (h : k ≠ a) :
    (m.insert k v)[a]? = m[a]? := by
  simp [get_insert, h]

theorem insert_eq_self {v : V} (h : m[k]? = some v) : m.insert k v = m := by
  refine ext_getElem? fun a => ?_
  rw [get_insert]
  split_ifs with hka
  · rw [← hka, h]
  · rfl

/-- An insertion changes nothing exactly if the entry is there. -/
theorem insert_eq_self_iff {v : V} : m.insert k v = m ↔ m[k]? = some v := by
  refine ⟨fun h => ?_, insert_eq_self⟩
  rw [← h, get_insert_self]

end Lookup

/-- A new entry comes somewhere among the old ones. -/
theorem toList_insert_perm (h : k ∉ m) (v : V) :
    (m.insert k v).toList.Perm ((k, v) :: m.toList) := by
  classical
  have hne : ∀ w, (k, w) ∉ m.toList := fun w hw =>
    h (mem_iff_exists.mpr ⟨w, mem_toList.mp hw⟩)
  have hnodup : ∀ t : BTreeMap K V, t.toList.Nodup := fun t =>
    List.Nodup.of_map _ (nodup_map_fst_toList t)
  refine (List.perm_ext_iff_of_nodup (hnodup _) (List.nodup_cons.mpr ⟨hne v, hnodup m⟩)).mpr ?_
  rintro ⟨a, w⟩
  rw [mem_toList, get_insert, List.mem_cons]
  split_ifs with heq
  · subst heq
    have hnone : m[k]? = none := notMem_iff.mp h
    simp [hnone, eq_comm]
  · simp [Ne.symm heq]

theorem vals_insert_perm (h : k ∉ m) (v : V) : (vals (m.insert k v)).Perm (v :: vals m) :=
  (toList_insert_perm h v).map Prod.snd

omit [Std.LawfulEqOrd K] in
theorem head?_vals_eq_none : (vals m).head? = none ↔ m = ∅ := by
  rw [vals, List.head?_eq_none_iff, List.map_eq_nil_iff, toList_eq_nil_iff]

/-- The value of the least key comes first. -/
theorem head?_vals_of_zero {m : BTreeMap ℕ V} (h : m[0]? = some v) : (vals m).head? = some v := by
  have hmem : (0, v) ∈ m.toList := mem_toList.mpr h
  have hord := ordered_keys_toList (t := m)
  rw [vals]
  cases hl : m.toList with
  | nil => simp [hl] at hmem
  | cons e rest =>
    rw [hl] at hmem hord
    rcases List.mem_cons.mp hmem with rfl | hrest
    · rfl
    · have hlt := (List.pairwise_cons.mp hord).1 _ hrest
      exact absurd (Nat.compare_eq_lt.mp hlt) (Nat.not_lt_zero _)

section Size

variable {t : BTreeMap K W}

theorem keys_subperm (h : ∀ k ∈ m, k ∈ t) : m.keys.Subperm t.keys :=
  List.subperm_of_subset nodup_keys fun k hk => by
    rw [mem_keys] at hk ⊢
    exact h k hk

/-- **Counting keys.** A map whose keys are in another one of its size has all of them. -/
theorem mem_of_size_eq (h : ∀ k ∈ m, k ∈ t) (hsize : m.size = t.size) : ∀ k ∈ t, k ∈ m := by
  intro k hk
  have hperm := (keys_subperm h).perm_of_length_le (by simp [hsize])
  rw [← mem_keys] at hk ⊢
  exact hperm.symm.subset hk

/-- A map with keys from a list, and at least as many, has all of the list. -/
theorem mem_of_length_le {l : List K} (h : ∀ k ∈ m, k ∈ l) (hlen : l.length ≤ m.size) :
    m.size = l.length ∧ ∀ k ∈ l, k ∈ m := by
  have hsub : m.keys.Subperm l :=
    List.subperm_of_subset nodup_keys fun k hk => h k (mem_keys.mp hk)
  have hperm := hsub.perm_of_length_le (by simpa using hlen)
  refine ⟨by simpa using hperm.length_eq, fun k hk => ?_⟩
  exact mem_keys.mp (hperm.symm.subset hk)

theorem length_le_of_mem {l : List K} (hnodup : l.Nodup) (h : ∀ k ∈ l, k ∈ m) :
    l.length ≤ m.size := by
  have hsub : l ⊆ m.keys := fun k hk => mem_keys.mpr (h k hk)
  simpa using (List.subperm_of_subset hnodup hsub).length_le

/-- There is a first index without an entry. -/
theorem exists_least_notMem (m : BTreeMap ℕ V) : ∃ n, n ∉ m ∧ ∀ i < n, i ∈ m := by
  classical
  have hex : ∃ n, n ∉ m := by
    by_contra hall
    have hsub : List.range (m.size + 1) ⊆ m.keys := fun i _ =>
      mem_keys.mpr (not_not.mp fun hi => hall ⟨i, hi⟩)
    have hlen := (List.nodup_range.subperm hsub).length_le
    rw [List.length_range, length_keys] at hlen
    omega
  exact ⟨Nat.find hex, Nat.find_spec hex, fun i hi => not_not.mp (Nat.find_min hex hi)⟩

/-- Maps with the same keys list them in the same order. -/
theorem keys_eq (h : ∀ k : K, k ∈ m ↔ k ∈ t) : m.keys = t.keys := by
  have hperm : m.keys.Perm t.keys :=
    (List.perm_ext_iff_of_nodup nodup_keys nodup_keys).mpr
      fun k => by simp [h]
  refine hperm.eq_of_pairwise ?_ ordered_keys ordered_keys
  intro a b _ _ hab hba
  exact absurd hba (Std.OrientedCmp.not_lt_of_lt hab)

/-- Maps that agree key by key have values that agree one by one. -/
theorem map_vals_eq {X : Type} {f : V → X} {g : W → X} (h : ∀ k : K, m[k]?.map f = t[k]?.map g) :
    (vals m).map f = (vals t).map g := by
  have hkeys : m.keys = t.keys := by
    refine keys_eq fun k => ?_
    rw [mem_iff_isSome_getElem?, mem_iff_isSome_getElem?,
      ← Option.isSome_map (f := f), h k, Option.isSome_map]
  rw [← filterMap_keys, ← filterMap_keys, List.map_filterMap, List.map_filterMap, hkeys]
  exact List.filterMap_congr fun k _ => h k

end Size

/-! ### Collecting entries -/

/-- Collect a list of entries into a map; a later entry replaces an earlier one of its key. -/
def ofEntries (l : List (K × V)) : BTreeMap K V := ofList l compare

theorem mem_ofEntries : k ∈ ofEntries l ↔ k ∈ l.map Prod.fst := by
  classical
  rw [ofEntries, mem_ofList, List.contains_iff_mem]

private theorem mem_of_get_insertMany [DecidableEq K] (h : (m.insertMany l)[k]? = some v) :
    (k, v) ∈ l ∨ m[k]? = some v := by
  induction l generalizing m with
  | nil => exact .inr (by simpa using h)
  | cons e rest ih =>
    rw [insertMany_cons] at h
    rcases ih h with hmem | hget
    · exact .inl (List.mem_cons_of_mem _ hmem)
    · rw [get_insert] at hget
      split_ifs at hget with heq
      · left
        rw [← heq, ← Option.some.inj hget]
        exact List.mem_cons_self
      · exact .inr hget

theorem mem_of_get_ofEntries (h : (ofEntries l)[k]? = some v) : (k, v) ∈ l := by
  classical
  rw [ofEntries, ofList_eq_insertMany_empty] at h
  rcases mem_of_get_insertMany h with hmem | hget
  · exact hmem
  · simp at hget

/-- Entries with different keys are all found. -/
theorem get_ofEntries (hl : (l.map Prod.fst).Nodup) (k : K) (v : V) :
    (ofEntries l)[k]? = some v ↔ (k, v) ∈ l := by
  refine ⟨mem_of_get_ofEntries, getElem?_ofList_of_mem Std.ReflCmp.compare_self ?_⟩
  refine (List.pairwise_map.mp hl).imp ?_
  simp

/-- A list as the map from its indices. -/
theorem get_ofEntries_mapIdx (l : List V) (n : ℕ) : (ofEntries (l.mapIdx Prod.mk))[n]? = l[n]? := by
  have hfst : (l.mapIdx Prod.mk).map Prod.fst = List.range l.length := by
    refine List.ext_getElem? fun i => ?_
    by_cases hi : i < l.length <;> simp [hi]
  have hnodup : ((l.mapIdx Prod.mk).map Prod.fst).Nodup := hfst ▸ List.nodup_range
  ext v
  rw [get_ofEntries hnodup, List.getElem?_eq_some_iff]
  simp

theorem toList_ofEntries_perm (hl : (l.map Prod.fst).Nodup) : (ofEntries l).toList.Perm l := by
  have hnodup : (ofEntries l).toList.Nodup := by
    refine distinct_keys_toList.imp ?_
    rintro a b hne rfl
    exact hne (by simp)
  refine (List.perm_ext_iff_of_nodup hnodup (List.Nodup.of_map _ hl)).mpr ?_
  rintro ⟨k, v⟩
  rw [mem_toList, get_ofEntries hl]

/-- **Entries with different keys can be collected in any order.** -/
theorem ofEntries_perm {l' : List (K × V)} (hl : (l.map Prod.fst).Nodup) (h : l.Perm l') :
    ofEntries l = ofEntries l' := by
  refine ext_getElem? fun k => Option.ext fun v => ?_
  rw [get_ofEntries hl, get_ofEntries ((h.map Prod.fst).nodup_iff.mp hl), h.mem_iff]

omit [Std.LawfulEqOrd K] in
theorem ofEntries_concat (l : List (K × V)) (k : K) (v : V) :
    ofEntries (l ++ [(k, v)]) = (ofEntries l).insert k v := by
  simp only [ofEntries, ofList_eq_insertMany_empty,
    insertMany_append, insertMany_list_singleton]

theorem size_ofEntries (hl : (l.map Prod.fst).Nodup) : (ofEntries l).size = l.length := by
  rw [← length_toList, (toList_ofEntries_perm hl).length_eq]

theorem vals_ofEntries_perm (hl : (l.map Prod.fst).Nodup) :
    (vals (ofEntries l)).Perm (l.map Prod.snd) :=
  (toList_ofEntries_perm hl).map Prod.snd

end BTreeMap

end Rust
