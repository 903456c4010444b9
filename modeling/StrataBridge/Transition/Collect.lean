import Mathlib.Data.List.ProdSigma
import StrataBridge.Rust.BTreeMap

/-!
# Collecting messages that arrive in any order

A machine is called with one message after the other until it has them all, and only then goes
on. The state on the way is a function of the messages that have arrived; when it does not depend
on their order, neither does what the machine does with the last one.

The messages are often contributions: each of several senders contributes a value to each of
several items, and the machine keeps a row of values for every item. The rows are full exactly
when every contribution has arrived and could be read.
-/

namespace Transition

/-! ### Calls -/

section Calls

variable {σ τ ι ρ : Type}

/-- Calls in a row, with the results of all. -/
def calls (call : σ → ι → Option (σ × ρ)) (s : σ) : List ι → Option (σ × List ρ)
  | [] => some (s, [])
  | i :: is => (call s i).bind fun r => (calls call r.1 is).map fun q => (q.1, r.2 :: q.2)

theorem calls_map {call : σ → ι → Option (σ × ρ)} {call' : τ → ι → Option (τ × ρ)} (f : σ → τ)
    {is : List ι}
    (h : ∀ s, ∀ i ∈ is, call' (f s) i = (call s i).map fun r => (f r.1, r.2)) (s : σ) :
    calls call' (f s) is = (calls call s is).map fun q => (f q.1, q.2) := by
  induction is generalizing s with
  | nil => rfl
  | cons i is ih =>
    rw [calls, calls, h s i List.mem_cons_self]
    cases call s i with
    | none => rfl
    | some r =>
      simp only [Option.map_some, Option.bind_some, Option.map_map]
      rw [ih (fun s j hj => h s j (List.mem_cons_of_mem i hj)), Option.map_map]
      rfl

theorem calls_comp {κ : Type} (call : σ → ι → Option (σ × ρ)) (g : κ → ι) (s : σ) (is : List κ) :
    calls call s (is.map g) = calls (fun s k => call s (g k)) s is := by
  induction is generalizing s with
  | nil => rfl
  | cons k is ih => simp [calls, ih]

variable {call : σ → ι → Option (σ × ρ)} (state : List ι → σ) {msgs order : List ι}

/-- **Collecting in any order.** When every call but the last has one result and leaves a state
that its messages determine, and the last one always ends alike, the order of the messages is not
seen. -/
theorem calls_collect (quiet : ρ) (final : σ × ρ) (hne : msgs ≠ [])
    (hmore : ∀ done i rest, (done ++ i :: rest).Perm msgs → rest ≠ [] →
      call (state done) i = some (state (done ++ [i]), quiet))
    (hlast : ∀ done i, (done ++ [i]).Perm msgs → call (state done) i = some final)
    (h : order.Perm msgs) :
    calls call (state []) order =
      some (final.1, List.replicate (msgs.length - 1) quiet ++ [final.2]) := by
  -- the messages that are still to come, after those that are done
  have hrest (rest : List ι) : ∀ done, (done ++ rest).Perm msgs → rest ≠ [] →
      calls call (state done) rest =
        some (final.1, List.replicate (rest.length - 1) quiet ++ [final.2]) := by
    induction rest with
    | nil => exact fun _ _ hnil => absurd rfl hnil
    | cons i rest ih =>
      intro done hperm _
      rw [calls]
      by_cases hnil : rest = []
      · subst hnil
        rw [hlast done i hperm]
        rfl
      · rw [hmore done i rest hperm hnil, Option.bind_some,
          ih (done ++ [i]) (by simpa using hperm) hnil]
        obtain ⟨j, rest, rfl⟩ := List.exists_cons_of_ne_nil hnil
        rfl
  have hnil : order ≠ [] := by
    rintro rfl
    exact hne (List.nil_perm.mp h)
  rw [hrest order [] (by simpa using h) hnil, h.length_eq]

theorem calls_state
    (hstep : ∀ done i rest, (done ++ i :: rest).Perm msgs →
      ∃ result, call (state done) i = some (state (done ++ [i]), result))
    (h : order.Perm msgs) :
    ∃ results, calls call (state []) order = some (state order, results) := by
  have hrest (rest : List ι) : ∀ done, (done ++ rest).Perm msgs →
      ∃ results, calls call (state done) rest = some (state (done ++ rest), results) := by
    induction rest with
    | nil => exact fun done _ => ⟨[], by simp [calls]⟩
    | cons i rest ih =>
      intro done hperm
      obtain ⟨result, hcall⟩ := hstep done i rest hperm
      obtain ⟨results, hcalls⟩ := ih (done ++ [i]) (by simpa using hperm)
      exact ⟨result :: results, by simp [calls, hcall, hcalls]⟩
  exact hrest order [] (by simpa using h)

end Calls

/-! ### Contributions -/

/-- What a sender contributes to an item. -/
structure Contribution (K C β : Type) where
  sender : K
  item : C
  value : β

section Rows

variable {K C β V : Type} [Ord K] [Std.TransOrd K] [Std.LawfulEqOrd K] [DecidableEq C]

namespace Contribution

def slot (m : Contribution K C β) : K × C := (m.sender, m.item)

/-- The entry that a contribution makes in the row of an item: none in the row of another one,
or when it cannot be read. -/
def entry (decode : β → Option V) (c : C) (m : Contribution K C β) : Option (K × V) :=
  if m.item = c then (decode m.value).map fun v => (m.sender, v) else none

omit [Ord K] [Std.TransOrd K] [Std.LawfulEqOrd K] in
theorem entry_eq_some {decode : β → Option V} {c : C} {m : Contribution K C β} {e : K × V} :
    m.entry decode c = some e ↔ m.item = c ∧ decode m.value = some e.2 ∧ m.sender = e.1 := by
  simp only [entry, Option.ite_none_right_eq_some, Option.map_eq_some_iff]
  grind

end Contribution

open Contribution List

variable (decode : β → Option V)

/-- What a list of contributions leaves for one item. -/
def row (c : C) (l : List (Contribution K C β)) : Rust.BTreeMap K V :=
  Rust.BTreeMap.ofEntries (l.filterMap (entry decode c))

variable {decode} {l : List (Contribution K C β)} {m : Contribution K C β} {c : C}

omit [Ord K] [Std.TransOrd K] [Std.LawfulEqOrd K] in
theorem nodup_senders (hl : (l.map slot).Nodup) (c : C) :
    ((l.filterMap (entry decode c)).map Prod.fst).Nodup := by
  rw [List.Nodup, pairwise_map, pairwise_filterMap]
  refine (pairwise_map.mp hl).imp ?_
  intro m m' hne e he e' he' heq
  obtain ⟨hc, -, hk⟩ := entry_eq_some.mp he
  obtain ⟨hc', -, hk'⟩ := entry_eq_some.mp he'
  exact hne (Prod.ext (hk.trans (heq.trans hk'.symm)) (hc.trans hc'.symm))

theorem notMem_row (h : m.slot ∉ l.map slot) : m.sender ∉ row decode m.item l := by
  rw [row, Rust.BTreeMap.mem_ofEntries]
  intro hmem
  obtain ⟨e, he, hk⟩ := mem_map.mp hmem
  obtain ⟨m', hm', hentry⟩ := mem_filterMap.mp he
  obtain ⟨hc, -, hk'⟩ := entry_eq_some.mp hentry
  exact h (mem_map.mpr ⟨m', hm', Prod.ext (hk'.trans hk) hc⟩)

omit [Std.LawfulEqOrd K] in
theorem row_concat {v : V} (hv : decode m.value = some v) :
    row decode m.item (l ++ [m]) = (row decode m.item l).insert m.sender v := by
  have hentry : entry decode m.item m = some (m.sender, v) := entry_eq_some.mpr ⟨rfl, hv, rfl⟩
  simp [row, hentry, Rust.BTreeMap.ofEntries_concat]

omit [Std.TransOrd K] [Std.LawfulEqOrd K] in
theorem row_concat_of_ne (hne : m.item ≠ c) :
    row decode c (l ++ [m]) = row decode c l := by
  simp [row, entry, hne]

omit [Std.TransOrd K] [Std.LawfulEqOrd K] in
theorem row_concat_of_none (hv : decode m.value = none) :
    row decode c (l ++ [m]) = row decode c l := by
  simp [row, entry, hv]

theorem row_perm {l' : List (Contribution K C β)} (hl : (l.map slot).Nodup) (h : l.Perm l')
    (c : C) : row decode c l = row decode c l' :=
  Rust.BTreeMap.ofEntries_perm (nodup_senders hl c) (h.filterMap _)

/-! ### Full rows -/

section Full

variable {keys : List K} {items : List C} {rest : List (Contribution K C β)}

omit [Ord K] [Std.TransOrd K] [Std.LawfulEqOrd K] in
private theorem countP_item (hitems : items.Nodup) (hc : c ∈ items)
    (h : ((l ++ rest).map slot).Perm (keys ×ˢ items)) :
    l.countP (·.item = c) + rest.countP (·.item = c) = keys.length := by
  have hcount : (keys ×ˢ items).countP (fun p => p.2 = c) = keys.length := by
    clear h
    induction keys with
    | nil => rfl
    | cons k keys ih =>
      rw [product_cons, countP_append, ih, countP_map, length_cons]
      have hone : items.countP ((fun p : K × C => decide (p.2 = c)) ∘ fun b => (k, b)) = 1 := by
        rw [← count_eq_one_of_mem hitems hc]
        exact countP_congr fun b _ => by simp
      rw [hone, Nat.add_comm]
  rw [← hcount, ← h.countP_eq, countP_map, countP_append]
  rfl

omit [Ord K] [Std.TransOrd K] [Std.LawfulEqOrd K] in
theorem length_entries_le (decode : β → Option V) (c : C) (l : List (Contribution K C β)) :
    (l.filterMap (entry decode c)).length ≤ l.countP (·.item = c) ∧
      ((l.filterMap (entry decode c)).length = l.countP (·.item = c) ↔
        ∀ m ∈ l, m.item = c → (decode m.value).isSome) := by
  have hfilter : l.filterMap (entry decode c) =
      (l.filter (·.item = c)).filterMap (entry decode c) := by
    rw [filterMap_filter]
    refine filterMap_congr fun m _ => ?_
    by_cases hm : m.item = c <;> simp [entry, hm]
  rw [hfilter, countP_eq_length_filter, filterMap_length_eq_length]
  refine ⟨length_filterMap_le _ _, ?_⟩
  simp only [mem_filter, decide_eq_true_eq, and_imp]
  refine forall₂_congr fun m _ => forall_congr' fun hm => ?_
  simp [entry, hm]

/-- **When the rows are full.** With one contribution for every sender and item, each row has an
entry of every sender exactly when no contribution is left to come and all could be read. -/
theorem rows_full_iff (hitems : items.Nodup) (hkeys : keys.Nodup)
    (h : ((l ++ rest).map slot).Perm (keys ×ˢ items)) :
    (∀ c ∈ items, (row decode c l).size = keys.length) ↔
      rest = [] ∧ ∀ m ∈ l, (decode m.value).isSome := by
  have hnodup : ((l ++ rest).map slot).Nodup := h.nodup_iff.mpr (hkeys.product hitems)
  have hsize (c : C) : (row decode c l).size = (l.filterMap (entry decode c)).length := by
    refine Rust.BTreeMap.size_ofEntries (nodup_senders ?_ c)
    exact hnodup.sublist ((sublist_append_left l rest).map slot)
  have hitem {m : Contribution K C β} (hm : m ∈ l ++ rest) : m.item ∈ items := by
    have hmem := h.subset (mem_map_of_mem hm)
    exact (mem_product.mp hmem).2
  constructor
  · intro hfull
    have hboth (c : C) (hc : c ∈ items) : rest.countP (·.item = c) = 0 ∧
        ∀ m ∈ l, m.item = c → (decode m.value).isSome := by
      obtain ⟨hle, hiff⟩ := length_entries_le decode c l
      have hcount := countP_item hitems hc h
      have hlen := (hsize c).symm.trans (hfull c hc)
      exact ⟨by omega, hiff.mp (by omega)⟩
    refine ⟨eq_nil_iff_forall_not_mem.mpr fun m hm => ?_, fun m hm => ?_⟩
    · have hzero := (hboth m.item (hitem (mem_append_right l hm))).1
      exact absurd (countP_eq_zero.mp hzero m hm) (by simp)
    · exact (hboth m.item (hitem (mem_append_left rest hm))).2 m hm rfl
  · rintro ⟨rfl, hread⟩ c hc
    rw [hsize, (length_entries_le decode c l).2.mpr fun m hm _ => hread m hm]
    simpa using countP_item hitems hc h

end Full

/-! ### Tables of rows -/

section Fill

variable [Ord C] [Std.TransOrd C] [Std.LawfulEqOrd C]

/-- The rows of the items in the map, filled from the contributions. -/
def fill (decode : β → Option V) (rows : Rust.BTreeMap C (Rust.BTreeMap K V))
    (l : List (Contribution K C β)) : Rust.BTreeMap C (Rust.BTreeMap K V) :=
  rows.map fun c _ => row decode c l

variable {rows : Rust.BTreeMap C (Rust.BTreeMap K V)}

omit [Std.TransOrd K] [Std.LawfulEqOrd K] in
theorem get_fill (c : C) : (fill decode rows l)[c]? = rows[c]?.map fun _ => row decode c l := by
  rw [fill, Std.ExtTreeMap.getElem?_map]

omit [Std.TransOrd K] [Std.LawfulEqOrd K] in
theorem get_fill_of_mem (hc : c ∈ rows) : (fill decode rows l)[c]? = some (row decode c l) := by
  obtain ⟨old, hold⟩ := Rust.BTreeMap.mem_iff_exists.mp hc
  rw [get_fill, hold, Option.map_some]

omit [Std.TransOrd K] [Std.LawfulEqOrd K] in
theorem fill_nil (h : ∀ (c : C) old, rows[c]? = some old → old = ∅) :
    fill decode rows ([] : List (Contribution K C β)) = rows := by
  refine Std.ExtTreeMap.ext_getElem? fun c => ?_
  rw [get_fill]
  cases hc : rows[c]? with
  | none => rfl
  | some old =>
    rw [h c old hc]
    rfl

omit [Std.LawfulEqOrd K] in
theorem fill_concat (hm : m.item ∈ rows) {v : V} (hv : decode m.value = some v) :
    (fill decode rows l).insert m.item ((row decode m.item l).insert m.sender v) =
      fill decode rows (l ++ [m]) := by
  refine Std.ExtTreeMap.ext_getElem? fun c => ?_
  by_cases hc : m.item = c
  · subst hc
    rw [Rust.BTreeMap.get_insert_self, get_fill_of_mem hm, row_concat hv]
  · rw [Rust.BTreeMap.get_insert_of_ne _ _ hc, get_fill, get_fill, row_concat_of_ne hc]

omit [Std.TransOrd K] [Std.LawfulEqOrd K] [Std.TransOrd C] [Std.LawfulEqOrd C] in
theorem fill_concat_of_none (hv : decode m.value = none) :
    fill decode rows (l ++ [m]) = fill decode rows l := by
  simp only [fill, row_concat_of_none hv]

omit [Std.TransOrd C] [Std.LawfulEqOrd C] in
theorem fill_perm {l' : List (Contribution K C β)} (hl : (l.map slot).Nodup) (h : l.Perm l') :
    fill decode rows l = fill decode rows l' := by
  simp only [fill, row_perm hl h]

end Fill

end Rows

end Transition
