import StrataBridge.Bitcoin.Transaction

/-!
# The operator table

The table of the operators of the bridge as one of them sees it: three lookup maps between
operator indices, peer-to-peer keys and bitcoin keys, and the index of the operator whose point
of view it is. The maps are mutually inverse and the point of view is one of the operators;
both are fields of the table, and the constructor of the source establishes them.

## References

* `crates/primitives/src/operator_table.rs`
-/

namespace StrataBridge

open Rust BTreeMap List

variable {k : P2POperatorPubKey}

abbrev OperatorIdx : Type := ℕ

structure OperatorTableEntry where
  idx : OperatorIdx
  p2p : P2POperatorPubKey
  btc : PublicKey
  deriving DecidableEq, Repr

/-- The table of the operators. The three maps are views of one set of entries. -/
structure OperatorTable where
  pov : OperatorIdx
  idxKey : BTreeMap OperatorIdx (P2POperatorPubKey × PublicKey)
  p2pKey : BTreeMap P2POperatorPubKey (OperatorIdx × PublicKey)
  btcKey : BTreeMap PublicKey (OperatorIdx × P2POperatorPubKey)
  p2pKey_iff : ∀ (i : OperatorIdx) (k : P2POperatorPubKey) (b : PublicKey),
    p2pKey[k]? = some (i, b) ↔ idxKey[i]? = some (k, b)
  btcKey_iff : ∀ (i : OperatorIdx) (k : P2POperatorPubKey) (b : PublicKey),
    btcKey[b]? = some (i, k) ↔ idxKey[i]? = some (k, b)
  pov_mem : pov ∈ idxKey

namespace OperatorTable

/-! ### Construction -/

structure KeyMaps where
  idxKey : BTreeMap OperatorIdx (P2POperatorPubKey × PublicKey)
  p2pKey : BTreeMap P2POperatorPubKey (OperatorIdx × PublicKey)
  btcKey : BTreeMap PublicKey (OperatorIdx × P2POperatorPubKey)

namespace KeyMaps

def empty : KeyMaps := ⟨∅, ∅, ∅⟩

/-- One round of the constructor's loop: insert an entry in all three maps, unless one of them has
its key already (lines 54–67). -/
def insertEntry (m : KeyMaps) (e : OperatorTableEntry) : Option KeyMaps :=
  if e.idx ∈ m.idxKey ∨ e.p2p ∈ m.p2pKey ∨ e.btc ∈ m.btcKey then none
  else some
    { idxKey := m.idxKey.insert e.idx (e.p2p, e.btc)
      p2pKey := m.p2pKey.insert e.p2p (e.idx, e.btc)
      btcKey := m.btcKey.insert e.btc (e.idx, e.p2p) }

/-- The maps are views of one set of entries. -/
structure Consistent (m : KeyMaps) : Prop where
  p2pKey_iff : ∀ (i : OperatorIdx) (k : P2POperatorPubKey) (b : PublicKey),
    m.p2pKey[k]? = some (i, b) ↔ m.idxKey[i]? = some (k, b)
  btcKey_iff : ∀ (i : OperatorIdx) (k : P2POperatorPubKey) (b : PublicKey),
    m.btcKey[b]? = some (i, k) ↔ m.idxKey[i]? = some (k, b)

theorem consistent_empty : Consistent empty := ⟨by simp [empty], by simp [empty]⟩

theorem Consistent.insertEntry {m m' : KeyMaps} {e : OperatorTableEntry} (h : m.Consistent)
    (he : m.insertEntry e = some m') : m'.Consistent := by
  unfold KeyMaps.insertEntry at he
  split_ifs at he with hdup
  simp only [not_or, notMem_iff] at hdup
  obtain ⟨hidx, hp2p, hbtc⟩ := hdup
  cases he
  constructor
  · intro i k b
    simp only [get_insert]
    have hk := h.p2pKey_iff i k b
    have hi := h.p2pKey_iff e.idx
    grind
  · intro i k b
    simp only [get_insert]
    have hk := h.btcKey_iff i k b
    have hi := h.btcKey_iff e.idx
    grind

theorem mem_idxKey_insertEntry {m m' : KeyMaps} {e : OperatorTableEntry} {i : OperatorIdx}
    (he : m.insertEntry e = some m') : i ∈ m'.idxKey ↔ i = e.idx ∨ i ∈ m.idxKey := by
  unfold KeyMaps.insertEntry at he
  split_ifs at he
  cases he
  simp [eq_comm (a := i)]

theorem foldlM_insertEntry {entries : List OperatorTableEntry} {m m' : KeyMaps}
    (hm : m.Consistent) (h : entries.foldlM insertEntry m = some m') :
    m'.Consistent ∧ ∀ i, i ∈ m'.idxKey ↔ i ∈ m.idxKey ∨ ∃ e ∈ entries, e.idx = i := by
  induction entries generalizing m with
  | nil =>
    cases h
    exact ⟨hm, by simp⟩
  | cons e entries ih =>
    obtain ⟨m₁, he, h⟩ := Option.bind_eq_some_iff.mp h
    obtain ⟨hcons, hmem⟩ := ih (hm.insertEntry he) h
    refine ⟨hcons, fun i => ?_⟩
    rw [hmem, mem_idxKey_insertEntry he]
    grind

private def Fresh {K V : Type} [Ord K] [Std.TransOrd K] (m : BTreeMap K V) (ks : List K) : Prop :=
  ks.Nodup ∧ ∀ k ∈ ks, k ∉ m

private theorem fresh_cons {K V : Type} [Ord K] [Std.TransOrd K] [Std.LawfulEqOrd K]
    {m : BTreeMap K V} {k : K} {ks : List K} (v : V) :
    Fresh m (k :: ks) ↔ k ∉ m ∧ Fresh (m.insert k v) ks := by
  simp only [Fresh]
  grind

theorem exists_foldlM_insertEntry (entries : List OperatorTableEntry) (m : KeyMaps) :
    (∃ m', entries.foldlM insertEntry m = some m') ↔
      Fresh m.idxKey (entries.map (·.idx)) ∧ Fresh m.p2pKey (entries.map (·.p2p)) ∧
        Fresh m.btcKey (entries.map (·.btc)) := by
  induction entries generalizing m with
  | nil => simp [Fresh]
  | cons e entries ih =>
    simp only [foldlM_cons, map_cons, fresh_cons (e.p2p, e.btc),
      fresh_cons (e.idx, e.btc), fresh_cons (e.idx, e.p2p)]
    by_cases hdup : e.idx ∈ m.idxKey ∨ e.p2p ∈ m.p2pKey ∨ e.btc ∈ m.btcKey
    · simp only [insertEntry, hdup, if_true]
      refine iff_of_false (by simp) ?_
      tauto
    · simp only [insertEntry, hdup, if_false, Option.bind_eq_bind, Option.bind_some, ih]
      tauto

end KeyMaps

/-- `OperatorTable::new` (lines 38–76): the point of view is the first entry that is ours, and no
index or key may come twice. -/
def new (entries : List OperatorTableEntry) (isUs : OperatorTableEntry → Bool) :
    Option OperatorTable :=
  match hus : entries.find? isUs with
  | none => none
  | some us =>
    match hm : entries.foldlM KeyMaps.insertEntry KeyMaps.empty with
    | none => none
    | some m =>
      have h := KeyMaps.foldlM_insertEntry KeyMaps.consistent_empty hm
      some
        { pov := us.idx
          idxKey := m.idxKey
          p2pKey := m.p2pKey
          btcKey := m.btcKey
          p2pKey_iff := h.1.p2pKey_iff
          btcKey_iff := h.1.btcKey_iff
          pov_mem := (h.2 us.idx).mpr (.inr ⟨us, mem_of_find?_eq_some hus, rfl⟩) }

theorem isSome_new_iff {entries : List OperatorTableEntry} {isUs : OperatorTableEntry → Bool} :
    (new entries isUs).isSome ↔ (∃ e ∈ entries, isUs e) ∧ (entries.map (·.idx)).Nodup ∧
      (entries.map (·.p2p)).Nodup ∧ (entries.map (·.btc)).Nodup := by
  have hmaps := KeyMaps.exists_foldlM_insertEntry entries KeyMaps.empty
  simp only [KeyMaps.Fresh, KeyMaps.empty, Std.ExtTreeMap.not_mem_empty, not_false_eq_true,
    implies_true, and_true] at hmaps
  rw [← hmaps, new]
  split
  next hus =>
    exact iff_of_false (by simp) fun ⟨⟨e, he, hu⟩, _⟩ => find?_eq_none.mp hus e he hu
  next us hus =>
    split
    next hm =>
      refine iff_of_false (by simp) fun ⟨_, m, hm'⟩ => ?_
      cases hm.symm.trans hm'
    next m hm =>
      exact iff_of_true rfl ⟨⟨us, mem_of_find?_eq_some hus, find?_some hus⟩, m, hm⟩

/-! ### Lookups -/

section Lookups

variable (t : OperatorTable)

def idxToP2pKey (i : OperatorIdx) : Option P2POperatorPubKey := t.idxKey[i]?.map Prod.fst

def idxToBtcKey (i : OperatorIdx) : Option PublicKey := t.idxKey[i]?.map Prod.snd

def p2pKeyToIdx (k : P2POperatorPubKey) : Option OperatorIdx := t.p2pKey[k]?.map Prod.fst

def p2pKeyToBtcKey (k : P2POperatorPubKey) : Option PublicKey := t.p2pKey[k]?.map Prod.snd

def btcKeyToIdx (b : PublicKey) : Option OperatorIdx := t.btcKey[b]?.map Prod.fst

def btcKeyToP2pKey (b : PublicKey) : Option P2POperatorPubKey := t.btcKey[b]?.map Prod.snd

def povIdx : OperatorIdx := t.pov

def povP2pKey : P2POperatorPubKey := (t.idxKey.get t.pov t.pov_mem).1

def povBtcKey : PublicKey := (t.idxKey.get t.pov t.pov_mem).2

def cardinality : ℕ := t.idxKey.size

def btcKeys : List PublicKey := (vals t.idxKey).map Prod.snd

def p2pKeys : List P2POperatorPubKey := t.p2pKey.keys

def operatorIdxs : List OperatorIdx := t.idxKey.keys

def publicKeyTable : List (OperatorIdx × PublicKey) := t.idxKey.toList.map fun e => (e.1, e.2.2)

variable {V : Type} (m : BTreeMap P2POperatorPubKey V)

def convertEntry {K L : Type} (f : K → Option L) (e : K × V) : Except K (L × V) :=
  match f e.1 with
  | some l => .ok (l, e.2)
  | none => .error e.1

/-- Re-key a map through a lookup; the first key the lookup does not know is the error (lines
163–175 and its siblings). -/
def convertMap {K L : Type} [Ord K] [Ord L] [Std.TransOrd K] [Std.TransOrd L] (f : K → Option L)
    (m : BTreeMap K V) : Except K (BTreeMap L V) :=
  (m.toList.mapM (convertEntry f)).map ofEntries

def convertMapP2pToBtc : Except P2POperatorPubKey (BTreeMap PublicKey V) :=
  convertMap t.p2pKeyToBtcKey m

def convertMapP2pToIdx : Except P2POperatorPubKey (BTreeMap OperatorIdx V) :=
  convertMap t.p2pKeyToIdx m

def convertMapBtcToP2p (m : BTreeMap PublicKey V) :
    Except PublicKey (BTreeMap P2POperatorPubKey V) :=
  convertMap t.btcKeyToP2pKey m

def convertMapIdxToP2p (m : BTreeMap OperatorIdx V) :
    Except OperatorIdx (BTreeMap P2POperatorPubKey V) :=
  convertMap t.idxToP2pKey m

def convertMapBtcToIdx (m : BTreeMap PublicKey V) : Except PublicKey (BTreeMap OperatorIdx V) :=
  convertMap t.btcKeyToIdx m

def convertMapIdxToBtc (m : BTreeMap OperatorIdx V) : Except OperatorIdx (BTreeMap PublicKey V) :=
  convertMap t.idxToBtcKey m

end Lookups

/-! ### Lookups agree -/

section Agreement

variable {t : OperatorTable}

theorem p2pKeyToBtcKey_eq_some {b : PublicKey} :
    t.p2pKeyToBtcKey k = some b ↔ ∃ i : OperatorIdx, t.idxKey[i]? = some (k, b) := by
  simp [p2pKeyToBtcKey, t.p2pKey_iff]

theorem p2pKeyToIdx_eq_some {i : OperatorIdx} :
    t.p2pKeyToIdx k = some i ↔ t.idxToP2pKey i = some k := by
  simp [p2pKeyToIdx, idxToP2pKey, t.p2pKey_iff]

theorem mem_p2pKey_iff_exists_idx : k ∈ t.p2pKey ↔ ∃ i, t.p2pKeyToIdx k = some i := by
  simp [mem_iff_exists, p2pKeyToIdx]

theorem mem_p2pKey :
    k ∈ t.p2pKey ↔ ∃ (i : OperatorIdx) (b : PublicKey), t.idxKey[i]? = some (k, b) := by
  simp [mem_iff_exists, t.p2pKey_iff]

theorem p2pKeyToBtcKey_of_mem (hk : k ∈ t.p2pKey) : ∃ b, t.p2pKeyToBtcKey k = some b := by
  obtain ⟨i, b, h⟩ := mem_p2pKey.mp hk
  exact ⟨b, p2pKeyToBtcKey_eq_some.mpr ⟨i, h⟩⟩

theorem povP2pKey_mem : t.povP2pKey ∈ t.p2pKey := by
  refine mem_p2pKey.mpr ⟨t.pov, t.povBtcKey, ?_⟩
  rw [Std.ExtTreeMap.getElem?_eq_some_getElem t.pov_mem]
  rfl

theorem nodup_p2pKeys_by_index : ((vals t.idxKey).map Prod.fst).Nodup := by
  rw [vals, map_map]
  refine pairwise_map.mpr (Std.ExtTreeMap.distinct_keys_toList.imp_of_mem ?_)
  rintro ⟨i, k, b⟩ ⟨i', k', b'⟩ he he' hne (rfl : k = k')
  have h := (t.p2pKey_iff i k b).mpr (mem_toList.mp he)
  have h' := (t.p2pKey_iff i' k b').mpr (mem_toList.mp he')
  have hi : i = i' := congrArg Prod.fst (Option.some.inj (h.symm.trans h'))
  exact hne (by simp [hi])

theorem filterMap_idxKey_perm {V : Type} {m : BTreeMap P2POperatorPubKey V}
    (hmem : ∀ k ∈ m, k ∈ t.p2pKey) :
    ((vals t.idxKey).filterMap fun e => m[e.1]?).Perm (vals m) := by
  classical
  have hperm : (((vals t.idxKey).map Prod.fst).filter (· ∈ m)).Perm m.keys := by
    refine (perm_ext_iff_of_nodup (nodup_p2pKeys_by_index.filter _)
      Std.ExtTreeMap.nodup_keys).mpr fun k => ?_
    simp only [mem_filter, mem_map, decide_eq_true_eq, Std.ExtTreeMap.mem_keys]
    refine ⟨fun h => h.2, fun hk => ⟨?_, hk⟩⟩
    obtain ⟨i, b, h⟩ := mem_p2pKey.mp (hmem k hk)
    exact ⟨(k, b), mem_vals.mpr ⟨i, h⟩, rfl⟩
  have hfilter (l : List P2POperatorPubKey) :
      (l.filter (· ∈ m)).filterMap (fun k => m[k]?) = l.filterMap fun k => m[k]? := by
    rw [filterMap_filter]
    refine filterMap_congr fun k _ => ?_
    by_cases hk : k ∈ m <;> simp
  have heq : (vals t.idxKey).filterMap (fun e => m[e.1]?) =
      (((vals t.idxKey).map Prod.fst).filter (· ∈ m)).filterMap fun k => m[k]? := by
    rw [hfilter, filterMap_map]
    rfl
  rw [heq, ← filterMap_keys m]
  exact hperm.filterMap _

end Agreement

section Convert

variable {K L V : Type} [Ord K] [Std.TransOrd K] [Std.LawfulEqOrd K]
  [Ord L] [Std.TransOrd L] [Std.LawfulEqOrd L] {f : K → Option L} {m : BTreeMap K V}

omit [Ord K] [Std.TransOrd K] [Std.LawfulEqOrd K] [Ord L] [Std.TransOrd L] [Std.LawfulEqOrd L] in
theorem mapM_convertEntry_eq_ok_iff {l : List (K × V)} {l' : List (L × V)} :
    l.mapM (convertEntry f) = .ok l' ↔
      l.map (fun e => (f e.1, e.2)) = l'.map fun e => (some e.1, e.2) := by
  induction l generalizing l' with
  | nil => cases l' <;> simp [pure, Except.pure]
  | cons e l ih =>
    rw [mapM_cons]
    cases hx : f e.1 with
    | none =>
      refine iff_of_false (by simp [convertEntry, hx, bind, Except.bind]) ?_
      cases l' <;> simp [hx]
    | some x =>
      cases l' with
      | nil => cases hl : l.mapM (convertEntry f) <;>
          simp [convertEntry, hx, bind, Except.bind, pure, Except.pure]
      | cons e' l' =>
        cases hl : l.mapM (convertEntry f) <;> rw [hl] at ih <;>
          simp [convertEntry, hx, bind, Except.bind, pure, Except.pure, ← ih, Prod.ext_iff]

/-- Re-keying through a lookup that knows all keys and does not confuse two of them succeeds: it
keeps the values, up to the order of the keys, each under the key it is looked up to. -/
theorem convertMap_ok (hmem : ∀ k ∈ m, ∃ l, f k = some l)
    (hinj : ∀ k ∈ m, ∀ k' ∈ m, f k = f k' → k = k') :
    ∃ m', convertMap f m = .ok m' ∧ (vals m').Perm (vals m) ∧
      ∀ (l : L) (v : V), m'[l]? = some v ↔ ∃ k, m[k]? = some v ∧ f k = some l := by
  have hkeys : ∀ e ∈ m.toList, e.1 ∈ m := fun e he =>
    mem_iff_exists.mpr ⟨e.2, mem_toList.mp he⟩
  obtain ⟨l', hl'⟩ : ∃ l' : List (L × V),
      m.toList.map (fun e => (f e.1, e.2)) = l'.map fun e => (some e.1, e.2) := by
    refine ⟨m.toList.filterMap fun e => (f e.1).map fun l => (l, e.2), ?_⟩
    rw [map_filterMap, ← filterMap_eq_map]
    refine filterMap_congr fun e he => ?_
    obtain ⟨l, hl⟩ := hmem e.1 (hkeys e he)
    simp [hl]
  have hnodup : (l'.map Prod.fst).Nodup := by
    refine List.Nodup.of_map some ?_
    have hfst : (l'.map Prod.fst).map some = m.toList.map fun e => f e.1 := by
      simpa [Function.comp_def] using (congrArg (map Prod.fst) hl').symm
    rw [hfst]
    refine pairwise_map.mpr (Std.ExtTreeMap.distinct_keys_toList.imp_of_mem ?_)
    intro a b ha hb hne heq
    have := hinj a.1 (hkeys a ha) b.1 (hkeys b hb) heq
    exact hne (by simp [this])
  refine ⟨ofEntries l', by rw [convertMap, mapM_convertEntry_eq_ok_iff.mpr hl']; rfl,
    ?_, fun l v => ?_⟩
  · have hvals : vals m = l'.map Prod.snd := by
      simpa [vals, Function.comp_def] using congrArg (map Prod.snd) hl'
    rw [hvals]
    exact vals_ofEntries_perm hnodup
  · have hmem' : (l, v) ∈ l' ↔ (some l, v) ∈ l'.map fun e => (some e.1, e.2) := by simp
    rw [get_ofEntries hnodup, hmem', ← hl']
    simp [and_comm]

/-- Two lookups that invert each other, one for the keys of a map and one for those of another. -/
structure Inverse {W X : Type} (t : BTreeMap K W) (u : BTreeMap L X) (f : K → Option L)
    (g : L → Option K) : Prop where
  eq_some_iff : ∀ k l, f k = some l ↔ g l = some k
  mem_left : ∀ k, k ∈ t ↔ ∃ l, f k = some l
  mem_right : ∀ l, l ∈ u ↔ ∃ k, g l = some k

/-- What a conversion of maps has to do: it fails exactly at maps with a key outside a table, and
otherwise every value is kept under the key it is looked up to, and can be converted back. -/
def Converts {W : Type} (t : BTreeMap K W) (f : K → Option L)
    (convert : BTreeMap K V → Except K (BTreeMap L V))
    (back : BTreeMap L V → Except L (BTreeMap K V)) : Prop :=
  ∀ m, ((∃ k, convert m = .error k) ↔ ∃ k ∈ m, k ∉ t) ∧
    ∀ m', convert m = .ok m' → m'.size = m.size ∧ (vals m').Perm (vals m) ∧
      (∀ (l : L) (v : V), m'[l]? = some v ↔ ∃ k, m[k]? = some v ∧ f k = some l) ∧
      back m' = .ok m

namespace Inverse

variable {W X : Type} {t : BTreeMap K W} {u : BTreeMap L X} {g : L → Option K}

omit [Std.LawfulEqOrd K] [Std.LawfulEqOrd L] in
protected theorem symm (h : Inverse t u f g) : Inverse u t g f :=
  ⟨fun l k => (h.eq_some_iff k l).symm, h.mem_right, h.mem_left⟩

theorem convertMap_ok (h : Inverse t u f g) (hmem : ∀ k ∈ m, k ∈ t) :
    ∃ m', convertMap f m = .ok m' ∧ (vals m').Perm (vals m) ∧
      ∀ (l : L) (v : V), m'[l]? = some v ↔ ∃ k, m[k]? = some v ∧ f k = some l := by
  refine OperatorTable.convertMap_ok (fun k hk => (h.mem_left k).mp (hmem k hk)) ?_
  intro k hk k' _ heq
  obtain ⟨l, hl⟩ := (h.mem_left k).mp (hmem k hk)
  have hk' := (h.eq_some_iff k' l).mp (heq ▸ hl)
  exact Option.some.inj (((h.eq_some_iff k l).mp hl).symm.trans hk')

theorem converts (h : Inverse t u f g) :
    Converts (V := V) t f (convertMap f) (convertMap g) := by
  intro m
  by_cases hmem : ∀ k ∈ m, k ∈ t
  · obtain ⟨m', hm', hperm, hget⟩ := h.convertMap_ok hmem
    refine ⟨iff_of_false (by simp [hm']) (by simpa using hmem), fun m₁ hm₁ => ?_⟩
    obtain rfl := Except.ok.inj (hm'.symm.trans hm₁)
    refine ⟨?_, hperm, hget, ?_⟩
    · simpa [vals] using hperm.length_eq
    have hmem' : ∀ l ∈ m', l ∈ u := fun l hl => by
      obtain ⟨v, hv⟩ := mem_iff_exists.mp hl
      obtain ⟨k, -, hk⟩ := (hget l v).mp hv
      exact (h.mem_right l).mpr ⟨k, (h.eq_some_iff k l).mp hk⟩
    obtain ⟨m₂, hm₂, -, hget₂⟩ := h.symm.convertMap_ok hmem'
    rw [hm₂]
    refine congrArg Except.ok (Std.ExtTreeMap.ext_getElem? fun k => Option.ext fun v => ?_)
    rw [hget₂]
    constructor
    · rintro ⟨l, hl, hk⟩
      obtain ⟨k', hv, hk'⟩ := (hget l v).mp hl
      rwa [← Option.some.inj (((h.eq_some_iff k' l).mp hk').symm.trans hk)]
    · intro hv
      obtain ⟨l, hl⟩ := (h.mem_left k).mp (hmem k (mem_iff_exists.mpr ⟨v, hv⟩))
      exact ⟨l, (hget l v).mpr ⟨k, hv, hl⟩, (h.eq_some_iff k l).mp hl⟩
  · obtain ⟨k, hk, hkt⟩ : ∃ k ∈ m, k ∉ t := by simpa using hmem
    obtain ⟨v, hv⟩ := mem_iff_exists.mp hk
    cases hl : m.toList.mapM (convertEntry f) with
    | error k' =>
      have herr : convertMap f m = .error k' := by
        rw [convertMap, hl]
        rfl
      refine ⟨iff_of_true ⟨k', herr⟩ ⟨k, hk, hkt⟩, fun m' hm' => ?_⟩
      cases herr.symm.trans hm'
    | ok l' =>
      have hmem : (f k, v) ∈ l'.map fun e => (some e.1, e.2) := by
        rw [← mapM_convertEntry_eq_ok_iff.mp hl]
        exact mem_map.mpr ⟨(k, v), mem_toList.mpr hv, rfl⟩
      obtain ⟨e, -, he⟩ := mem_map.mp hmem
      exact absurd ((h.mem_left k).mpr ⟨e.1, (congrArg Prod.fst he).symm⟩) hkt

theorem size_eq (h : Inverse t u f g) : t.size = u.size := by
  obtain ⟨m', hm', -, hget⟩ := h.convertMap_ok (m := t) fun k hk => hk
  obtain ⟨hsize, -⟩ := (h.converts t).2 m' hm'
  have hkeys : m'.keys = u.keys := by
    refine keys_eq fun l => ?_
    rw [h.mem_right, mem_iff_exists]
    constructor
    · rintro ⟨v, hv⟩
      obtain ⟨k, -, hk⟩ := (hget l v).mp hv
      exact ⟨k, (h.eq_some_iff k l).mp hk⟩
    · rintro ⟨k, hk⟩
      have hl := (h.eq_some_iff k l).mpr hk
      obtain ⟨v, hv⟩ := mem_iff_exists.mp ((h.mem_left k).mpr ⟨l, hl⟩)
      exact ⟨v, (hget l v).mpr ⟨k, hv, hl⟩⟩
  rw [← hsize, ← Std.ExtTreeMap.length_keys, hkeys, Std.ExtTreeMap.length_keys]

end Inverse

end Convert

/-! ### Conversions of a table -/

section Table

variable {t : OperatorTable} {V : Type}

theorem mem_iff_exists_map {K W Y : Type} [Ord K] [Std.TransOrd K] [Std.LawfulEqOrd K]
    {m : BTreeMap K W} (f : W → Y) (k : K) : k ∈ m ↔ ∃ y, m[k]?.map f = some y := by
  rw [mem_iff_exists]
  cases m[k]? <;> simp

theorem inverse_p2p_idx : Inverse t.p2pKey t.idxKey t.p2pKeyToIdx t.idxToP2pKey :=
  ⟨fun _ _ => p2pKeyToIdx_eq_some, mem_iff_exists_map _, mem_iff_exists_map _⟩

theorem inverse_btc_idx : Inverse t.btcKey t.idxKey t.btcKeyToIdx t.idxToBtcKey :=
  ⟨by simp [btcKeyToIdx, idxToBtcKey, t.btcKey_iff], mem_iff_exists_map _, mem_iff_exists_map _⟩

theorem inverse_p2p_btc : Inverse t.p2pKey t.btcKey t.p2pKeyToBtcKey t.btcKeyToP2pKey :=
  ⟨by simp [p2pKeyToBtcKey, btcKeyToP2pKey, t.p2pKey_iff, t.btcKey_iff], mem_iff_exists_map _,
    mem_iff_exists_map _⟩

theorem size_p2pKey : t.p2pKey.size = t.cardinality := inverse_p2p_idx.size_eq

theorem convertMapP2pToBtc_ok {m : BTreeMap P2POperatorPubKey V} (hmem : ∀ k ∈ m, k ∈ t.p2pKey) :
    ∃ m', t.convertMapP2pToBtc m = .ok m' ∧ (vals m').Perm (vals m) := by
  obtain ⟨m', hm', hperm, -⟩ := inverse_p2p_btc.convertMap_ok hmem
  exact ⟨m', hm', hperm⟩

theorem convertMapP2pToIdx_ok {m : BTreeMap P2POperatorPubKey V} (hmem : ∀ k ∈ m, k ∈ t.p2pKey) :
    ∃ m', t.convertMapP2pToIdx m = .ok m' ∧ ∀ (i : OperatorIdx) (v : V),
      m'[i]? = some v ↔ ∃ k, m[k]? = some v ∧ t.p2pKeyToIdx k = some i := by
  obtain ⟨m', hm', -, hget⟩ := inverse_p2p_idx.convertMap_ok hmem
  exact ⟨m', hm', hget⟩

/-- **The table of the operators.** The constructor returns one exactly when an entry is ours and
neither an index nor a key comes twice. In every table that it returns the three maps are views
of one set of entries, of equal size, with the point of view among them; and maps are converted
between the three kinds of keys and back without loss, unless they have a key outside the table. -/
theorem new_spec (entries : List OperatorTableEntry) (isUs : OperatorTableEntry → Bool) :
    ((new entries isUs).isSome ↔ (∃ e ∈ entries, isUs e) ∧ (entries.map (·.idx)).Nodup ∧
      (entries.map (·.p2p)).Nodup ∧ (entries.map (·.btc)).Nodup) ∧
    ∀ t, new entries isUs = some t →
      (∀ (i : OperatorIdx) (k : P2POperatorPubKey) (b : PublicKey),
        (t.p2pKey[k]? = some (i, b) ↔ t.idxKey[i]? = some (k, b)) ∧
        (t.btcKey[b]? = some (i, k) ↔ t.idxKey[i]? = some (k, b))) ∧
      t.p2pKey.size = t.idxKey.size ∧ t.btcKey.size = t.idxKey.size ∧
      t.idxKey[t.pov]? = some (t.povP2pKey, t.povBtcKey) ∧
      ∀ V : Type,
        Converts (V := V) t.p2pKey t.p2pKeyToBtcKey t.convertMapP2pToBtc t.convertMapBtcToP2p ∧
        Converts (V := V) t.btcKey t.btcKeyToP2pKey t.convertMapBtcToP2p t.convertMapP2pToBtc ∧
        Converts (V := V) t.p2pKey t.p2pKeyToIdx t.convertMapP2pToIdx t.convertMapIdxToP2p ∧
        Converts (V := V) t.idxKey t.idxToP2pKey t.convertMapIdxToP2p t.convertMapP2pToIdx ∧
        Converts (V := V) t.btcKey t.btcKeyToIdx t.convertMapBtcToIdx t.convertMapIdxToBtc ∧
        Converts (V := V) t.idxKey t.idxToBtcKey t.convertMapIdxToBtc t.convertMapBtcToIdx := by
  refine ⟨isSome_new_iff, fun t _ => ⟨fun i k b => ⟨t.p2pKey_iff i k b, t.btcKey_iff i k b⟩,
    size_p2pKey, inverse_btc_idx.size_eq, Std.ExtTreeMap.getElem?_eq_some_getElem t.pov_mem,
    fun V => ?_⟩⟩
  exact ⟨inverse_p2p_btc.converts, inverse_p2p_btc.symm.converts, inverse_p2p_idx.converts,
    inverse_p2p_idx.symm.converts, inverse_btc_idx.converts, inverse_btc_idx.symm.converts⟩

/-- A table of two operators, as the second one sees it. -/
theorem new_spec_two : ∃ t,
    new [⟨0, ⟨10⟩, ⟨20⟩⟩, ⟨1, ⟨11⟩, ⟨21⟩⟩] (fun e => e.idx = 1) = some t ∧
    t.btcKey.size = t.idxKey.size ∧ t.idxKey[t.pov]? = some (t.povP2pKey, t.povBtcKey) := by
  obtain ⟨t, ht⟩ := Option.isSome_iff_exists.mp ((new_spec [⟨0, ⟨10⟩, ⟨20⟩⟩, ⟨1, ⟨11⟩, ⟨21⟩⟩]
    fun e => e.idx = 1).1.mpr (by decide))
  obtain ⟨-, -, hsize, hpov, -⟩ := (new_spec _ _).2 t ht
  exact ⟨t, ht, hsize, hpov⟩

end Table

end OperatorTable

end StrataBridge
