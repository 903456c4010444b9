import Mathlib.Tactic.Common
import Mathlib.Data.List.Basic
import Mathlib.Data.Vector.Defs

/-!
# One value for every signed input of a peg-out graph

`PogMusigF T` holds a `T` for every input of a peg-out graph that all operators sign together:
nonces, partial signatures, messages, witnesses. On the wire and in signature checks it is
flattened to a list by `pack`, so the operations are characterised by what they do to the
packed list.

## References

* `crates/tx-graph/src/pog_musig_functor.rs`
-/

namespace StrataBridge

open List hiding Vector

/-- The number of transactions that publish the assertion data
(`crates/primitives/src/constants.rs`, lines 48–87: 3 + 0 + 33 + 3). -/
def numAssertDataTx : ℕ := 39

def numPostAssertInputs : ℕ := numAssertDataTx

def numPayoutOptimisticInputs : ℕ := 5

def numPayoutInputs : ℕ := 4

/-- A value for every input of the graph that is signed by all operators. -/
structure PogMusigF (T : Type) where
  challenge : T
  preAssert : T
  postAssert : Vector T numPostAssertInputs
  payoutOptimistic : Vector T numPayoutOptimisticInputs
  payout : Vector T numPayoutInputs
  disprove : T
  slashStake : List (T × T)
  deriving DecidableEq

namespace PogMusigF

variable {T U E A B C D O : Type}

/-! ### Packing -/

variable {n : ℕ} {graphs : List (PogMusigF T)} (g : PogMusigF T) {l : List T}
  {v : Vector (Except E T) n}

def pack : List T :=
  g.challenge :: g.preAssert ::
    (g.postAssert.toList ++ (g.payoutOptimistic.toList ++ (g.payout.toList ++
      g.disprove :: g.slashStake.flatMap fun p => [p.1, p.2])))

def takeArray (n : ℕ) (l : List T) : Option (Vector T n × List T) :=
  if h : n ≤ l.length then some (⟨(l.take n).toArray, by simp [h]⟩, l.drop n) else none

def takePairs : List T → Option (List (T × T))
  | [] => some []
  | [_] => none
  | a :: b :: rest => (takePairs rest).map ((a, b) :: ·)

/-- Read the components back in the order of the wire format (lines 64–116). -/
def unpack : List T → Option (PogMusigF T)
  | challenge :: preAssert :: rest =>
    (takeArray numPostAssertInputs rest).bind fun (postAssert, rest) =>
    (takeArray numPayoutOptimisticInputs rest).bind fun (payoutOptimistic, rest) =>
    (takeArray numPayoutInputs rest).bind fun (payout, rest) =>
    match rest with
    | [] => none
    | disprove :: rest =>
      (takePairs rest).map fun slashStake =>
        { challenge, preAssert, postAssert, payoutOptimistic, payout, disprove, slashStake }
  | _ => none

theorem eq_append_of_takeArray {rest : List T} {v : Vector T n}
    (h : takeArray n l = some (v, rest)) : l = v.toList ++ rest := by
  rw [takeArray] at h
  split at h
  · cases h
    exact (take_append_drop n l).symm
  · cases h

private theorem eq_flatMap_of_takePairs {pairs : List (T × T)} (h : takePairs l = some pairs) :
    l = pairs.flatMap fun p => [p.1, p.2] := by
  induction l using takePairs.induct generalizing pairs with
  | case1 =>
    cases h
    rfl
  | case2 => cases h
  | case3 a b rest ih =>
    obtain ⟨pairs', hrest, rfl⟩ := Option.map_eq_some_iff.mp h
    rw [flatMap_cons, ← ih hrest]
    rfl

/-- **What is read from the wire format is written back as it was.** -/
theorem pack_of_unpack {g : PogMusigF T} (h : unpack l = some g) : g.pack = l := by
  match l with
  | [] | [_] => cases h
  | challenge :: preAssert :: rest =>
    obtain ⟨⟨postAssert, rest₁⟩, hpost, h⟩ := Option.bind_eq_some_iff.mp h
    obtain ⟨⟨payoutOptimistic, rest₂⟩, hopt, h⟩ := Option.bind_eq_some_iff.mp h
    obtain ⟨⟨payout, rest₃⟩, hpay, h⟩ := Option.bind_eq_some_iff.mp h
    match rest₃ with
    | [] => cases h
    | disprove :: rest₄ =>
      obtain ⟨slashStake, hslash, rfl⟩ := Option.map_eq_some_iff.mp h
      rw [pack, eq_append_of_takeArray hpost, eq_append_of_takeArray hopt,
        eq_append_of_takeArray hpay, eq_flatMap_of_takePairs hslash]

theorem takeArray_append (v : Vector T n) (rest : List T) :
    takeArray n (v.toList ++ rest) = some (v, rest) := by
  rw [takeArray, dif_pos (by simp)]
  refine congrArg some (Prod.ext (Vector.toList_inj.mp ?_) ?_)
  · exact take_left' v.length_toList
  · exact drop_left' v.length_toList

theorem takePairs_flatMap (pairs : List (T × T)) :
    takePairs (pairs.flatMap fun p => [p.1, p.2]) = some pairs := by
  induction pairs with
  | nil => rfl
  | cons p pairs ih =>
    rw [flatMap_cons, cons_append, cons_append, nil_append, takePairs, ih]
    rfl

theorem unpack_pack : unpack g.pack = some g := by
  simp [pack, unpack, takeArray_append, takePairs_flatMap]

theorem exists_takeArray (n : ℕ) (h : n ≤ l.length) :
    ∃ v rest, takeArray n l = some (v, rest) ∧ l.length = n + rest.length :=
  ⟨_, _, dif_pos h, by rw [length_drop]; omega⟩

private theorem exists_takePairs (h : l.length = 2 * n) : ∃ pairs, takePairs l = some pairs := by
  induction n generalizing l with
  | zero => exact ⟨[], by rw [length_eq_zero_iff.mp h, takePairs]⟩
  | succ n ih =>
    match l with
    | a :: b :: rest =>
      obtain ⟨pairs, hpairs⟩ := ih (l := rest) (by simp only [length_cons] at h; omega)
      exact ⟨(a, b) :: pairs, by rw [takePairs, hpairs]; rfl⟩

private theorem exists_unpack (h : l.length = 2 + numPostAssertInputs +
      numPayoutOptimisticInputs + numPayoutInputs + 1 + 2 * n) : ∃ g, unpack l = some g := by
  match l with
  | [] | [_] => simp only [length_cons, length_nil] at h; omega
  | challenge :: preAssert :: rest =>
    simp only [length_cons] at h
    obtain ⟨postAssert, rest₁, hpost, h₁⟩ := exists_takeArray numPostAssertInputs
      (l := rest) (by omega)
    obtain ⟨payoutOptimistic, rest₂, hopt, h₂⟩ := exists_takeArray numPayoutOptimisticInputs
      (l := rest₁) (by omega)
    obtain ⟨payout, rest₃, hpay, h₃⟩ := exists_takeArray numPayoutInputs (l := rest₂) (by omega)
    match rest₃ with
    | [] => rw [length_nil] at h₃; omega
    | disprove :: rest₄ =>
      rw [length_cons] at h₃
      obtain ⟨pairs, hpairs⟩ := exists_takePairs (n := n) (l := rest₄) (by omega)
      exact ⟨⟨challenge, preAssert, postAssert, payoutOptimistic, payout, disprove, pairs⟩,
        by simp [unpack, hpost, hopt, hpay, hpairs]⟩

/-! ### Mapping and zipping -/

def map (f : T → U) (g : PogMusigF T) : PogMusigF U where
  challenge := f g.challenge
  preAssert := f g.preAssert
  postAssert := g.postAssert.map f
  payoutOptimistic := g.payoutOptimistic.map f
  payout := g.payout.map f
  disprove := f g.disprove
  slashStake := g.slashStake.map fun p => (f p.1, f p.2)

/-- Pair the components of two functors; the slash-stake pairs are cut to the shorter list. -/
def zip (g : PogMusigF T) (g' : PogMusigF U) : PogMusigF (T × U) where
  challenge := (g.challenge, g'.challenge)
  preAssert := (g.preAssert, g'.preAssert)
  postAssert := g.postAssert.zip g'.postAssert
  payoutOptimistic := g.payoutOptimistic.zip g'.payoutOptimistic
  payout := g.payout.zip g'.payout
  disprove := (g.disprove, g'.disprove)
  slashStake := zipWith (fun p q => ((p.1, q.1), (p.2, q.2))) g.slashStake g'.slashStake

def zipWith (f : A → B → C) (a : PogMusigF A) (b : PogMusigF B) : PogMusigF C :=
  (a.zip b).map fun x => f x.1 x.2

def zipWith4 (f : A → B → C → D → O) (a : PogMusigF A) (b : PogMusigF B) (c : PogMusigF C)
    (d : PogMusigF D) : PogMusigF O :=
  ((a.zip b).zip (c.zip d)).map fun x => f x.1.1 x.1.2 x.2.1 x.2.2

def zip5 (a : PogMusigF A) (b : PogMusigF B) (c : PogMusigF C) (d : PogMusigF D)
    (e : PogMusigF E) : PogMusigF (A × B × C × D × E) :=
  ((((a.zip b).zip c).zip d).zip e).map fun x =>
    (x.1.1.1.1, x.1.1.1.2, x.1.1.2, x.1.2, x.2)

/-! ### Sequencing -/

theorem exists_of_bind_ok {x : Except E A} {f : A → Except E B} {b : B} (h : x.bind f = .ok b) :
    ∃ a, x = .ok a ∧ f a = .ok b := by
  cases x with
  | error e => cases h
  | ok a => exact ⟨a, rfl, h⟩

theorem exists_of_map_ok {x : Except E A} {f : A → B} {b : B} (h : x.map f = .ok b) :
    ∃ a, x = .ok a ∧ f a = b := by
  cases x with
  | error e => cases h
  | ok a => exact ⟨a, rfl, Except.ok.inj h⟩

def collectResults : List (Except E T) → Except E (List T)
  | [] => .ok []
  | .error e :: _ => .error e
  | .ok a :: rest => (collectResults rest).map (a :: ·)

theorem eq_map_ok_of_collectResults {l : List (Except E T)} {l' : List T}
    (h : collectResults l = .ok l') : l = l'.map .ok := by
  induction l generalizing l' with
  | nil =>
    cases h
    rfl
  | cons x l ih =>
    cases x with
    | error e => cases h
    | ok a =>
      cases hl : collectResults l with
      | error e => simp [collectResults, hl, Except.map] at h
      | ok r =>
        simp only [collectResults, hl, Except.map, Except.ok.injEq] at h
        rw [← h, ih hl, map_cons]

theorem collectResults_map_ok {S : Type} (f : S → T) (l : List S) :
    collectResults (l.map fun a => (.ok (f a) : Except E T)) = .ok (l.map f) := by
  induction l with
  | nil => rfl
  | cons a l ih =>
    rw [map_cons, collectResults, ih]
    rfl

def collectArray (v : Vector (Except E T) n) : Except E (Vector T n) :=
  match h : collectResults v.toList with
  | .error e => .error e
  | .ok l => .ok ⟨l.toArray, by
      have hlen := congrArg length (eq_map_ok_of_collectResults h)
      simpa using hlen.symm⟩

theorem collectResults_ok {l : List (Except E T)} (h : ∀ x ∈ l, ∃ a, x = .ok a) :
    ∃ l', collectResults l = .ok l' := by
  induction l with
  | nil => exact ⟨[], rfl⟩
  | cons x l ih =>
    obtain ⟨a, rfl⟩ := h x (by simp)
    obtain ⟨l', hl'⟩ := ih fun x hx => h x (by simp [hx])
    exact ⟨a :: l', by rw [collectResults, hl']; rfl⟩

theorem collectArray_ok (h : ∀ x ∈ v.toList, ∃ a, x = .ok a) : ∃ v', collectArray v = .ok v' := by
  obtain ⟨l', hl'⟩ := collectResults_ok h
  unfold collectArray
  split
  · simp_all
  · exact ⟨_, rfl⟩

/-- Transpose a functor of results; the first failed component is the error. -/
def sequenceResult (g : PogMusigF (Except E T)) : Except E (PogMusigF T) :=
  g.challenge.bind fun challenge =>
  g.preAssert.bind fun preAssert =>
  (collectArray g.postAssert).bind fun postAssert =>
  (collectArray g.payoutOptimistic).bind fun payoutOptimistic =>
  (collectArray g.payout).bind fun payout =>
  g.disprove.bind fun disprove =>
  (collectResults (g.slashStake.map fun p => p.1.bind fun a => p.2.map fun b => (a, b))).map
    fun slashStake =>
      { challenge, preAssert, postAssert, payoutOptimistic, payout, disprove, slashStake }

def nils (n : ℕ) : PogMusigF (List T) where
  challenge := []
  preAssert := []
  postAssert := Vector.replicate _ []
  payoutOptimistic := Vector.replicate _ []
  payout := Vector.replicate _ []
  disprove := []
  slashStake := replicate n ([], [])

/-- Transpose a list of functors: fold the components together, starting from empty lists with as
many slash-stake pairs as the first member has (lines 385–428). -/
def sequencePogMusigF (graphs : List (PogMusigF T)) : PogMusigF (List T) :=
  graphs.foldl (fun acc g => zipWith (· ++ ·) acc (g.map fun a => [a]))
    (nils ((graphs.head?.map fun g => g.slashStake.length).getD 0))

/-! ### The packed view -/

@[simp] theorem pack_map (f : T → U) (g : PogMusigF T) : (g.map f).pack = g.pack.map f := by
  simp [pack, map, Vector.toList_map, map_flatMap, flatMap_map]

private theorem flatMap_zipWith_pairs (l : List (T × T)) (l' : List (U × U)) :
    ((List.zipWith (fun p q => ((p.1, q.1), (p.2, q.2))) l l').flatMap fun p => [p.1, p.2]) =
      (l.flatMap fun p => [p.1, p.2]).zip (l'.flatMap fun p => [p.1, p.2]) := by
  induction l generalizing l' with
  | nil => simp
  | cons p l ih =>
    cases l' with
    | nil => simp
    | cons q l' => simp [ih]

/-- **Packing turns the zip of two functors into the zip of two lists.** The fixed parts have
the same length, so the cut of the slash-stake pairs is the cut of the lists. -/
@[simp] theorem pack_zip (g' : PogMusigF U) : (g.zip g').pack = g.pack.zip g'.pack := by
  simp only [pack, zip, List.zip_cons_cons, Vector.toList_zip, flatMap_zipWith_pairs]
  rw [List.zip_append (by simp), List.zip_append (by simp), List.zip_append (by simp),
    List.zip_cons_cons]

theorem length_pack : g.pack.length = 51 + 2 * g.slashStake.length := by
  have hslash : (g.slashStake.flatMap fun p => [p.1, p.2]).length = 2 * g.slashStake.length := by
    simp [Nat.mul_comm]
  simp only [pack, length_cons, length_append, Vector.length_toList]
  simp only [numPostAssertInputs, numAssertDataTx, numPayoutOptimisticInputs, numPayoutInputs]
  omega

theorem getElem?_pack_zipWith (f : A → B → C) (a : PogMusigF A) (b : PogMusigF B) (i : ℕ) :
    (zipWith f a b).pack[i]? = a.pack[i]?.bind fun x => b.pack[i]?.map fun y => f x y := by
  rw [zipWith, pack_map, pack_zip, List.getElem?_map, List.zip, List.getElem?_zipWith]
  cases a.pack[i]? <;> cases b.pack[i]? <;> rfl

private theorem getElem?_pack_foldl (graphs : List (PogMusigF T)) (acc : PogMusigF (List T))
    (i : ℕ) (hacc : i < acc.pack.length) (hi : ∀ g ∈ graphs, i < g.pack.length) :
    (graphs.foldl (fun acc g => zipWith (· ++ ·) acc (g.map fun a => [a])) acc).pack[i]? =
      some (acc.pack[i] ++ graphs.filterMap fun g => g.pack[i]?) := by
  induction graphs generalizing acc with
  | nil => simp
  | cons g graphs ih =>
    have hg := hi g (by simp)
    have hstep : (zipWith (· ++ ·) acc (g.map fun a => [a])).pack[i]? =
        some (acc.pack[i] ++ [g.pack[i]]) := by
      rw [getElem?_pack_zipWith]
      simp [hacc]
    obtain ⟨hlt, heq⟩ := List.getElem?_eq_some_iff.mp hstep
    rw [foldl_cons, ih _ hlt fun g' hg' => hi g' (by simp [hg']), heq]
    simp [hg]

/-- **Component `i` of a transposed list holds component `i` of every member, in order**, as
far as every member has such a component. -/
theorem getElem?_pack_sequencePogMusigF (hne : graphs ≠ []) {i : ℕ}
    (hi : ∀ g ∈ graphs, i < g.pack.length) :
    (sequencePogMusigF graphs).pack[i]? = some (graphs.filterMap fun g => g.pack[i]?) := by
  obtain ⟨g, rest, rfl⟩ := exists_cons_of_ne_nil hne
  have hlen : i < (nils (T := T) g.slashStake.length).pack.length := by
    have hg := hi g (by simp)
    rw [length_pack] at hg ⊢
    simpa [nils] using hg
  have hnil : ∀ n, ∀ x ∈ (nils (T := T) n).pack, x = [] := by
    intro n x hx
    simp only [pack, nils] at hx
    grind
  rw [sequencePogMusigF, head?_cons, Option.map_some, Option.getD_some,
    getElem?_pack_foldl _ _ i hlen hi, hnil _ _ (getElem_mem hlen), nil_append]

theorem lt_length_of_sequencePogMusigF {i : ℕ} (hi : i < (sequencePogMusigF graphs).pack.length) :
    ∀ g ∈ graphs, i < g.pack.length := by
  have hfold : ∀ (l : List (PogMusigF T)) (acc : PogMusigF (List T)),
      i < (l.foldl (fun acc g => zipWith (· ++ ·) acc (g.map fun a => [a])) acc).pack.length →
        i < acc.pack.length ∧ ∀ g ∈ l, i < g.pack.length := by
    intro l
    induction l with
    | nil => simp
    | cons g l ih =>
      intro acc h
      obtain ⟨hacc, hl⟩ := ih _ h
      simp only [zipWith, pack_map, pack_zip, length_map, length_zip, Nat.lt_min] at hacc
      exact ⟨hacc.1, by simpa using ⟨hacc.2, hl⟩⟩
  exact (hfold graphs _ hi).2

/-- A transposed list has as many slash-stake pairs as its shortest member. -/
theorem min?_length_slashStake (hne : graphs ≠ []) :
    (graphs.map fun g => g.slashStake.length).min? =
      some (sequencePogMusigF graphs).slashStake.length := by
  rw [min?_eq_some_iff]
  have hle : ∀ g ∈ graphs, (sequencePogMusigF graphs).slashStake.length ≤ g.slashStake.length := by
    intro g hg
    by_contra hlt
    have hlt : g.pack.length < (sequencePogMusigF graphs).pack.length := by
      rw [length_pack, length_pack]
      omega
    exact Nat.lt_irrefl _ (lt_length_of_sequencePogMusigF hlt g hg)
  refine ⟨?_, by simpa using hle⟩
  by_contra hmem
  have hlt : ∀ g ∈ graphs, (sequencePogMusigF graphs).pack.length < g.pack.length := by
    intro g hg
    have hne : g.slashStake.length ≠ (sequencePogMusigF graphs).slashStake.length :=
      fun heq => hmem (mem_map.mpr ⟨g, hg, heq⟩)
    have := hle g hg
    rw [length_pack, length_pack]
    omega
  have hnone := getElem?_pack_sequencePogMusigF hne hlt
  rw [getElem?_eq_none (Nat.le_refl _)] at hnone
  cases hnone

/-- **The wire format and the transpose.** A functor is packed to a list and read back without
loss, and the lists that can be read are those whose length leaves pairs behind the fixed part.
A transposed list holds in every component the list of that component, in order, and it has as
many slash-stake pairs as the shortest member. -/
theorem pack_unpack_sequence :
    (∀ g : PogMusigF T, unpack g.pack = some g) ∧
    (∀ (l : List T) (g : PogMusigF T), unpack l = some g → g.pack = l) ∧
    (∀ l : List T, (unpack l).isSome ↔ ∃ n, l.length = 2 + numPostAssertInputs +
      numPayoutOptimisticInputs + numPayoutInputs + 1 + 2 * n) ∧
    ∀ graphs : List (PogMusigF T), graphs ≠ [] →
      (∀ i < (sequencePogMusigF graphs).pack.length, ∃ xs,
        graphs.map (fun g => g.pack[i]?) = xs.map some ∧
        (sequencePogMusigF graphs).pack[i]? = some xs) ∧
      (graphs.map fun g => g.slashStake.length).min? =
        some (sequencePogMusigF graphs).slashStake.length := by
  refine ⟨unpack_pack, fun l g => pack_of_unpack, fun l => ⟨fun h => ?_, fun ⟨n, h⟩ => ?_⟩,
    fun graphs hne => ⟨fun i hi => ?_, min?_length_slashStake hne⟩⟩
  · obtain ⟨g, hg⟩ := Option.isSome_iff_exists.mp h
    refine ⟨g.slashStake.length, ?_⟩
    rw [← pack_of_unpack hg, length_pack]
    rfl
  · obtain ⟨g, hg⟩ := exists_unpack h
    rw [hg]
    rfl
  · have hall := lt_length_of_sequencePogMusigF hi
    refine ⟨_, ?_, getElem?_pack_sequencePogMusigF hne hall⟩
    clear hne hi
    induction graphs with
    | nil => rfl
    | cons g graphs ih =>
      obtain ⟨hg, hgraphs⟩ := forall_mem_cons.mp hall
      simpa [hg] using ih hgraphs

/-- A graph of two pairs and one of a single pair transpose to a single pair. -/
theorem pack_unpack_sequence_two :
    (sequencePogMusigF [(nils 2 : PogMusigF (List ℕ)), nils 1]).slashStake.length = 1 :=
  Option.some.inj ((pack_unpack_sequence.2.2.2 _ (by simp)).2.symm.trans (by decide))

theorem getElem?_pack_zip {g : PogMusigF T} {g' : PogMusigF U} {i : ℕ} {x : T × U} :
    (g.zip g').pack[i]? = some x ↔ g.pack[i]? = some x.1 ∧ g'.pack[i]? = some x.2 := by
  rw [pack_zip, getElem?_zip_eq_some]

theorem toList_of_collectArray {v' : Vector T n} (h : collectArray v = .ok v') :
    v.toList = v'.toList.map .ok := by
  unfold collectArray at h
  split at h
  · cases h
  next l hl =>
    cases h
    exact eq_map_ok_of_collectResults hl

private theorem flatMap_of_collectResults {l : List (Except E T × Except E T)} {l' : List (T × T)}
    (h : collectResults (l.map fun p => p.1.bind fun a => p.2.map fun b => (a, b)) = .ok l') :
    (l.flatMap fun p => [p.1, p.2]) = (l'.flatMap fun p => [p.1, p.2]).map .ok := by
  replace h := eq_map_ok_of_collectResults h
  induction l generalizing l' with
  | nil =>
    rw [map_nil, eq_comm, map_eq_nil_iff] at h
    rw [h]
    rfl
  | cons p l ih =>
    cases l' with
    | nil => cases h
    | cons q l' =>
      obtain ⟨hp, hl⟩ := cons.inj h
      obtain ⟨a, b⟩ := p
      cases a with
      | error e => cases hp
      | ok a =>
        cases b with
        | error e => cases hp
        | ok b =>
          cases hp
          simp [ih hl]

/-- **A transposed functor of results holds the results.** -/
theorem pack_of_sequenceResult {g : PogMusigF (Except E T)} {g' : PogMusigF T}
    (h : sequenceResult g = .ok g') : g.pack = g'.pack.map .ok := by
  obtain ⟨challenge, hc, h⟩ := exists_of_bind_ok h
  obtain ⟨preAssert, hp, h⟩ := exists_of_bind_ok h
  obtain ⟨postAssert, hpost, h⟩ := exists_of_bind_ok h
  obtain ⟨payoutOptimistic, hopt, h⟩ := exists_of_bind_ok h
  obtain ⟨payout, hpay, h⟩ := exists_of_bind_ok h
  obtain ⟨disprove, hd, h⟩ := exists_of_bind_ok h
  obtain ⟨slashStake, hslash, rfl⟩ := exists_of_map_ok h
  simp [pack, hc, hp, toList_of_collectArray hpost, toList_of_collectArray hopt,
    toList_of_collectArray hpay, hd, flatMap_of_collectResults hslash]

/-- **A functor of results whose components all succeeded transposes to a functor.** -/
theorem sequenceResult_ok {g : PogMusigF (Except E T)}
    (h : ∀ x ∈ g.pack, ∃ a, x = .ok a) : ∃ g', sequenceResult g = .ok g' := by
  simp only [pack, forall_mem_cons, forall_mem_append, forall_mem_flatMap] at h
  obtain ⟨⟨challenge, hc⟩, ⟨preAssert, hp⟩, hpost, hopt, hpay, ⟨disprove, hd⟩, hslash⟩ := h
  obtain ⟨postAssert, hpost⟩ := collectArray_ok hpost
  obtain ⟨payoutOptimistic, hopt⟩ := collectArray_ok hopt
  obtain ⟨payout, hpay⟩ := collectArray_ok hpay
  obtain ⟨slashStake, hslash⟩ : ∃ l, collectResults
      (g.slashStake.map fun p => p.1.bind fun a => p.2.map fun b => (a, b)) = .ok l := by
    refine collectResults_ok fun x hx => ?_
    obtain ⟨p, hp, rfl⟩ := mem_map.mp hx
    obtain ⟨a, ha⟩ := (hslash p hp).1
    obtain ⟨b, hb⟩ := (hslash p hp).2.1
    exact ⟨(a, b), by rw [ha, hb]; rfl⟩
  refine ⟨⟨challenge, preAssert, postAssert, payoutOptimistic, payout, disprove, slashStake⟩, ?_⟩
  rw [sequenceResult, hc, hp, hpost, hopt, hpay, hd, hslash]
  rfl

end PogMusigF

end StrataBridge
