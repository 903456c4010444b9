import StrataBridge.Tree.DepthFirst
import StrataBridge.TxGraph.Connectors
import Mathlib.Data.Nat.Log

/-!
# Building the tree of a taproot output

The scripts of a taproot output are the leaves of a binary tree. `build_taptree` computes the depth
of each from the number of scripts alone, so that all of them lie on the last two levels, and hands
them in order to the builder of the Bitcoin library. The builder is a parameter here. Its law is
that it accepts a list of leaves exactly when they fill a binary tree in their order, none deeper
than 128, and that the leaves of what it returns are those of the list.

The scripts come as a slice, of which the language promises that its length fits a signed machine
word. That is what keeps the power of two from overflowing.

## Main definitions

* `TaprootLibrary.Lawful`: the law of the builder

## Main results

* `buildTaptree_total`: every tree of scripts can be built
* `createTaprootAddr_eq`: the graph's total functions are the fallible ones of the source

## References

* `crates/primitives/src/scripts/taproot.rs`, `crates/primitives/src/errors.rs`
-/

/-- A slice: a list whose length fits a signed machine word of 64 bits. -/
abbrev Rust.Slice (α : Type) : Type := { l : List α // l.length < 2 ^ 63 }

namespace StrataBridge

open Rust List

variable {Builder Info : Type}

variable {scripts : List ScriptBuf} {internalKey : XOnlyPublicKey}

/-! ### The builder of the library -/

inductive BridgeTxBuilderError where
  | emptyTapscript
  | buildFailed
  | couldNotAddLeaf
  deriving DecidableEq, Repr

structure TaprootLibrary (Builder Info : Type) where
  /-- `TaprootBuilder::new`. -/
  new : Builder
  /-- `TaprootBuilder::add_leaf`. -/
  addLeaf : Builder → ℕ → ScriptBuf → Option Builder
  /-- `TaprootBuilder::finalize`. -/
  finalize : Builder → XOnlyPublicKey → Option Info
  /-- `TaprootSpendInfo::merkle_root`. -/
  merkleRoot : Info → Option (BitVec 256)
  /-- The leaves of a spend info, each with the length of its merkle branch. -/
  leaves : Info → List (ℕ × ScriptBuf)
  /-- `TaprootSpendInfo::control_block`. -/
  controlBlock : Info → ScriptBuf → Option Bytes
  /-- The script of `Address::p2tr`. -/
  p2tr : XOnlyPublicKey → Option (BitVec 256) → Network → ScriptBuf

namespace TaprootLibrary

variable (lib : TaprootLibrary Builder Info)

def build (internalKey : XOnlyPublicKey) (leaves : List (ℕ × ScriptBuf)) : Option Info :=
  leaves.foldlM (fun builder p => lib.addLeaf builder p.1 p.2) lib.new >>= fun builder =>
    lib.finalize builder internalKey

structure Lawful : Prop where
  /-- A list of leaves is accepted exactly when it fills a tree of depth at most 128. -/
  accepts : ∀ (internalKey : XOnlyPublicKey) (leaves : List (ℕ × ScriptBuf)), leaves ≠ [] →
    ((∃ info, lib.build internalKey leaves = some info) ↔
      LeafTree.Fills leaves ∧ ∀ p ∈ leaves, p.1 ≤ 128)
  /-- Without leaves the output can be spent with the key. -/
  keySpend : ∀ internalKey : XOnlyPublicKey, ∃ info, lib.build internalKey [] = some info
  /-- The leaves of the result are the leaves that were added. -/
  mem_leaves : ∀ (internalKey : XOnlyPublicKey) (leaves : List (ℕ × ScriptBuf)) (info : Info),
    lib.build internalKey leaves = some info → ∀ p, p ∈ lib.leaves info ↔ p ∈ leaves
  /-- A script has a control block exactly when it is a leaf. -/
  controlBlock_isSome : ∀ (info : Info) (script : ScriptBuf),
    (lib.controlBlock info script).isSome ↔ ∃ d, (d, script) ∈ lib.leaves info

end TaprootLibrary

/-! ### The code -/

/-- The height of the tree (`taproot.rs`, lines 97–101). -/
def maxDepth (numScripts : ℕ) : ℕ :=
  if numScripts > 1 then (numScripts - 1).log2 + 1 else 0

def twoPow (exp : ℕ) : MayPanic ℕ :=
  if 2 ^ exp < 2 ^ 64 then .ok (2 ^ exp) else .error "attempt to multiply with overflow"

/-- The depth of the script with the given index (`taproot.rs`, lines 135–140), cut to 8 bits. -/
def scriptDepth (maxDepth numDeepestScripts scriptIdx : ℕ) : MayPanic ℕ :=
  if scriptIdx < numDeepestScripts then .ok (maxDepth % 2 ^ 8)
  else if maxDepth = 0 then .error "attempt to subtract with overflow"
  else .ok ((maxDepth - 1) % 2 ^ 8)

section Code

variable (lib : TaprootLibrary Builder Info)

/-- The loop over the scripts (`taproot.rs`, lines 134–143). -/
def addScripts (maxDepth numDeepestScripts : ℕ) :
    List (ScriptBuf × ℕ) → Builder → MayPanic (Except BridgeTxBuilderError Builder)
  | [], builder => .ok (.ok builder)
  | (script, scriptIdx) :: rest, builder => do
    let depth ← scriptDepth maxDepth numDeepestScripts scriptIdx
    match lib.addLeaf builder depth script with
    | none => .ok (.error .buildFailed)
    | some builder => addScripts maxDepth numDeepestScripts rest builder

/-- `build_taptree` (`taproot.rs`, lines 84–153). -/
def buildTaptree (internalKey : XOnlyPublicKey) (network : Network) (scripts : List ScriptBuf) :
    MayPanic (Except BridgeTxBuilderError (ScriptBuf × Info)) := do
  let numScripts := scripts.length
  let maxNumScripts ← twoPow (maxDepth numScripts)
  let numPenultimateScripts := maxNumScripts - numScripts
  let numDeepestScripts := numScripts - numPenultimateScripts
  match ← addScripts lib (maxDepth numScripts) numDeepestScripts scripts.zipIdx lib.new with
  | .error e => .ok (.error e)
  | .ok builder =>
    match lib.finalize builder internalKey with
    | none => .ok (.error .couldNotAddLeaf)
    | some spendInfo =>
      .ok (.ok (lib.p2tr internalKey (lib.merkleRoot spendInfo) network, spendInfo))

/-- `create_taproot_addr` (`taproot.rs`, lines 56–75), with its error. -/
def TaprootLibrary.createTaprootAddr (unspendablePublicKey : XOnlyPublicKey) (network : Network) :
    SpendPath → MayPanic (Except BridgeTxBuilderError (ScriptBuf × Info))
  | .keySpend internalKey => buildTaptree lib internalKey network []
  | .scriptSpend scripts =>
    if scripts = [] then .ok (.error .emptyTapscript)
    else buildTaptree lib unspendablePublicKey network scripts
  | .both internalKey scripts => buildTaptree lib internalKey network scripts

end Code

/-! ### The depths fill a tree -/

def numDeepest (numScripts : ℕ) : ℕ := numScripts - (2 ^ maxDepth numScripts - numScripts)

def leafDepth (numScripts scriptIdx : ℕ) : ℕ :=
  if scriptIdx < numDeepest numScripts then maxDepth numScripts else maxDepth numScripts - 1

def leafList (scripts : List ScriptBuf) : List (ℕ × ScriptBuf) :=
  scripts.zipIdx.map fun p => (leafDepth scripts.length p.2, p.1)

/-- The scripts of the deepest level come first. -/
theorem leafList_eq (scripts : List ScriptBuf) :
    leafList scripts =
      (scripts.take (numDeepest scripts.length)).map (Prod.mk (maxDepth scripts.length)) ++
        (scripts.drop (numDeepest scripts.length)).map (Prod.mk (maxDepth scripts.length - 1)) := by
  have hle : numDeepest scripts.length ≤ scripts.length := Nat.sub_le _ _
  refine ext_getElem (by simp [leafList]; omega) fun i hi hi' => ?_
  simp only [leafList, length_map, length_zipIdx] at hi
  by_cases h : i < numDeepest scripts.length
  · simp [leafList, leafDepth, h, hi]
  · simp [leafList, leafDepth, getElem_append, h, Nat.min_eq_left hle,
      Nat.add_sub_cancel' (Nat.le_of_not_lt h)]

theorem maxDepth_eq_clog (n : ℕ) : maxDepth n = Nat.clog 2 n := by
  rw [maxDepth]
  split_ifs with h
  · rw [Nat.log2_eq_log_two]
    have hlt : n - 1 < 2 ^ (Nat.log 2 (n - 1) + 1) := Nat.lt_pow_succ_log_self (by decide) _
    have hle : 2 ^ Nat.log 2 (n - 1) ≤ n - 1 := Nat.pow_log_le_self 2 (by omega)
    refine le_antisymm ?_ ((Nat.clog_le_iff_le_pow (by decide)).mpr (by omega))
    exact (Nat.lt_clog_iff_pow_lt (by decide)).mpr (by omega)
  · exact (Nat.clog_of_right_le_one (by omega) 2).symm

theorem maxDepth_le {n : ℕ} (h : n < 2 ^ 63) : maxDepth n ≤ 63 := by
  rw [maxDepth_eq_clog]
  exact Nat.clog_le_of_le_pow h.le

theorem exists_maxDepth {n : ℕ} (h : 1 < n) :
    ∃ k, maxDepth n = k + 1 ∧ 2 ^ k < n ∧ n ≤ 2 ^ (k + 1) := by
  have hpos : 0 < maxDepth n := by
    rw [maxDepth_eq_clog]
    exact Nat.clog_pos (by decide) h
  obtain ⟨k, hk⟩ := Nat.exists_eq_succ_of_ne_zero hpos.ne'
  have hclog : Nat.clog 2 n = k + 1 := by rw [← maxDepth_eq_clog, hk]
  refine ⟨k, hk, (Nat.lt_clog_iff_pow_lt (by decide)).mp (by omega), ?_⟩
  exact (Nat.clog_le_iff_le_pow (by decide)).mp hclog.le

/-- **The scripts fill a tree.** The deepest scripts are an even number, and their parents with the
scripts above make up the penultimate level. -/
theorem fills_leafList (h : scripts ≠ []) : LeafTree.Fills (leafList scripts) := by
  by_cases hone : scripts.length = 1
  · obtain ⟨script, rfl⟩ := length_eq_one_iff.mp hone
    exact ⟨.leaf script, rfl⟩
  · have hlen := length_pos_iff.mpr h
    obtain ⟨k, hk, hlow, hhigh⟩ := exists_maxDepth (n := scripts.length) (by omega)
    have hdeep : numDeepest scripts.length = 2 * (scripts.length - 2 ^ k) := by
      rw [numDeepest, hk] at *
      omega
    have hle : numDeepest scripts.length ≤ scripts.length := Nat.sub_le _ _
    have heven : (scripts.take (numDeepest scripts.length)).length =
        2 * (scripts.length - 2 ^ k) := by
      rw [length_take, Nat.min_eq_left hle, hdeep]
    rw [leafList_eq, hk]
    refine LeafTree.fills_two_levels k (by rw [heven]; exact even_two_mul _) ?_
    rw [heven, length_drop]
    omega

theorem depth_leafList {d : ℕ} {script : ScriptBuf} (h : (d, script) ∈ leafList scripts) :
    d = maxDepth scripts.length ∨ d + 1 = maxDepth scripts.length := by
  obtain ⟨p, -, hp⟩ := mem_map.mp h
  have hd : leafDepth scripts.length p.2 = d := congrArg Prod.fst hp
  rw [leafDepth] at hd
  split_ifs at hd <;> omega

theorem exists_mem_leafList {script : ScriptBuf} (h : script ∈ scripts) :
    ∃ d, (d, script) ∈ leafList scripts := by
  obtain ⟨i, hi, rfl⟩ := getElem_of_mem h
  exact ⟨_, mem_map.mpr ⟨(scripts[i], i), mk_mem_zipIdx_iff_getElem?.mpr
    (getElem?_eq_getElem hi), rfl⟩⟩

/-! ### The code builds that tree -/

section Code

variable {lib : TaprootLibrary Builder Info}

/-- The depths of a slice of scripts are computed without a panic: a tree without a penultimate
level has one script, on the deepest. -/
theorem scriptDepth_eq {n idx : ℕ} (hn : n < 2 ^ 63) (hidx : idx < n) :
    scriptDepth (maxDepth n) (numDeepest n) idx = .ok (leafDepth n idx) := by
  have hmax : maxDepth n ≤ 63 := maxDepth_le hn
  rw [scriptDepth, leafDepth]
  split_ifs with hdeep hzero
  · rw [Nat.mod_eq_of_lt (by omega)]
  · rw [numDeepest, hzero] at hdeep
    omega
  · rw [Nat.mod_eq_of_lt (by omega)]

theorem addScripts_eq {maxDepth deepest : ℕ} {depth : ℕ → ℕ} {l : List (ScriptBuf × ℕ)}
    (h : ∀ p ∈ l, scriptDepth maxDepth deepest p.2 = .ok (depth p.2)) {builder builder' : Builder}
    (hadd : (l.map fun p => (depth p.2, p.1)).foldlM (fun b p => lib.addLeaf b p.1 p.2) builder =
      some builder') :
    addScripts lib maxDepth deepest l builder = .ok (.ok builder') := by
  induction l generalizing builder with
  | nil =>
    cases hadd
    rfl
  | cons p l ih =>
    obtain ⟨hp, hl⟩ := forall_mem_cons.mp h
    rw [map_cons, foldlM_cons] at hadd
    obtain ⟨next, hnext, hadd⟩ := Option.bind_eq_some_iff.mp hadd
    rw [addScripts, hp]
    change (match lib.addLeaf builder (depth p.2) p.1 with
      | none => Except.ok (Except.error BridgeTxBuilderError.buildFailed)
      | some builder => addScripts lib maxDepth deepest l builder) = _
    rw [hnext]
    exact ih hl hadd

theorem buildTaptree_eq (network : Network) (scripts : Slice ScriptBuf) {info : Info}
    (h : lib.build internalKey (leafList scripts.1) = some info) :
    buildTaptree lib internalKey network scripts.1 =
      .ok (.ok (lib.p2tr internalKey (lib.merkleRoot info) network, info)) := by
  obtain ⟨scripts, hlen⟩ := scripts
  obtain ⟨builder, hadd, hfinal⟩ := Option.bind_eq_some_iff.mp h
  have hpow : twoPow (maxDepth scripts.length) = .ok (2 ^ maxDepth scripts.length) :=
    if_pos (Nat.pow_lt_pow_right (by decide) ((maxDepth_le hlen).trans_lt (by decide)))
  have hloop : addScripts lib (maxDepth scripts.length) (numDeepest scripts.length)
      scripts.zipIdx lib.new = .ok (.ok builder) :=
    addScripts_eq (fun p hp => scriptDepth_eq hlen (mem_zipIdx' hp).1) hadd
  rw [numDeepest] at hloop
  simp only [buildTaptree, hpow, bind, Except.bind, hloop, hfinal]

end Code

/-! ### Every list of scripts gets its tree -/

section Total

variable {lib : TaprootLibrary Builder Info}

theorem exists_build (h : lib.Lawful) (internalKey : XOnlyPublicKey) (scripts : Slice ScriptBuf) :
    ∃ info, lib.build internalKey (leafList scripts.1) = some info := by
  by_cases hne : scripts.1 = []
  · rw [hne]
    exact h.keySpend internalKey
  · have hlist : leafList scripts.1 ≠ [] := by simpa [leafList] using hne
    refine (h.accepts internalKey _ hlist).mpr ⟨fills_leafList hne, fun p hp => ?_⟩
    have hmax := maxDepth_le scripts.2
    rcases depth_leafList hp with hd | hd <;> omega

/-- **Every list of scripts gets its tree.** For every network, internal key and slice of scripts,
also for an empty one, the code neither panics nor fails to add a leaf or to finalize. The leaves
of the spend info lie at a depth of the rounded up logarithm of the number of scripts or one less;
every script is one of them, so that asking for its control block never gives nothing. -/
theorem buildTaptree_total (h : lib.Lawful) (internalKey : XOnlyPublicKey) (network : Network)
    (scripts : Slice ScriptBuf) :
    ∃ info, buildTaptree lib internalKey network scripts.1 =
        .ok (.ok (lib.p2tr internalKey (lib.merkleRoot info) network, info)) ∧
      (∀ d script, (d, script) ∈ lib.leaves info →
        d = Nat.clog 2 scripts.1.length ∨ d + 1 = Nat.clog 2 scripts.1.length) ∧
      ∀ script ∈ scripts.1,
        (∃ d, (d, script) ∈ lib.leaves info) ∧ lib.controlBlock info script ≠ none := by
  obtain ⟨info, hinfo⟩ := exists_build h internalKey scripts
  have hleaves := h.mem_leaves internalKey _ info hinfo
  refine ⟨info, buildTaptree_eq network scripts hinfo, fun d script hmem => ?_,
    fun script hscript => ?_⟩
  · rw [← maxDepth_eq_clog]
    exact depth_leafList ((hleaves _).mp hmem)
  · obtain ⟨d, hd⟩ := exists_mem_leafList hscript
    have hleaf : ∃ d, (d, script) ∈ lib.leaves info := ⟨d, (hleaves _).mpr hd⟩
    exact ⟨hleaf, Option.isSome_iff_ne_none.mp ((h.controlBlock_isSome info script).mpr hleaf)⟩

namespace TaprootLibrary

/-- The environment of the graph over the builder: outputs and control blocks are those of the tree
that the code builds. -/
def graphEnv (lib : TaprootLibrary Builder Info) (env : GraphEnv) : GraphEnv :=
  { env with
    taprootScriptPubkey := fun network internalKey scripts =>
      (lib.build internalKey (leafList scripts)).elim [] fun info =>
        lib.p2tr internalKey (lib.merkleRoot info) network
    controlBlock := fun internalKey scripts script =>
      ((lib.build internalKey (leafList scripts)).bind (lib.controlBlock · script)).getD [] }

/-- **The addresses of the graph are those that the code computes**, and the control blocks of its
scripts exist: over the builder, the total functions of the graph's environment stand for the
fallible ones of the source. The one error is a script path without scripts. -/
theorem createTaprootAddr_eq (h : lib.Lawful) (env : GraphEnv) (network : Network)
    (internalKey : XOnlyPublicKey) (scripts : Slice ScriptBuf) :
    ∃ info, lib.createTaprootAddr env.unspendablePublicKey network (.both internalKey scripts.1) =
        .ok (.ok (StrataBridge.createTaprootAddr (lib.graphEnv env) network
          (.both internalKey scripts.1), info)) ∧
      ∀ script ∈ scripts.1, lib.controlBlock info script =
        some ((lib.graphEnv env).controlBlock internalKey scripts.1 script) := by
  obtain ⟨info, hinfo⟩ := exists_build h internalKey scripts
  refine ⟨info, ?_, fun script hscript => ?_⟩
  · change buildTaptree lib internalKey network scripts.1 = _
    rw [buildTaptree_eq network scripts hinfo]
    simp [StrataBridge.createTaprootAddr, graphEnv, hinfo]
  · obtain ⟨d, hd⟩ := exists_mem_leafList hscript
    have hleaf := (h.mem_leaves internalKey _ info hinfo _).mpr hd
    obtain ⟨block, hblock⟩ :=
      Option.isSome_iff_exists.mp ((h.controlBlock_isSome info script).mpr ⟨d, hleaf⟩)
    simp [graphEnv, hinfo, hblock]

end TaprootLibrary

/-- The builder with a stack of finished subtrees. Its spend info is the list of the leaves, and a
control block the depth of the leaf. -/
def stackLibrary : TaprootLibrary (List (ℕ × LeafTree ScriptBuf)) (List (ℕ × ScriptBuf)) where
  new := []
  addLeaf stack depth script := LeafTree.addLeaf 128 stack (depth, script)
  finalize stack _ :=
    if stack.isEmpty then some [] else (LeafTree.finalize stack).map (LeafTree.leavesFrom 0)
  merkleRoot leaves := if leaves.isEmpty then none else some (BitVec.ofNat 256 leaves.length)
  leaves := id
  controlBlock leaves script :=
    (leaves.find? fun p => p.2 = script).map fun p => [UInt8.ofNat p.1]
  p2tr internalKey _ _ := toBeBytes 32 internalKey.code

theorem stackLibrary_build {leaves : List (ℕ × ScriptBuf)} (hne : leaves ≠ []) :
    stackLibrary.build internalKey leaves =
      (LeafTree.build 128 leaves).map (LeafTree.leavesFrom 0) := by
  change (leaves.foldlM (LeafTree.addLeaf 128) [] >>= fun stack =>
    stackLibrary.finalize stack internalKey) = _
  rw [LeafTree.build]
  cases hstack : leaves.foldlM (LeafTree.addLeaf 128) [] with
  | none => rfl
  | some stack =>
    have hfull : ¬ stack.isEmpty := by
      rw [List.isEmpty_iff]
      rintro rfl
      exact hne (LeafTree.stackLeaves_foldlM hstack).1.symm
    exact if_neg hfull

theorem eq_of_stackLibrary_build {leaves info : List (ℕ × ScriptBuf)}
    (h : stackLibrary.build internalKey leaves = some info) : info = leaves := by
  by_cases hne : leaves = []
  · subst hne
    exact (Option.some.inj h).symm
  · rw [stackLibrary_build hne] at h
    obtain ⟨t, ht, rfl⟩ := Option.map_eq_some_iff.mp h
    exact (LeafTree.build_eq_some_iff.mp ht).1

theorem stackLibrary_lawful : stackLibrary.Lawful where
  accepts internalKey leaves hne := by
    rw [stackLibrary_build hne, ← LeafTree.exists_build_iff]
    simp
  keySpend internalKey := ⟨[], rfl⟩
  mem_leaves internalKey leaves info h p := by
    rw [eq_of_stackLibrary_build h]
    rfl
  controlBlock_isSome info script := by
    simp [stackLibrary]

/-- Five scripts: the first two below the others, as in the drawing of the source. -/
theorem buildTaptree_total_five :
    ∃ info, buildTaptree stackLibrary ⟨7⟩ .regtest [[1], [2], [3], [4], [5]] =
        .ok (.ok (stackLibrary.p2tr ⟨7⟩ (stackLibrary.merkleRoot info) .regtest, info)) :=
  (buildTaptree_total stackLibrary_lawful ⟨7⟩ .regtest ⟨[[1], [2], [3], [4], [5]],
    by decide⟩).imp fun _ h => h.1

end Total

end StrataBridge
