import Mathlib.Algebra.Group.Nat.Even
import Mathlib.Tactic.Ring

/-!
# Depth-first leaf lists of binary trees

A binary tree with labelled leaves is determined by the list of its leaves from left to right, each
with its depth. Not every list of depths belongs to a tree. This file has the two facts about such
lists that a program needs which describes a tree by its leaves: a builder that takes the leaves one
after the other and keeps the finished subtrees on a stack accepts exactly the lists that fill a
tree; and the leaves of two adjacent levels fill a tree when the deeper ones come first, are even in
number, and make up together with the others a full level.
-/

inductive LeafTree (α : Type*) where
  | leaf (a : α)
  | branch (left right : LeafTree α)

namespace LeafTree

variable {α : Type*}

variable {limit : ℕ}

/-- The leaves from left to right with their depths, of a tree whose root has depth `d`. -/
def leavesFrom (d : ℕ) : LeafTree α → List (ℕ × α)
  | leaf a => [(d, a)]
  | branch left right => leavesFrom (d + 1) left ++ leavesFrom (d + 1) right

def Fills (leaves : List (ℕ × α)) : Prop := ∃ t : LeafTree α, t.leavesFrom 0 = leaves

/-! ### Filling a tree level by level -/

theorem exists_of_full_level (d k : ℕ) (ts : List (LeafTree α)) (h : ts.length = 2 ^ k) :
    ∃ t : LeafTree α, t.leavesFrom d = ts.flatMap (leavesFrom (d + k)) := by
  induction k generalizing d ts with
  | zero =>
    obtain ⟨t, rfl⟩ := List.length_eq_one_iff.mp h
    exact ⟨t, by simp⟩
  | succ k ih =>
    -- The left half of the level fills the left subtree, the right half the right one.
    have hleft : (ts.take (2 ^ k)).length = 2 ^ k := by
      rw [List.length_take, h]
      omega
    have hright : (ts.drop (2 ^ k)).length = 2 ^ k := by
      rw [List.length_drop, h]
      omega
    obtain ⟨left, hl⟩ := ih (d + 1) _ hleft
    obtain ⟨right, hr⟩ := ih (d + 1) _ hright
    refine ⟨branch left right, ?_⟩
    rw [leavesFrom, hl, hr, ← List.flatMap_append, List.take_append_drop, Nat.add_right_comm,
      Nat.add_assoc]

def pairs : List α → List (LeafTree α)
  | [] => []
  | [_] => []
  | a :: b :: rest => branch (leaf a) (leaf b) :: pairs rest

theorem length_pairs (l : List α) : (pairs l).length = l.length / 2 := by
  induction l using pairs.induct with
  | case1 => simp [pairs]
  | case2 a => simp [pairs]
  | case3 a b rest ih =>
    simp only [pairs, List.length_cons]
    omega

theorem flatMap_pairs (d : ℕ) {l : List α} (h : Even l.length) :
    (pairs l).flatMap (leavesFrom d) = l.map (Prod.mk (d + 1)) := by
  induction l using pairs.induct with
  | case1 => simp [pairs]
  | case2 a => simp at h
  | case3 a b rest ih =>
    have hrest : Even rest.length := by
      simpa only [List.length_cons, Nat.even_add_one, not_not] using h
    rw [pairs, List.flatMap_cons, ih hrest]
    rfl

/-- **Leaves of two adjacent levels fill a tree** when the deeper leaves come first, are even in
number, and their parents and the other leaves make up a full level. -/
theorem fills_two_levels (k : ℕ) {deep shallow : List α} (heven : Even deep.length)
    (hcount : deep.length / 2 + shallow.length = 2 ^ k) :
    Fills (deep.map (Prod.mk (k + 1)) ++ shallow.map (Prod.mk k)) := by
  have hlevel : (pairs deep ++ shallow.map leaf).length = 2 ^ k := by
    rw [List.length_append, length_pairs, List.length_map, hcount]
  obtain ⟨t, ht⟩ := exists_of_full_level 0 k _ hlevel
  refine ⟨t, ?_⟩
  rw [ht, List.flatMap_append, Nat.zero_add, flatMap_pairs k heven]
  refine congrArg _ ?_
  rw [List.flatMap_map, List.map_eq_flatMap]
  rfl

/-! ### The builder -/

/-- Put a finished subtree of depth `d` on the stack. The top of the stack is the subtree finished
last; one of the same depth is its left sibling, so that the two become one subtree a level up. -/
def insert : List (ℕ × LeafTree α) → ℕ → LeafTree α → Option (List (ℕ × LeafTree α))
  | [], d, t => some [(d, t)]
  | (e, u) :: stack, d, t =>
    if d < e then none
    else if d = e then if d = 0 then none else insert stack (d - 1) (branch u t)
    else some ((d, t) :: (e, u) :: stack)

def addLeaf (limit : ℕ) (stack : List (ℕ × LeafTree α)) (p : ℕ × α) :
    Option (List (ℕ × LeafTree α)) :=
  if limit < p.1 then none else insert stack p.1 (leaf p.2)

def finalize : List (ℕ × LeafTree α) → Option (LeafTree α)
  | [(0, t)] => some t
  | _ => none

variable {leaves : List (ℕ × α)} {stack stack' : List (ℕ × LeafTree α)} {t : LeafTree α}

theorem finalize_eq_some (h : finalize stack = some t) : stack = [(0, t)] := by
  rw [finalize.eq_def] at h
  split at h
  · cases h
    rfl
  · cases h

def build (limit : ℕ) (leaves : List (ℕ × α)) : Option (LeafTree α) :=
  leaves.foldlM (addLeaf limit) [] >>= finalize

/-- The leaves under the subtrees on the stack, from left to right. -/
def stackLeaves : List (ℕ × LeafTree α) → List (ℕ × α)
  | [] => []
  | (d, t) :: stack => stackLeaves stack ++ t.leavesFrom d

theorem stackLeaves_insert {d : ℕ} (h : insert stack d t = some stack') :
    stackLeaves stack' = stackLeaves stack ++ t.leavesFrom d := by
  induction stack generalizing d t with
  | nil =>
    cases h
    rfl
  | cons top stack ih =>
    rw [insert] at h
    split_ifs at h with hlt heq hroot
    · subst heq
      rw [ih h, leavesFrom, stackLeaves, List.append_assoc, Nat.sub_add_cancel (by omega)]
    · cases h
      rfl

theorem foldlM_leavesFrom (t : LeafTree α) {d : ℕ} (htop : ∀ top ∈ stack.head?, top.1 ≤ d)
    (hlimit : ∀ p ∈ t.leavesFrom d, p.1 ≤ limit) :
    (t.leavesFrom d).foldlM (addLeaf limit) stack = insert stack d t := by
  induction t generalizing stack d with
  | leaf a =>
    have hd : ¬ limit < d := Nat.not_lt.mpr (hlimit (d, a) List.mem_cons_self)
    simp [leavesFrom, addLeaf, hd]
  | branch left right ihl ihr =>
    have hpush : insert stack (d + 1) left = some ((d + 1, left) :: stack) := by
      cases stack with
      | nil => rfl
      | cons top stack =>
        have hle : top.1 ≤ d := htop top rfl
        rw [insert, if_neg (by omega), if_neg (by omega)]
    have hjoin : insert ((d + 1, left) :: stack) (d + 1) right =
        insert stack d (branch left right) := by
      rw [insert, if_neg (Nat.lt_irrefl _), if_pos rfl, if_neg (Nat.succ_ne_zero d),
        Nat.add_sub_cancel]
    have htop' : ∀ top ∈ ((d + 1, left) :: stack).head?, top.1 ≤ d + 1 := by
      rintro top ⟨⟩
      exact Nat.le_refl (d + 1)
    rw [leavesFrom] at hlimit ⊢
    rw [List.foldlM_append,
      ihl (fun top ht => (htop top ht).trans (Nat.le_succ d))
        fun p hp => hlimit p (List.mem_append_left _ hp),
      hpush, Option.bind_eq_bind, Option.bind_some,
      ihr htop' fun p hp => hlimit p (List.mem_append_right _ hp), hjoin]

theorem stackLeaves_foldlM (h : leaves.foldlM (addLeaf limit) stack = some stack') :
    stackLeaves stack' = stackLeaves stack ++ leaves ∧ ∀ p ∈ leaves, p.1 ≤ limit := by
  induction leaves generalizing stack with
  | nil =>
    cases h
    exact ⟨(List.append_nil _).symm, List.forall_mem_nil _⟩
  | cons p leaves ih =>
    obtain ⟨next, hadd, h⟩ := Option.bind_eq_some_iff.mp h
    obtain ⟨hleaves, hlimit⟩ := ih h
    rw [addLeaf] at hadd
    split_ifs at hadd with hdeep
    refine ⟨?_, List.forall_mem_cons.mpr ⟨Nat.not_lt.mp hdeep, hlimit⟩⟩
    rw [hleaves, stackLeaves_insert hadd, leavesFrom, List.append_assoc, List.singleton_append]

/-- **The builder accepts exactly the lists that fill a tree**, with no leaf deeper than the limit,
and returns the tree. -/
theorem build_eq_some_iff :
    build limit leaves = some t ↔ t.leavesFrom 0 = leaves ∧ ∀ p ∈ leaves, p.1 ≤ limit := by
  constructor
  · intro h
    obtain ⟨stack, hstack, hfinal⟩ := Option.bind_eq_some_iff.mp h
    obtain ⟨hleaves, hlimit⟩ := stackLeaves_foldlM hstack
    refine ⟨?_, hlimit⟩
    obtain rfl := finalize_eq_some hfinal
    exact hleaves
  · rintro ⟨rfl, hlimit⟩
    rw [build, foldlM_leavesFrom t (by simp) hlimit]
    rfl

/-- What the builder accepts, as a condition on the list alone. -/
theorem exists_build_iff :
    (∃ t, build limit leaves = some t) ↔ Fills leaves ∧ ∀ p ∈ leaves, p.1 ≤ limit := by
  simp [build_eq_some_iff, Fills]

end LeafTree
