import Mathlib.Data.List.Induction
import StrataBridge.Script.Machine

/-!
# Numbers in limbs

Numbers that do not fit in one item of the stack are kept as limbs, the most significant one on
top. Bytes are limbs of eight bits and nibbles limbs of four, so that a byte string can be read in
either way.
-/

namespace StrataBridge.Script

open List

variable {ds : List ℕ}

/-- The number with the given limbs of `w` bits, the most significant one first. -/
def limbValue (w : ℕ) (ds : List ℕ) : ℕ := ds.foldl (fun acc d => acc * 2 ^ w + d) 0

/-- The lowest `n` limbs of `w` bits of a number, the most significant one first. -/
def limbs (w : ℕ) : ℕ → ℕ → List ℕ
  | 0, _ => []
  | n + 1, x => limbs w n (x / 2 ^ w) ++ [x % 2 ^ w]

variable (bs : Bytes)

def nibbles : List ℕ := bs.flatMap fun b => [b.toNat / 16, b.toNat % 16]

def nums (ds : List ℕ) : List Bytes := ds.map fun d : ℕ => scriptInt d

@[simp] theorem nums_nil : nums [] = [] := rfl

@[simp] theorem nums_cons (d : ℕ) (ds : List ℕ) : nums (d :: ds) = scriptInt d :: nums ds := rfl

@[simp] theorem nums_append (ds es : List ℕ) : nums (ds ++ es) = nums ds ++ nums es :=
  map_append

@[simp] theorem length_nums (ds : List ℕ) : (nums ds).length = ds.length := length_map _

theorem nums_reverse (ds : List ℕ) : nums ds.reverse = (nums ds).reverse := map_reverse

theorem nums_inj {es : List ℕ} (hds : ∀ d ∈ ds, d < 2 ^ 31) (hes : ∀ e ∈ es, e < 2 ^ 31) :
    nums ds = nums es ↔ ds = es := by
  induction ds generalizing es with
  | nil => cases es <;> simp
  | cons d ds ih =>
    cases es with
    | nil => simp
    | cons e es =>
      obtain ⟨hd, hds⟩ := forall_mem_cons.mp hds
      obtain ⟨he, hes⟩ := forall_mem_cons.mp hes
      rw [nums_cons, nums_cons, cons.injEq, cons.injEq, scriptInt_inj hd he, ih hds hes]

/-! ### Limbs -/

theorem limbValue_concat (w : ℕ) (ds : List ℕ) (d : ℕ) :
    limbValue w (ds ++ [d]) = limbValue w ds * 2 ^ w + d := by
  rw [limbValue, foldl_append]
  rfl

@[simp] theorem length_limbs (w n x : ℕ) : (limbs w n x).length = n := by
  induction n generalizing x with
  | zero => rfl
  | succ n ih => rw [limbs, length_append, ih, length_singleton]

theorem lt_of_mem_limbs {w n x d : ℕ} (h : d ∈ limbs w n x) : d < 2 ^ w := by
  induction n generalizing x with
  | zero => cases h
  | succ n ih =>
    obtain h | h := mem_append.mp h
    · exact ih h
    · rw [mem_singleton.mp h]
      exact Nat.mod_lt _ (Nat.two_pow_pos w)

/-- **Limbs are determined by their number.** -/
theorem limbs_limbValue {w : ℕ} (h : ∀ d ∈ ds, d < 2 ^ w) :
    limbs w ds.length (limbValue w ds) = ds := by
  induction ds using reverseRecOn with
  | nil => rfl
  | append_singleton ds d ih =>
    obtain ⟨hds, hd⟩ := forall_mem_append.mp h
    have hd := hd d (mem_singleton_self d)
    have hpos := Nat.two_pow_pos w
    rw [length_append, length_singleton, limbs, limbValue_concat,
      Nat.mul_comm (limbValue w ds), Nat.mul_add_div hpos, Nat.div_eq_of_lt hd, Nat.add_zero,
      ih hds, Nat.mul_add_mod, Nat.mod_eq_of_lt hd]

theorem limbValue_lt {w : ℕ} (h : ∀ d ∈ ds, d < 2 ^ w) : limbValue w ds < 2 ^ (w * ds.length) := by
  induction ds using reverseRecOn with
  | nil => exact Nat.two_pow_pos _
  | append_singleton ds d ih =>
    obtain ⟨hds, hd⟩ := forall_mem_append.mp h
    have hd := hd d (mem_singleton_self d)
    have hds := ih hds
    rw [limbValue_concat, length_append, length_singleton, Nat.mul_succ, pow_add]
    calc limbValue w ds * 2 ^ w + d < limbValue w ds * 2 ^ w + 2 ^ w := Nat.add_lt_add_left hd _
      _ = (limbValue w ds + 1) * 2 ^ w := by ring
      _ ≤ 2 ^ (w * ds.length) * 2 ^ w := Nat.mul_le_mul_right _ hds

/-! ### Bytes and nibbles -/

@[simp] theorem nibbles_cons (b : UInt8) (bs : Bytes) :
    nibbles (b :: bs) = b.toNat / 16 :: b.toNat % 16 :: nibbles bs := rfl

@[simp] theorem nibbles_append (cs : Bytes) : nibbles (bs ++ cs) = nibbles bs ++ nibbles cs :=
  flatMap_append

@[simp] theorem length_nibbles : (nibbles bs).length = 2 * bs.length := by
  induction bs with
  | nil => rfl
  | cons b bs ih =>
    rw [nibbles_cons, length_cons, length_cons, ih, length_cons]
    ring

theorem forall_mem_nibbles : ∀ d ∈ nibbles bs, d < 2 ^ 4 := by
  intro d h
  obtain ⟨b, -, hd⟩ := mem_flatMap.mp h
  have hb := b.toNat_lt
  simp only [mem_cons, not_mem_nil, or_false] at hd
  omega

theorem forall_mem_map_toNat : ∀ d ∈ bs.map UInt8.toNat, d < 2 ^ 8 := by
  intro d h
  obtain ⟨b, -, rfl⟩ := mem_map.mp h
  exact b.toNat_lt

/-- **Nibbles stand for the same number as their bytes.** -/
theorem limbValue_nibbles : limbValue 4 (nibbles bs) = limbValue 8 (bs.map UInt8.toNat) := by
  induction bs using reverseRecOn with
  | nil => rfl
  | append_singleton bs b ih =>
    have hsplit : nibbles (bs ++ [b]) = nibbles bs ++ [b.toNat / 16] ++ [b.toNat % 16] := by
      rw [nibbles_append, append_assoc]
      rfl
    rw [hsplit, limbValue_concat, limbValue_concat, map_append, map_singleton, limbValue_concat]
    omega

theorem limbs_four : limbs 4 (2 * bs.length) (limbValue 8 (bs.map UInt8.toNat)) = nibbles bs := by
  rw [← limbValue_nibbles, ← length_nibbles]
  exact limbs_limbValue (forall_mem_nibbles bs)

theorem limbs_eight : limbs 8 bs.length (limbValue 4 (nibbles bs)) = bs.map UInt8.toNat := by
  have h := limbs_limbValue (forall_mem_map_toNat bs)
  rwa [length_map, ← limbValue_nibbles] at h

end StrataBridge.Script
