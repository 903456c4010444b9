import StrataBridge.Bitcoin.Transaction
import Mathlib.Tactic.Ring

/-!
# Numbers on the stack

The stack of a script holds byte strings. Where an opcode takes a number, it reads a byte string
as magnitude and sign: the magnitude in little-endian bytes without leading zeros, the sign in the
highest bit of the last byte.
-/

namespace StrataBridge.Script

open List

variable {n j : ℕ} {b : Bytes}

/-- The little-endian bytes of a number, without leading zeros, at most `k` of them. -/
def magnitude : ℕ → ℕ → Bytes
  | 0, _ => []
  | k + 1, n => if n = 0 then [] else UInt8.ofNat (n % 256) :: magnitude k (n / 256)

def leValue : Bytes → ℕ
  | [] => 0
  | b :: bs => b.toNat + 256 * leValue bs

/-- The byte string of a number of 64 bits. Where the highest bit of the magnitude is taken, the
sign gets a byte of its own. -/
def scriptInt (n : ℤ) : Bytes :=
  let m := magnitude 8 n.natAbs
  match m.getLast? with
  | none => []
  | some top =>
    if 0x80 ≤ top then m ++ [if n < 0 then 0x80 else 0]
    else if n < 0 then m.dropLast ++ [top ||| 0x80]
    else m

/-- The number of a byte string of at most `maxSize` bytes. -/
def readScriptInt (maxSize : ℕ) (b : Bytes) : Option ℤ :=
  if maxSize < b.length then none
  else
    match b.getLast? with
    | none => some 0
    | some top =>
      if 0x80 ≤ top then some (-(leValue (b.dropLast ++ [top &&& 0x7f]) : ℤ))
      else some (leValue b)

/-- The truth value of a byte string: false are zero and negative zero, of any length. -/
def castToBool (b : Bytes) : Bool :=
  match b.getLast? with
  | none => false
  | some top => b.dropLast.any (· ≠ 0) || (top ≠ 0 && top ≠ 0x80)

/-! ### Magnitudes -/

theorem leValue_magnitude {k : ℕ} (h : n < 256 ^ k) : leValue (magnitude k n) = n := by
  induction k generalizing n with
  | zero => exact (Nat.lt_one_iff.mp h).symm
  | succ k ih =>
    rw [magnitude]
    split
    · next hzero => rw [hzero, leValue]
    · have hdiv : n / 256 < 256 ^ k := by
        exact Nat.div_lt_of_lt_mul (by omega)
      rw [leValue, ih hdiv, UInt8.toNat_ofNat']
      omega

theorem length_magnitude_le {k : ℕ} (h : n < 256 ^ j) : (magnitude k n).length ≤ j := by
  induction k generalizing j n with
  | zero => exact Nat.zero_le j
  | succ k ih =>
    rw [magnitude]
    split
    · exact Nat.zero_le j
    · next hn =>
      obtain _ | j := j
      · exact absurd (Nat.lt_one_iff.mp h) hn
      · have hdiv : n / 256 < 256 ^ j := by
          exact Nat.div_lt_of_lt_mul (by omega)
        exact Nat.succ_le_succ (ih hdiv)

theorem length_magnitude_le_self (k n : ℕ) : (magnitude k n).length ≤ k := by
  induction k generalizing n with
  | zero => exact le_rfl
  | succ k ih =>
    rw [magnitude]
    split
    · exact Nat.zero_le _
    · exact Nat.succ_le_succ (ih _)

theorem length_scriptInt_le (n : ℤ) : (scriptInt n).length ≤ 9 := by
  have hlen := length_magnitude_le_self 8 n.natAbs
  rw [scriptInt]
  cases hlast : (magnitude 8 n.natAbs).getLast? with
  | none => exact Nat.zero_le _
  | some top =>
    dsimp only
    split_ifs <;> simp <;> omega

theorem leValue_append (b c : Bytes) :
    leValue (b ++ c) = leValue b + 256 ^ b.length * leValue c := by
  induction b with
  | nil => simp [leValue]
  | cons x b ih =>
    rw [cons_append, leValue, ih, leValue, length_cons]
    ring

/-- A magnitude whose highest bit is taken needs another byte for the sign; a magnitude of fewer
bits does not fill its bytes. -/
private theorem length_signed_le {top : UInt8} {m : Bytes} (hj : 0 < j) (hn : n < 2 ^ (8 * j - 1))
    (hlen : m.length ≤ j) (hval : leValue m = n) (hlast : m.getLast? = some top)
    (htop : 0x80 ≤ top) : m.length < j := by
  refine lt_of_le_of_ne hlen fun heq => ?_
  obtain ⟨init, rfl⟩ := getLast?_eq_some_iff.mp hlast
  rw [leValue_append, leValue, leValue, Nat.add_zero] at hval
  have hinit : init.length = j - 1 := by
    rw [length_append, length_singleton] at heq
    omega
  have hpow : (2 : ℕ) ^ (8 * j - 1) = 256 ^ init.length * 0x80 := by
    rw [show (256 : ℕ) = 2 ^ 8 by norm_num, ← pow_mul, show 0x80 = 2 ^ 7 by norm_num, ← pow_add]
    congr 1
    omega
  have hle : 256 ^ init.length * 0x80 ≤ 256 ^ init.length * top.toNat :=
    Nat.mul_le_mul_left _ (UInt8.le_iff_toNat_le.mp htop)
  omega

/-! ### Reading numbers back -/

private theorem magnitude_eq_nil {k : ℕ} (h : n < 256 ^ k) (hnil : magnitude k n = []) : n = 0 := by
  rw [← leValue_magnitude h, hnil, leValue]

theorem readScriptInt_of_top {top : UInt8} (hlen : b.length ≤ j)
    (hlast : b.getLast? = some top) (htop : ¬ 0x80 ≤ top) :
    readScriptInt j b = some (leValue b : ℤ) := by
  rw [readScriptInt, if_neg (not_lt.mpr hlen), hlast]
  exact if_neg htop

/-- **A number is read back** where it takes at most the number of bytes that are allowed. -/
theorem readScriptInt_scriptInt (hj : 0 < j) (hj' : j ≤ 8) (hn : n < 2 ^ (8 * j - 1)) :
    readScriptInt j (scriptInt n) = some (n : ℤ) := by
  have hfit : n < 256 ^ j := by
    rw [show (256 : ℕ) = 2 ^ 8 by norm_num, ← pow_mul]
    exact hn.trans_le (Nat.pow_le_pow_right (by norm_num) (Nat.sub_le _ _))
  have hfit' : n < 256 ^ 8 := hfit.trans_le (Nat.pow_le_pow_right (by norm_num) hj')
  have hval := leValue_magnitude hfit'
  have hlen := length_magnitude_le (k := 8) hfit
  rw [scriptInt, Int.natAbs_natCast]
  cases hlast : (magnitude 8 n).getLast? with
  | none =>
    have hzero := magnitude_eq_nil hfit' (getLast?_eq_none_iff.mp hlast)
    simp [readScriptInt, hzero]
  | some top =>
    have hneg : ¬ (n : ℤ) < 0 := by omega
    by_cases htop : 0x80 ≤ top
    · have hlt := length_signed_le hj hn hlen hval hlast htop
      simp only [if_pos htop, if_neg hneg]
      rw [readScriptInt_of_top (by rw [length_append, length_singleton]; omega)
        getLast?_concat (by decide), leValue_append, hval]
      simp [leValue]
    · simp only [if_neg htop, if_neg hneg]
      rw [readScriptInt_of_top hlen hlast htop, hval]

theorem readScriptInt_four (hn : n < 2 ^ 31) : readScriptInt 4 (scriptInt n) = some (n : ℤ) :=
  readScriptInt_scriptInt (by decide) (by decide) hn

theorem scriptInt_inj {m : ℕ} (hm : m < 2 ^ 31) (hn : n < 2 ^ 31) :
    scriptInt m = scriptInt n ↔ m = n := by
  refine ⟨fun h => ?_, fun h => by rw [h]⟩
  have hread := congrArg (readScriptInt 4) h
  rw [readScriptInt_four hm, readScriptInt_four hn, Option.some.injEq] at hread
  exact_mod_cast hread

private theorem leValue_eq_zero (h : ∀ x ∈ b, x = 0) : leValue b = 0 := by
  induction b with
  | nil => rfl
  | cons x b ih =>
    rw [leValue, h x mem_cons_self, ih fun y hy => h y (mem_cons_of_mem x hy)]
    rfl

theorem castToBool_of_readScriptInt {v : ℤ} (h : readScriptInt j b = some v) (hv : v ≠ 0) :
    castToBool b = true := by
  by_contra hfalse
  refine hv ?_
  rw [readScriptInt] at h
  split at h
  · cases h
  cases hlast : b.getLast? with
  | none =>
    rw [hlast] at h
    exact (Option.some.inj h).symm
  | some top =>
    obtain ⟨init, rfl⟩ := getLast?_eq_some_iff.mp hlast
    simp only [castToBool, hlast, dropLast_concat, Bool.or_eq_true, any_eq_true,
      decide_eq_true_eq, Bool.and_eq_true, not_or, not_exists, not_and, not_not] at hfalse
    obtain ⟨hinit, htop⟩ := hfalse
    -- the highest byte is zero or holds the sign alone
    have hmasked : top = 0 ∨ 0x80 ≤ top ∧ top &&& 0x7f = 0 := by
      by_cases hzero : top = 0
      · exact .inl hzero
      · rw [htop hzero]
        decide
    have hsum : ∀ y : UInt8, y = 0 → leValue (init ++ [y]) = 0 := fun y hy =>
      leValue_eq_zero fun x hx => by
        obtain hx | hx := mem_append.mp hx
        · exact hinit x hx
        · rw [mem_singleton.mp hx, hy]
    rw [hlast, dropLast_concat] at h
    obtain hzero | ⟨hge, hand⟩ := hmasked
    · simp only [hzero, hsum 0 rfl] at h
      simpa using h.symm
    · simp only [if_pos hge, hand, hsum 0 rfl] at h
      simpa using h.symm

end StrataBridge.Script
