import StrataBridge.Bitcoin.Transaction
import Mathlib.Tactic.NormNum
import Mathlib.Tactic.Ring

/-!
# Big-endian integers

Machine integers are written to scripts as a fixed number of big-endian bytes. Reading such bytes
back gives the integer, and writing what was read gives the bytes.
-/

namespace StrataBridge

open List

/-- The integer that a string of bytes stands for, first byte first (`from_be_bytes`). -/
def ofBeBytes : Bytes → ℕ
  | [] => 0
  | b :: bs => b.toNat * 256 ^ bs.length + ofBeBytes bs

theorem ofBeBytes_lt (b : Bytes) : ofBeBytes b < 256 ^ b.length := by
  induction b with
  | nil => exact Nat.one_pos
  | cons b bs ih =>
    have hb : b.toNat + 1 ≤ 256 := b.toNat_lt
    calc ofBeBytes (b :: bs) < b.toNat * 256 ^ bs.length + 256 ^ bs.length :=
          Nat.add_lt_add_left ih _
      _ = (b.toNat + 1) * 256 ^ bs.length := by ring
      _ ≤ 256 * 256 ^ bs.length := Nat.mul_le_mul_right _ hb
      _ = 256 ^ (b :: bs).length := by rw [length_cons, pow_succ, mul_comm]

theorem toBeBytes_succ (n x : ℕ) :
    toBeBytes (n + 1) x = UInt8.ofNat (x / 256 ^ n) :: toBeBytes n x := by
  rw [toBeBytes, range_succ_eq_map, map_cons, map_map]
  refine congrArg₂ _ rfl (map_congr_left fun i _ => ?_)
  rw [Function.comp_apply, Nat.add_sub_cancel, Nat.succ_eq_add_one, Nat.add_comm i 1,
    Nat.sub_add_eq]

theorem ofBeBytes_toBeBytes (n x : ℕ) : ofBeBytes (toBeBytes n x) = x % 256 ^ n := by
  induction n with
  | zero => simp [toBeBytes, ofBeBytes, Nat.mod_one]
  | succ n ih =>
    rw [toBeBytes_succ, ofBeBytes, ih, length_toBeBytes, Nat.mod_pow_succ, UInt8.toNat_ofNat',
      Nat.add_comm, Nat.mul_comm (256 ^ n)]

theorem ofBeBytes_inj {b b' : Bytes} (hlen : b.length = b'.length)
    (h : ofBeBytes b = ofBeBytes b') : b = b' := by
  induction b generalizing b' with
  | nil => exact (length_eq_zero_iff.mp hlen.symm).symm
  | cons x bs ih =>
    cases b' with
    | nil => cases hlen
    | cons x' bs' =>
      have hlen' : bs.length = bs'.length := Nat.succ.inj hlen
      have hlt := ofBeBytes_lt bs
      have hlt' := ofBeBytes_lt bs'
      rw [ofBeBytes, ofBeBytes, hlen'] at h
      rw [hlen'] at hlt
      have hhead : x.toNat = x'.toNat := by
        have hpos : 0 < 256 ^ bs'.length := Nat.pow_pos (by decide)
        have hdiv := congrArg (· / 256 ^ bs'.length) h
        simpa [Nat.mul_add_div hpos, Nat.mul_comm _ (256 ^ bs'.length), Nat.div_eq_of_lt hlt,
          Nat.div_eq_of_lt hlt'] using hdiv
      rw [hhead] at h
      rw [UInt8.toNat_inj.mp hhead, ih hlen' (Nat.add_left_cancel h)]

theorem toBeBytes_ofBeBytes {b : Bytes} {n : ℕ} (hlen : b.length = n) :
    toBeBytes n (ofBeBytes b) = b := by
  refine ofBeBytes_inj (by rw [length_toBeBytes, hlen]) ?_
  rw [ofBeBytes_toBeBytes, ← hlen, Nat.mod_eq_of_lt (ofBeBytes_lt b)]

namespace Txid

/-- The identifier with the given bytes (`consensus::encode::deserialize`). -/
def ofBytes (b : Bytes) : Txid := ⟨BitVec.ofNat 256 (ofBeBytes b)⟩

@[simp] theorem length_toBytes (t : Txid) : t.toBytes.length = 32 := length_toBeBytes 32 _

theorem toBytes_ofBytes {b : Bytes} (hlen : b.length = 32) : (ofBytes b).toBytes = b := by
  have hlt := ofBeBytes_lt b
  rw [hlen, show (256 : ℕ) ^ 32 = 2 ^ 256 by norm_num] at hlt
  rw [toBytes, ofBytes, BitVec.toNat_ofNat, Nat.mod_eq_of_lt hlt, toBeBytes_ofBeBytes hlen]

theorem ofBytes_toBytes (t : Txid) : ofBytes t.toBytes = t := by
  obtain ⟨hash⟩ := t
  rw [ofBytes, toBytes, ofBeBytes_toBeBytes, show (256 : ℕ) ^ 32 = 2 ^ 256 by norm_num,
    Nat.mod_eq_of_lt hash.isLt, BitVec.ofNat_toNat, BitVec.setWidth_eq]

end Txid

end StrataBridge
