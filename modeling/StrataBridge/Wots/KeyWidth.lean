import Mathlib.Data.Nat.Log
import Mathlib.Tactic.Ring
import StrataBridge.Rust.Outcome

/-!
# Widths of one-time keys

The crate for one-time signatures counts the digits of a key twice. `key_width`, which sizes the
arrays, counts the digits of the checksum in whole bytes and takes 31 for the largest digit; the
parameters, by which a public key is computed, count them in base 16 and add one. The two counts
agree on the messages of 128 and 256 bits that the bridge signs.

## References

* `crates/wots/src/lib.rs`
-/

namespace StrataBridge.Wots

open Rust List

def divCeil (n d : ℕ) : ℕ := (n + d - 1) / d

/-- The loop of `log_base_ceil`. Each round multiplies `cur`, which stays below `2 ^ 40` for the
bases in use. -/
def logBaseCeilLoop (n base : ℕ) : ℕ → ℕ → ℕ → ℕ
  | 0, _, res => res
  | fuel + 1, cur, res =>
    if cur < n then logBaseCeilLoop n base fuel (cur * base) (res + 1) else res

/-- `log_base_ceil` (lines 20–28). From base 2 on, `n` rounds are enough. -/
def logBaseCeil (n base : ℕ) : ℕ := logBaseCeilLoop n base n 1 0

/-- `checksum_width` (lines 38–44), with its largest digit `(2 << w) - 1` and the cast of the
checksum to 32 bits. -/
def checksumWidth (numBits digitWidth : ℕ) : ℕ :=
  let maxChecksum := divCeil numBits digitWidth * (2 * 2 ^ digitWidth - 1)
  divCeil (logBaseCeil (maxChecksum % 2 ^ 32) 256 * 8) digitWidth

/-- `key_width` (lines 32–35). -/
def keyWidth (numBits digitWidth : ℕ) : ℕ :=
  divCeil numBits digitWidth + checksumWidth numBits digitWidth

/-- The parameters of a key (lines 47–55). -/
structure Parameters where
  messageLength : ℕ
  digitWidth : ℕ
  checksumLength : ℕ
  deriving DecidableEq, Repr

namespace Parameters

/-- `Parameters::new_by_bit_length` (lines 78–93). The product is one of 32 bits. -/
def newByBitLength (numberOfBits digitWidth : ℕ) : MayPanic Parameters :=
  if 4 ≤ digitWidth ∧ digitWidth ≤ 8 then
    let messageNumDigits := divCeil numberOfBits digitWidth
    if (2 ^ digitWidth - 1) * messageNumDigits < 2 ^ 32 then
      .ok
        { messageLength := messageNumDigits
          digitWidth
          checksumLength :=
            logBaseCeil ((2 ^ digitWidth - 1) * messageNumDigits) (2 ^ digitWidth) + 1 }
    else .error "attempt to multiply with overflow"
  else .error "You can only choose digit widths in the range [4, 8]"

def maxDigitValue (ps : Parameters) : ℕ := 2 ^ ps.digitWidth - 1

def totalLength (ps : Parameters) : ℕ := ps.messageLength + ps.checksumLength

def chainEnd (ps : Parameters) (hash160 : BitVec 160 → BitVec 160) (secret : BitVec 160) :
    BitVec 160 :=
  hash160^[ps.maxDigitValue] (hash160 secret)

end Parameters

section PublicKey

variable (hash160 : BitVec 160 → BitVec 160) (ps : Parameters) (secretKey : List (BitVec 160))

def fillSegment (publicKey : List (BitVec 160)) (i : ℕ) : MayPanic (List (BitVec 160)) :=
  match secretKey[i]? with
  | none => .error "range end index out of range for slice"
  | some secret => .ok (publicKey.set i (ps.chainEnd hash160 secret))

/-- `wots_public_key` (lines 111–132), on keys cut into their segments of 20 bytes. -/
def wotsPublicKey : MayPanic (List (BitVec 160)) :=
  (range ps.totalLength).foldlM (fillSegment hash160 ps secretKey) (replicate secretKey.length 0)

end PublicKey

/-! ### The counts -/

theorem logBaseCeilLoop_eq {n base fuel : ℕ} (res : ℕ) (hbase : 1 < base)
    (hres : res ≤ Nat.clog base n) (hfuel : Nat.clog base n ≤ res + fuel) :
    logBaseCeilLoop n base fuel (base ^ res) res = Nat.clog base n := by
  induction fuel generalizing res with
  | zero => exact Nat.le_antisymm hres hfuel
  | succ fuel ih =>
    rw [logBaseCeilLoop]
    split
    next hlt =>
      exact ih (res + 1) ((Nat.lt_clog_iff_pow_lt hbase).mpr hlt) (by omega)
    next hge => exact Nat.le_antisymm hres (Nat.clog_le_of_le_pow (Nat.le_of_not_lt hge))

theorem logBaseCeil_eq_clog (n : ℕ) {base : ℕ} (hbase : 1 < base) :
    logBaseCeil n base = Nat.clog base n := by
  have hfuel : Nat.clog base n ≤ n := Nat.clog_le_of_le_pow (Nat.lt_pow_self hbase).le
  exact logBaseCeilLoop_eq 0 hbase (Nat.zero_le _) (by omega)

theorem clog_eq_succ_iff {base n k : ℕ} (hbase : 1 < base) :
    Nat.clog base n = k + 1 ↔ base ^ k < n ∧ n ≤ base ^ (k + 1) := by
  rw [← Nat.lt_clog_iff_pow_lt hbase, ← Nat.clog_le_iff_le_pow hbase]
  omega

/-- For the checksums of `d` digits both counts agree when the largest one has an odd number of
digits in base 16. -/
theorem clog_succ_eq_iff (d : ℕ) :
    Nat.clog 16 (15 * d) + 1 = 2 * Nat.clog 256 (31 * d) ↔
      ∃ k, 256 ^ k < 15 * d ∧ 15 * d ≤ 16 * 256 ^ k := by
  have hpow (k : ℕ) : 16 ^ (2 * k) = 256 ^ k := by rw [pow_mul]; norm_num
  have hodd (k : ℕ) : Nat.clog 16 (15 * d) = 2 * k + 1 ↔
      256 ^ k < 15 * d ∧ 15 * d ≤ 16 * 256 ^ k := by
    rw [clog_eq_succ_iff (by decide), pow_succ, hpow, Nat.mul_comm 16]
  constructor
  · intro h
    obtain ⟨k, hk⟩ : ∃ k, Nat.clog 256 (31 * d) = k + 1 := ⟨_, (Nat.succ_pred (by omega)).symm⟩
    exact ⟨k, (hodd k).mp (by omega)⟩
  · rintro ⟨k, h⟩
    have hbytes : Nat.clog 256 (31 * d) = k + 1 := by
      rw [clog_eq_succ_iff (by decide)]
      omega
    rw [(hodd k).mpr h, hbytes]
    ring

/-- Where the cast cuts the checksum of `key_width` off, the parameters count nine digits. -/
theorem not_exists_of_cast {d : ℕ} (h : 15 * d < 2 ^ 32) (hcast : 2 ^ 32 ≤ 31 * d) :
    Nat.clog 16 (15 * d) = 8 ∧ ¬∃ k, 256 ^ k < 15 * d ∧ 15 * d ≤ 16 * 256 ^ k := by
  refine ⟨(clog_eq_succ_iff (by decide)).mpr (by omega), ?_⟩
  rintro ⟨k, hlow, hhigh⟩
  rcases Nat.lt_or_ge k 4 with hk | hk
  · have : 256 ^ k ≤ 256 ^ 3 := Nat.pow_le_pow_right (by decide) (by omega)
    omega
  · have : 256 ^ 4 ≤ 256 ^ k := Nat.pow_le_pow_right (by decide) hk
    omega

section Keys

variable {n : ℕ} {ps : Parameters} {hash160 : BitVec 160 → BitVec 160}
  {secretKey : List (BitVec 160)}

theorem keyWidth_four (n : ℕ) :
    keyWidth n 4 = divCeil n 4 + 2 * Nat.clog 256 (31 * divCeil n 4 % 2 ^ 32) := by
  rw [keyWidth, checksumWidth, logBaseCeil_eq_clog _ (by decide), Nat.mul_comm (divCeil n 4)]
  norm_num [divCeil]
  omega

theorem Parameters.newByBitLength_four (h : newByBitLength n 4 = .ok ps) :
    15 * divCeil n 4 < 2 ^ 32 ∧ ps.messageLength = divCeil n 4 ∧
      ps.checksumLength = Nat.clog 16 (15 * divCeil n 4) + 1 := by
  rw [newByBitLength, if_pos (by decide)] at h
  dsimp only at h
  split at h
  next hlt =>
    cases h
    exact ⟨hlt, rfl, by rw [logBaseCeil_eq_clog _ (by decide)]; rfl⟩
  next => cases h

theorem wotsPublicKey_of_length (h : secretKey.length = ps.totalLength) :
    wotsPublicKey hash160 ps secretKey = .ok (secretKey.map (ps.chainEnd hash160)) := by
  -- After `j` rounds the first `j` segments are there and the rest is zero.
  have hrounds (j : ℕ) (hj : j ≤ secretKey.length) :
      (range j).foldlM (fillSegment hash160 ps secretKey) (replicate secretKey.length 0) =
      .ok ((secretKey.take j).map (ps.chainEnd hash160) ++ replicate (secretKey.length - j) 0) := by
    induction j with
    | zero => rfl
    | succ j ih =>
      obtain ⟨r, hr⟩ := Nat.exists_eq_add_of_le hj
      have hrest : secretKey.length - j = r + 1 := by omega
      have hrest' : secretKey.length - (j + 1) = r := by omega
      have hlen : ((secretKey.take j).map (ps.chainEnd hash160)).length = j := by
        rw [length_map, length_take, Nat.min_eq_left (by omega)]
      rw [range_succ, foldlM_append, ih (by omega), hrest, hrest',
        take_succ_eq_append_getElem hj, map_append]
      change fillSegment hash160 ps secretKey _ j >>= _ = _
      rw [fillSegment, getElem?_eq_getElem hj]
      change Except.ok (set _ _ _) = _
      rw [set_append_right _ _ hlen.le, hlen, Nat.sub_self, replicate_succ, append_assoc]
      rfl
  rw [wotsPublicKey, ← h, hrounds _ le_rfl, take_length, Nat.sub_self, replicate_zero, append_nil]

/-- **The two counts of key digits.** For a message of `n` bits they agree when the largest checksum
has an odd number of digits in base 16. A public key then fills the array that `key_width` sizes.
The checksum always fits the digits of the parameters, and those of `key_width` as long as its
largest checksum has 32 bits. -/
theorem keyWidth_eq_totalLength_iff (hps : Parameters.newByBitLength n 4 = .ok ps) :
    (keyWidth n 4 = ps.totalLength ↔
      ∃ k, 256 ^ k < 15 * divCeil n 4 ∧ 15 * divCeil n 4 ≤ 16 * 256 ^ k) ∧
    (keyWidth n 4 = ps.totalLength → ∀ hash160 secretKey, secretKey.length = keyWidth n 4 →
      wotsPublicKey hash160 ps secretKey = .ok (secretKey.map (ps.chainEnd hash160))) ∧
    15 * divCeil n 4 < 16 ^ ps.checksumLength ∧
    (31 * divCeil n 4 < 2 ^ 32 → 15 * divCeil n 4 < 16 ^ checksumWidth n 4) := by
  obtain ⟨hlt, hmessage, hchecksum⟩ := Parameters.newByBitLength_four hps
  have hwidth : checksumWidth n 4 = 2 * Nat.clog 256 (31 * divCeil n 4 % 2 ^ 32) :=
    Nat.add_left_cancel (keyWidth_four n)
  refine ⟨?_, fun heq hash160 secretKey hlen => wotsPublicKey_of_length (hlen.trans heq), ?_, ?_⟩
  · rw [keyWidth, Parameters.totalLength, hmessage, hchecksum, hwidth, Nat.add_left_cancel_iff,
      eq_comm]
    rcases Nat.lt_or_ge (31 * divCeil n 4) (2 ^ 32) with hfits | hcast
    · rw [Nat.mod_eq_of_lt hfits]
      exact clog_succ_eq_iff _
    · obtain ⟨hnine, hnot⟩ := not_exists_of_cast hlt hcast
      exact iff_of_false (by omega) hnot
  · rw [hchecksum]
    have hle := Nat.le_pow_clog (b := 16) (by decide) (15 * divCeil n 4)
    have hpos := Nat.pow_pos (n := Nat.clog 16 (15 * divCeil n 4)) (show 0 < 16 by decide)
    omega
  · intro hfits
    rw [hwidth, Nat.mod_eq_of_lt hfits, pow_mul]
    have hle := Nat.le_pow_clog (b := 256) (by decide) (31 * divCeil n 4)
    have hpos := Nat.pow_pos (n := Nat.clog 256 (31 * divCeil n 4)) (show 0 < 256 by decide)
    change _ < 256 ^ _
    omega

end Keys

/-- On 256 bits the counts agree. -/
theorem keyWidth_eq_totalLength_256 :
    keyWidth 256 4 = 68 ∧ ∃ ps, Parameters.newByBitLength 256 4 = .ok ps ∧ ps.totalLength = 68 := by
  have hps : Parameters.newByBitLength 256 4 = .ok ⟨64, 4, 4⟩ := by decide
  have h := (keyWidth_eq_totalLength_iff hps).1.mpr ⟨1, by decide⟩
  exact ⟨h, _, hps, rfl⟩

/-- **A key of one byte is too short for its public key.** -/
theorem keyWidth_lt_totalLength : keyWidth 8 4 = 4 ∧
    ∃ ps, Parameters.newByBitLength 8 4 = .ok ps ∧ ps.totalLength = 5 ∧
      wotsPublicKey id ps (replicate (keyWidth 8 4) 0) =
        .error "range end index out of range for slice" :=
  ⟨by decide, ⟨2, 4, 3⟩, by decide, rfl, by decide⟩

end StrataBridge.Wots
