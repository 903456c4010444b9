import StrataBridge.Instance.Linear
import StrataBridge.TxGraph.DisproveLeaf
import Mathlib.Data.BitVec

/-!
# When a commitment to public inputs is disproved

The proof system clears the three highest bits of the hash of the public inputs. The leaf script
clears bits by comparing and subtracting, and its comparisons are strict: a first byte that is a
multiple of 32, but not zero, ends as 32 where it should end as zero. For such a hash the correct
commitment is disproved, and the commitment to the wrong byte is not.

## References

* `crates/connectors/src/connector_a3.rs`, lines 106–258,
  `crates/primitives/src/scripts/transform.rs`, lines 83–95
-/

namespace StrataBridge

open Script ConnectorA3Leaf Linear
open List hiding Vector

variable {x : UInt8}

def clearTopBits : Bytes → Bytes
  | [] => []
  | x :: xs => (x &&& 0x1f) :: xs

def Bitvm.publicInputsHash (bitvm : Bitvm) (depositTxid withdrawalFulfillmentTxid : Txid) : Bytes :=
  clearTopBits (bitvm.blake3 (depositTxid.toBytes ++ withdrawalFulfillmentTxid.toBytes)).toList

/-- The leaf script runs to its end on the witness of two signatures and leaves true. -/
def Disproves (bitvm : Bitvm) (ctx : Spending) (keys : Wots.PublicKeys) (depositTxid : Txid)
    (sigWithdrawalFulfillmentTxid sigPublicInputsHash : Wots.Wots256Sig) : Prop :=
  ∃ result alt, run (bitvm.exec ctx) (disprovePublicInputsCommitment keys depositTxid)
      (.top (generateWitnessScript bitvm sigWithdrawalFulfillmentTxid sigPublicInputsHash) []) =
    some (.top [result] alt) ∧ castToBool result = true

/-! ### The byte that is cleared -/

theorem toNat_and_low (x : UInt8) : (x &&& 0x1f).toNat = x.toNat % 32 := by
  exact Nat.and_two_pow_sub_one_eq_mod x.toNat 5

/-- The opcodes clear the bits of every byte but the multiples of 32. -/
theorem clearedByScript_eq (h : x = 0 ∨ ¬ 32 ∣ x.toNat) :
    clearedByScript x.toNat = (x &&& 0x1f).toNat := by
  rw [toNat_and_low, clearedByScript]
  obtain rfl | h := h
  · rfl
  · rw [if_neg fun hx => h (Nat.dvd_of_mod_eq_zero hx.2)]

theorem clearedByScript_of_dvd (hx : x ≠ 0) (h : 32 ∣ x.toNat) :
    clearedByScript x.toNat = (32 : UInt8).toNat ∧ x &&& 0x1f = 0 := by
  have hne : x.toNat ≠ 0 := fun hzero => hx (UInt8.toNat_inj.mp hzero)
  have hmod := Nat.mod_eq_zero_of_dvd h
  refine ⟨if_pos ⟨hne, hmod⟩, UInt8.toNat_inj.mp ?_⟩
  rw [toNat_and_low, hmod]
  rfl

theorem map_toNat_eq_cons {h xs : Bytes} {y : UInt8} :
    h.map UInt8.toNat = y.toNat :: xs.map UInt8.toNat ↔ h = y :: xs := by
  rw [← map_cons]
  exact (map_injective_iff.mpr fun _ _ => UInt8.toNat_inj.mp).eq_iff

section Disproved

variable {bitvm : Bitvm} (hbitvm : bitvm.Correct) (ctx : Spending) {keys : Wots.PublicKeys}
  {sigW sigH : Wots.Wots256Sig} {depositTxid w : Txid} {h : Vector UInt8 32}
  (hsigW : bitvm.Signs keys.withdrawalFulfillment w.toBytes sigW)
  (hsigH : bitvm.Signs (keys.groth16.publicInputs.get ⟨0, by decide⟩) h.toList sigH)

include hbitvm hsigW hsigH

/-- What the leaf disproves: every commitment but the one to the hash that it computes. -/
theorem disproves_iff {xs : Bytes}
    (hhash : (bitvm.blake3 (depositTxid.toBytes ++ w.toBytes)).toList = x :: xs) :
    Disproves bitvm ctx keys depositTxid sigW sigH ↔
      h.toList.map UInt8.toNat ≠ clearedByScript x.toNat :: xs.map UInt8.toNat := by
  have hrun := run_disprovePublicInputsCommitment hbitvm ctx hhash hsigW hsigH
  constructor
  · rintro ⟨result, alt, hrun', htrue⟩
    cases Option.some.inj (hrun.symm.trans hrun')
    rwa [castToBool_ofBool, decide_eq_true_eq] at htrue
  · intro hne
    exact ⟨_, _, hrun, by rw [castToBool_ofBool, decide_eq_true hne]⟩

end Disproved

/-- **The leaf disproves exactly the wrong commitments, unless the first byte of the hash is a
multiple of 32 other than zero.** For such a hash it is mistaken about two commitments: the correct
one, whose first byte is zero, is disproved, and the one with first byte 32 is not. -/
theorem disproves_exactly_wrong_iff {bitvm : Bitvm} (hbitvm : bitvm.Correct) (ctx : Spending)
    {keys : Wots.PublicKeys} {sigW sigH : Wots.Wots256Sig} {depositTxid w : Txid}
    {h : Vector UInt8 32} (hsigW : bitvm.Signs keys.withdrawalFulfillment w.toBytes sigW)
    (hsigH : bitvm.Signs (keys.groth16.publicInputs.get ⟨0, by decide⟩) h.toList sigH) :
    let hash := bitvm.blake3 (depositTxid.toBytes ++ w.toBytes)
    (Disproves bitvm ctx keys depositTxid sigW sigH ↔
        h.toList ≠ bitvm.publicInputsHash depositTxid w) ↔
      hash[0] = 0 ∨ ¬ 32 ∣ hash[0].toNat ∨
        (h.toList ≠ 0 :: hash.toList.tail ∧ h.toList ≠ 32 :: hash.toList.tail) := by
  intro hash
  obtain ⟨x, xs, hhash⟩ : ∃ x xs, hash.toList = x :: xs :=
    exists_cons_of_ne_nil fun hnil => by simpa [hnil] using hash.length_toList
  have hfirst : hash[0] = x := by
    rw [← Vector.getElem_toList (by simp)]
    simp [hhash]
  have hpublic : bitvm.publicInputsHash depositTxid w = (x &&& 0x1f) :: xs := by
    rw [Bitvm.publicInputsHash, hhash, clearTopBits]
  rw [disproves_iff hbitvm ctx hsigW hsigH hhash, hpublic, hfirst, hhash]
  by_cases hgood : x = 0 ∨ ¬ 32 ∣ x.toNat
  · rw [clearedByScript_eq hgood, ne_eq, map_toNat_eq_cons, ← or_assoc]
    exact ⟨fun _ => .inl hgood, fun _ => Iff.rfl⟩
  · obtain ⟨hzero, hdvd⟩ := not_or.mp hgood
    obtain ⟨hcleared, hand⟩ := clearedByScript_of_dvd hzero (not_not.mp hdvd)
    have hdiff : ¬ (h.toList = 0 :: xs ∧ h.toList = 32 :: xs) := fun ⟨h0, h32⟩ => by
      rw [h0, cons.injEq] at h32
      exact absurd h32.1 (by decide)
    rw [hcleared, hand, ne_eq, map_toNat_eq_cons]
    tauto

/-! ### A concrete library -/

namespace Linear

def readNums (items : List Bytes) : List ℕ :=
  items.map fun item => ((readScriptInt 4 item).getD 0).toNat

theorem readNums_nums {ds : List ℕ} (h : ∀ d ∈ ds, d < 2 ^ 31) : readNums (nums ds) = ds := by
  rw [readNums, nums, map_map]
  refine (map_congr_left fun d hd => ?_).trans (map_id ds)
  rw [Function.comp_apply, readScriptInt_four (h d hd)]
  rfl

def sumHash (ds : List ℕ) : Vector UInt8 32 := .ofFn fun i => UInt8.ofNat (ds.sum / 256 ^ i.val)

def bitvm : Bitvm where
  nmul n m :=
    match m.stack with
    | [] => none
    | x :: st => some { m with stack := scriptInt (n * (readScriptInt 4 x).getD 0) :: st }
  compactChecksigVerify _ m :=
    match m.stack with
    | [] => none
    | message :: st => some { m with stack := nums (nibbles message) ++ st }
  transformLimbsize source target m :=
    some { m with
      stack := nums (limbs target (limbCount target)
        (limbValue source (readNums (m.stack.take (limbCount source))))) ++
          m.stack.drop (limbCount source) }
  blake3ComputeScript _ m :=
    some { m with stack := nums (nibbles (sumHash (readNums m.stack)).toList.reverse) }
  rawWitness sig := sig.chains
  Signs _ message sig := sig.chains = [message]
  blake3 message := sumHash (blockLimbs (message.drop 32) ++ blockLimbs (message.take 32))

theorem bitvm_correct : bitvm.Correct where
  nmul n x st alt h := by
    have hx : x < 2 ^ 31 ∨ n = 0 := by
      obtain _ | n := n
      · exact .inr rfl
      · exact .inl (lt_of_le_of_lt (Nat.le_mul_of_pos_left x n.succ_pos) h)
    obtain hx | rfl := hx
    · simp [bitvm, readScriptInt_four hx]
    · simp [bitvm]
  compactChecksigVerify key message sig st alt _ hsig := by
    have hsig : sig.chains = [message] := hsig
    simp [bitvm, hsig]
  transformLimbsize source target ds st alt _ hsource _ _ hlen hds _ := by
    have hlt : ∀ d ∈ ds, d < 2 ^ 31 := fun d hd =>
      (hds d hd).trans (Nat.pow_lt_pow_right (by decide) hsource)
    have hnums : (nums ds).length = limbCount source := (length_nums ds).trans hlen
    simp only [bitvm, take_left' hnums, drop_left' hnums, readNums_nums hlt]
  blake3ComputeScript first second alt hfirst hsecond := by
    have hlt : ∀ half, ∀ d ∈ blockLimbs half, d < 2 ^ 31 := fun half d hd =>
      (lt_of_mem_limbs hd).trans (by decide)
    simp only [bitvm, ← nums_append, drop_left' hfirst, take_left' hfirst,
      readNums_nums (forall_mem_append.mpr ⟨hlt second, hlt first⟩)]

def spending : Spending := ⟨2, 0, fun _ _ => false, id⟩

def messageSig (message : Bytes) : Wots.Wots256Sig := ⟨[message]⟩

end Linear

/-- Where the hash is zero, a commitment is disproved exactly if it is wrong. -/
theorem zero_hash_disproves_exactly_wrong :
    Disproves bitvm Linear.spending (wotsKeys 0) ⟨0⟩ (messageSig (Txid.mk 0).toBytes)
        (messageSig (Vector.replicate 32 (7 : UInt8)).toList) ↔
      (Vector.replicate 32 (7 : UInt8)).toList ≠ bitvm.publicInputsHash ⟨0⟩ ⟨0⟩ :=
  (disproves_exactly_wrong_iff bitvm_correct Linear.spending rfl rfl).mpr (.inl (by decide +kernel))

/-- The transaction whose identifier has the fourth byte 64 and is zero elsewhere. Together with
the deposit of identifier zero it has a hash with first byte 64, and zero elsewhere: the correct
commitment is zero, and it is disproved. -/
theorem correct_commitment_disproved :
    (Vector.replicate 32 (0 : UInt8)).toList = bitvm.publicInputsHash ⟨0⟩ ⟨64 * 256 ^ 28⟩ ∧
      Disproves bitvm Linear.spending (wotsKeys 0) ⟨0⟩
        (messageSig (Txid.mk (64 * 256 ^ 28)).toBytes)
        (messageSig (Vector.replicate 32 (0 : UInt8)).toList) := by
  have hhash : (bitvm.blake3 ((Txid.mk 0).toBytes ++
      (Txid.mk (64 * 256 ^ 28)).toBytes)).toList = 64 :: replicate 31 0 := by
    decide +kernel
  constructor
  · rw [Bitvm.publicInputsHash, hhash]
    rfl
  · refine (disproves_iff (h := .replicate 32 0) bitvm_correct Linear.spending rfl rfl hhash).mpr ?_
    decide

end StrataBridge
