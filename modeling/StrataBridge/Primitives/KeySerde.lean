import StrataBridge.Primitives.Wots
import StrataBridge.Serde.Sequence
import StrataBridge.Wots.KeyWidth

/-!
# One-time keys as sequences of bytes

Keys are serialized as one flat sequence of bytes, whose length is announced first. The announced
length is the size of the key in memory; as a key is a shared pointer to its arrays, that is the
size of a pointer, whatever the arrays hold. The visitors read every byte back in its place as long
as they are offered all of them.

## References

* `crates/primitives/src/wots.rs`
-/

namespace StrataBridge.Wots

open Serde

variable {ε ω : Type}

def wotsHashDigestSize : ℕ := 20

/-- `wots_key_width` (lines 708–711), a copy of that of the crate for one-time signatures. -/
def wotsKeyWidth (numBits : ℕ) : ℕ := keyWidth numBits 4

/-- The array in a key, which elsewhere is only compared with others. -/
abbrev KeyArray (numBits : ℕ) : Type :=
  Vector (Vector UInt8 wotsHashDigestSize) (wotsKeyWidth numBits)

/-- `BitVmG16PublicKeys` (lines 42–47). -/
abbrev BitVmG16PublicKeys : Type :=
  Vector (KeyArray 256) numPubs × Vector (KeyArray 256) numU256 × Vector (KeyArray 128) numHash

/-- `size_of` of an `Arc`: that of a pointer. -/
def sizeOfArc : ℕ := 8

def keyBytes {numBits : ℕ} (key : KeyArray numBits) : Bytes := key.toList.flatMap Vector.toList

variable (keys : BitVmG16PublicKeys) (F : SeqFormat UInt8 ε ω) (key : KeyArray 256)

def groth16Bytes : Bytes :=
  keys.1.toList.flatMap keyBytes ++
    (keys.2.1.toList.flatMap keyBytes ++ keys.2.2.toList.flatMap keyBytes)

/-- `Wots256PublicKey::serialize` (lines 90–104): the announced length and the bytes. -/
def serializeKey : ℕ × Bytes := (sizeOfArc, keyBytes key)

/-- `Groth16PublicKeys::serialize` (lines 253–286). -/
def serializeGroth16 : ℕ × Bytes := (sizeOfArc, groth16Bytes keys)

/-- The loops over a key in a visitor. The length that is reported is the product of the indices. -/
def visitKey (failed : Option ε) (numBits idx : ℕ) : Visit UInt8 ε (KeyArray numBits) :=
  Vector.ofFnM fun keyIdx => Vector.ofFnM fun byteIdx =>
    nextElement failed ((idx + 1) * (keyIdx + 1) * (byteIdx + 1))

/-- `visit_seq` of `Wots256PublicKey` (lines 124–144). -/
def visitSeqKey (failed : Option ε) : Visit UInt8 ε (KeyArray 256) := visitKey failed 256 0

/-- `visit_seq` of `Groth16PublicKeys` (lines 309–361). -/
def visitSeqGroth16 (failed : Option ε) : Visit UInt8 ε BitVmG16PublicKeys :=
  (Vector.ofFnM fun inputIdx => visitKey failed 256 inputIdx).both
    ((Vector.ofFnM fun fqIdx => visitKey failed 256 fqIdx).both
      (Vector.ofFnM fun hashIdx => visitKey failed 128 hashIdx))

theorem reads_visitKey (failed : Option ε) (numBits idx : ℕ) :
    Reads (visitKey failed numBits idx) keyBytes :=
  Reads.ofFnM fun keyIdx => reads_elements failed fun byteIdx =>
    (idx + 1) * (keyIdx.val + 1) * (byteIdx.val + 1)

theorem reads_visitSeqGroth16 (failed : Option ε) :
    Reads (visitSeqGroth16 failed) groth16Bytes :=
  (Reads.ofFnM fun inputIdx => reads_visitKey failed 256 inputIdx).both
    ((Reads.ofFnM fun fqIdx => reads_visitKey failed 256 fqIdx).both
      (Reads.ofFnM fun hashIdx => reads_visitKey failed 128 hashIdx))

theorem length_keyBytes {numBits : ℕ} (key : KeyArray numBits) :
    (keyBytes key).length = wotsKeyWidth numBits * wotsHashDigestSize := by
  rw [keyBytes, length_flatMap_const fun _ _ => Vector.length_toList, Vector.length_toList]

theorem sizeOfArc_lt_key : sizeOfArc < (keyBytes key).length := by
  rw [length_keyBytes]
  decide

theorem sizeOfArc_lt_groth16 : sizeOfArc < (groth16Bytes keys).length := by
  have hlen {n numBits : ℕ} (v : Vector (KeyArray numBits) n) :
      (v.toList.flatMap keyBytes).length = n * (wotsKeyWidth numBits * wotsHashDigestSize) := by
    rw [length_flatMap_const fun key _ => length_keyBytes key, Vector.length_toList]
  rw [groth16Bytes, List.length_append, List.length_append, hlen, hlen, hlen]
  decide

theorem roundTrip_key_iff :
    F.roundTrip (serializeKey key) visitSeqKey = .ok key ↔ F.Offers (serializeKey key) :=
  F.roundTrip_eq_ok_iff (fun failed => reads_visitKey failed 256 0) sizeOfArc key

theorem roundTrip_groth16_iff (keys : BitVmG16PublicKeys) :
    F.roundTrip (serializeGroth16 keys) visitSeqGroth16 = .ok keys ↔
      F.Offers (serializeGroth16 keys) :=
  F.roundTrip_eq_ok_iff reads_visitSeqGroth16 sizeOfArc keys

/-- **When keys are read back.** The announced length is never that of the bytes. A format gives a
key back exactly if it offers the visitor all bytes of it nevertheless. -/
theorem keys_round_trip_iff :
    (∀ key : KeyArray 256, (serializeKey key).1 ≠ (serializeKey key).2.length ∧
      (F.roundTrip (serializeKey key) visitSeqKey = .ok key ↔ F.Offers (serializeKey key))) ∧
    ∀ keys : BitVmG16PublicKeys, (serializeGroth16 keys).1 ≠ (serializeGroth16 keys).2.length ∧
      (F.roundTrip (serializeGroth16 keys) visitSeqGroth16 = .ok keys ↔
        F.Offers (serializeGroth16 keys)) :=
  ⟨fun key => ⟨(sizeOfArc_lt_key key).ne, roundTrip_key_iff F key⟩,
    fun keys => ⟨(sizeOfArc_lt_groth16 keys).ne, roundTrip_groth16_iff F keys⟩⟩

/-- In a format that writes the announced length in front and offers as many elements, which is
consistent in itself, no key is read back. -/
theorem keys_cut_to_pointer : (SeqFormat.prefixed : SeqFormat UInt8 _ _).SelfConsistent ∧
    (∀ key, SeqFormat.prefixed.roundTrip (serializeKey key) visitSeqKey ≠ .ok key) ∧
    ∀ keys, SeqFormat.prefixed.roundTrip (serializeGroth16 keys) visitSeqGroth16 ≠ .ok keys := by
  refine ⟨SeqFormat.selfConsistent_prefixed, fun key hkey => ?_, fun keys hkeys => ?_⟩
  · have hle := SeqFormat.length_le_of_offers_prefixed ((roundTrip_key_iff _ key).mp hkey)
    exact absurd hle (sizeOfArc_lt_key key).not_ge
  · have hle := SeqFormat.length_le_of_offers_prefixed ((roundTrip_groth16_iff _ keys).mp hkeys)
    exact absurd hle (sizeOfArc_lt_groth16 keys).not_ge

end StrataBridge.Wots
