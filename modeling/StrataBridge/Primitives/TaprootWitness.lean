import StrataBridge.Bitcoin.BigEndian
import StrataBridge.Primitives.Params

/-!
# Witnesses as text

A taproot witness is stored in the database as a text: a word that names the spending path and,
after colons, the data of the path. The writer puts one field for the key path, two for a tweaked
key and three for a script. The reader takes three fields on every path, and reads the control
block and the tweak from the characters of the text where the writer wrote hexadecimal digits.

The consensus encoding of a byte string is its length as a compact integer followed by the bytes.
What the Bitcoin library does to read one back, and to read a control block, are parameters; their
laws are that the readers undo the writers and that a control block is one byte, a key of 32 bytes
and a number of hashes of 32 bytes.

## Main definitions

* `TaprootWitness.toHex`: the writer
* `TaprootWitness.fromHex`: the reader

## Main results

* `TaprootWitness.stored_witness_unreadable`: no stored witness can be read

## References

* `crates/primitives/src/scripts/taproot.rs`, `crates/db/src/persistent/types.rs`
-/

namespace StrataBridge

open List

/-! ### Hexadecimal text -/

def hexDigit (n : ℕ) : Char := "0123456789abcdef".toList.getD n '0'

def hexText (bytes : Bytes) : List Char :=
  bytes.flatMap fun b => [hexDigit (b.toNat / 16), hexDigit (b.toNat % 16)]

/-- The bytes of a text (`str::as_bytes`). -/
def asBytes (text : List Char) : Bytes := text.flatMap String.utf8EncodeChar

/-- The length of a byte string as a compact integer (`VarInt`). -/
def compactSize (n : ℕ) : Bytes :=
  if n < 0xFD then [UInt8.ofNat n]
  else if n ≤ 0xFFFF then 0xFD :: (toBeBytes 2 n).reverse
  else if n ≤ 0xFFFFFFFF then 0xFE :: (toBeBytes 4 n).reverse
  else 0xFF :: (toBeBytes 8 n).reverse

/-- `consensus::encode::serialize_hex` of a byte string. -/
def serializeHex (bytes : Bytes) : List Char := hexText (compactSize bytes.length ++ bytes)

def hexValue (digit : Char) : ℕ := "0123456789abcdef".toList.idxOf digit

theorem hexDigit_spec {n : ℕ} (h : n < 16) :
    hexDigit n ≠ ':' ∧ (hexDigit n).utf8Size = 1 ∧ hexValue (hexDigit n) = n := by
  have hall : ∀ m : Fin 16,
      hexDigit m ≠ ':' ∧ (hexDigit m).utf8Size = 1 ∧ hexValue (hexDigit m) = m := by decide
  exact hall ⟨n, h⟩

theorem mem_hexText {bytes : Bytes} {digit : Char} (h : digit ∈ hexText bytes) :
    ∃ n < 16, digit = hexDigit n := by
  obtain ⟨b, -, hb⟩ := mem_flatMap.mp h
  have hlt : b.toNat < 256 := b.toNat_lt
  rcases mem_pair.mp hb with rfl | rfl
  · exact ⟨_, by omega, rfl⟩
  · exact ⟨_, by omega, rfl⟩

theorem colon_notMem_hexText (bytes : Bytes) : ':' ∉ hexText bytes := by
  intro h
  obtain ⟨n, hn, hdigit⟩ := mem_hexText h
  exact (hexDigit_spec hn).1 hdigit.symm

theorem length_asBytes_hexText (bytes : Bytes) :
    (asBytes (hexText bytes)).length = 2 * bytes.length := by
  have hone : ∀ digit ∈ hexText bytes, (String.utf8EncodeChar digit).length = 1 := by
    intro digit hdigit
    obtain ⟨n, hn, rfl⟩ := mem_hexText hdigit
    rw [String.length_utf8EncodeChar, (hexDigit_spec hn).2.1]
  rw [asBytes, length_flatMap, map_congr_left hone, hexText]
  simp [Nat.mul_comm]

/-! ### Writing and reading -/

/-- The readers of the Bitcoin library. A control block is known by its serialized bytes. -/
structure WitnessCodec where
  /-- `consensus::encode::deserialize_hex` at the type of scripts. -/
  deserializeHex : List Char → Option ScriptBuf
  /-- `ControlBlock::decode`. -/
  decodeControlBlock : Bytes → Option Bytes

/-- The laws of the readers. -/
structure WitnessCodec.Lawful (codec : WitnessCodec) : Prop where
  /-- Reading a script undoes writing it. -/
  deserializeHex_serializeHex : ∀ scriptBuf,
    codec.deserializeHex (serializeHex scriptBuf) = some scriptBuf
  /-- The control block that is read is the one with the given bytes. -/
  decode_eq : ∀ bytes controlBlock, codec.decodeControlBlock bytes = some controlBlock →
    controlBlock = bytes
  /-- A control block is a leaf version, an internal key and the hashes of a branch. -/
  decode_size : ∀ bytes controlBlock, codec.decodeControlBlock bytes = some controlBlock →
    ∃ branch, bytes.length = 33 + 32 * branch

inductive WitnessHexError where
  | invalidWitnessHex
  | deserialize
  | controlBlock
  | tweak
  deriving DecidableEq, Repr

/-- `TapNodeHash::from_slice`. -/
def tapNodeHashFromSlice (bytes : Bytes) : Option (BitVec 256) :=
  if bytes.length = 32 then some (BitVec.ofNat 256 (ofBeBytes bytes)) else none

namespace TaprootWitness

/-- `TaprootWitness::to_hex` (`crates/primitives/src/scripts/taproot.rs`, lines 225–240). The
tweak is printed as its raw hash, whose last byte comes first. -/
def toHex : TaprootWitness → List Char
  | key => "key".toList
  | script scriptBuf controlBlock =>
    "script".toList ++ ':' :: serializeHex scriptBuf ++ ':' :: serializeHex controlBlock
  | tweaked tweak => "tweaked".toList ++ ':' :: hexText (toBeBytes 32 tweak.toNat).reverse

/-- `TaprootWitness::from_hex` (`crates/primitives/src/scripts/taproot.rs`, lines 243–267). -/
def fromHex (codec : WitnessCodec) (hex : List Char) : Except WitnessHexError TaprootWitness :=
  match hex.splitOn ':' with
  | [witnessType, first, second] =>
    if witnessType = "key".toList then .ok key
    else if witnessType = "script".toList then
      match codec.deserializeHex first with
      | none => .error .deserialize
      | some scriptBuf =>
        match codec.decodeControlBlock (asBytes second) with
        | none => .error .controlBlock
        | some controlBlock => .ok (script scriptBuf controlBlock)
    else if witnessType = "tweaked".toList then
      match tapNodeHashFromSlice (asBytes first) with
      | none => .error .tweak
      | some tweak => .ok (tweaked tweak)
    else .error .invalidWitnessHex
  | _ => .error .invalidWitnessHex

end TaprootWitness

structure DbTaprootWitness where
  witness : TaprootWitness
  deriving DecidableEq, Repr

namespace DbTaprootWitness

/-- `DbTaprootWitness::encode_by_ref` (`crates/db/src/persistent/types.rs`, lines 722–731). -/
def encode (w : DbTaprootWitness) : List Char := w.witness.toHex

/-- `DbTaprootWitness::decode` (`crates/db/src/persistent/types.rs`, lines 713–720): every error
of the reader becomes one message. -/
def decode (codec : WitnessCodec) (text : List Char) : Except String DbTaprootWitness :=
  match TaprootWitness.fromHex codec text with
  | .ok witness => .ok ⟨witness⟩
  | .error _ => .error "Failed to decode TaprootWitness"

end DbTaprootWitness

/-! ### What is written is not read -/

namespace TaprootWitness

def fields : TaprootWitness → List (List Char)
  | key => ["key".toList]
  | script scriptBuf controlBlock =>
    ["script".toList, serializeHex scriptBuf, serializeHex controlBlock]
  | tweaked tweak => ["tweaked".toList, hexText (toBeBytes 32 tweak.toNat).reverse]

/-- No field holds a colon, so that splitting the text gives the fields back. -/
theorem splitOn_toHex (w : TaprootWitness) : w.toHex.splitOn ':' = w.fields := by
  have htwo (a b : List Char) : [':'].intercalate [a, b] = a ++ ':' :: b := by
    simp
  have hthree (a b d : List Char) :
      [':'].intercalate [a, b, d] = a ++ ':' :: b ++ ':' :: d := by
    simp
  have htext : w.toHex = [':'].intercalate w.fields := by
    cases w with
    | key => rfl
    | script scriptBuf controlBlock => exact (hthree _ _ _).symm
    | tweaked tweak => exact (htwo _ _).symm
  rw [htext]
  refine splitOn_intercalate ':' (fun field hfield => ?_) (by cases w <;> simp [fields])
  cases w with
  | key =>
    simp only [fields, mem_singleton] at hfield
    rw [hfield]
    decide
  | script scriptBuf controlBlock =>
    simp only [fields, mem_cons, not_mem_nil, or_false] at hfield
    rcases hfield with rfl | rfl | rfl
    · decide
    · exact colon_notMem_hexText _
    · exact colon_notMem_hexText _
  | tweaked tweak =>
    simp only [fields, mem_pair] at hfield
    rcases hfield with rfl | rfl
    · decide
    · exact colon_notMem_hexText _

/-- The number of characters of an encoded control block is even, and no control block has an
even number of bytes. -/
theorem decode_asBytes_serializeHex {codec : WitnessCodec} (h : codec.Lawful) (bytes : Bytes) :
    codec.decodeControlBlock (asBytes (serializeHex bytes)) = none := by
  cases hdecode : codec.decodeControlBlock (asBytes (serializeHex bytes)) with
  | none => rfl
  | some controlBlock =>
    obtain ⟨branch, hsize⟩ := h.decode_size _ _ hdecode
    rw [serializeHex, length_asBytes_hexText] at hsize
    omega

def readError : TaprootWitness → WitnessHexError
  | key => .invalidWitnessHex
  | script _ _ => .controlBlock
  | tweaked _ => .invalidWitnessHex

/-- **No witness is read back from the database.** For every witness, on every spending path, the
reader refuses the text that the writer wrote: the texts of a key path and of a tweaked key have too
few fields, and the control block of a script is decoded from the hexadecimal characters instead of
the bytes they stand for. So there is no witness on which reading undoes writing, and every query
of a stored witness fails. -/
theorem stored_witness_unreadable {codec : WitnessCodec} (h : codec.Lawful) (w : TaprootWitness) :
    fromHex codec w.toHex = .error w.readError ∧
      DbTaprootWitness.decode codec (DbTaprootWitness.encode ⟨w⟩) =
        .error "Failed to decode TaprootWitness" ∧
      (fromHex codec w.toHex = .ok w ↔ False) := by
  have hread : fromHex codec w.toHex = .error w.readError := by
    rw [fromHex, splitOn_toHex]
    cases w with
    | key => rfl
    | tweaked tweak => rfl
    | script scriptBuf controlBlock =>
      simp [fields, readError, h.deserializeHex_serializeHex, decode_asBytes_serializeHex h]
  refine ⟨hread, ?_, ?_⟩
  · rw [DbTaprootWitness.decode, DbTaprootWitness.encode, hread]
  · rw [hread]
    exact ⟨fun hok => (nomatch hok), False.elim⟩

/-! ### A lawful reader -/

def unhex : List Char → Bytes
  | high :: low :: rest =>
    UInt8.ofNat (16 * hexValue high + hexValue low) :: unhex rest
  | _ => []

theorem unhex_hexText (bytes : Bytes) : unhex (hexText bytes) = bytes := by
  induction bytes with
  | nil => rfl
  | cons b bytes ih =>
    have hlt : b.toNat < 256 := b.toNat_lt
    have hhigh := (hexDigit_spec (Nat.div_lt_of_lt_mul hlt : b.toNat / 16 < 16)).2.2
    have hlow := (hexDigit_spec (Nat.mod_lt b.toNat (by decide : 16 > 0))).2.2
    have hsplit : 16 * (b.toNat / 16) + b.toNat % 16 = b.toNat := Nat.div_add_mod _ _
    change UInt8.ofNat (16 * hexValue _ + hexValue _) :: unhex (hexText bytes) = b :: bytes
    rw [hhigh, hlow, hsplit, ih, UInt8.ofNat_toNat]

def compactWidth (bytes : Bytes) : ℕ :=
  if bytes.head? = some 0xFD then 3
  else if bytes.head? = some 0xFE then 5
  else if bytes.head? = some 0xFF then 9
  else 1

theorem drop_compactSize (bytes : Bytes) :
    (compactSize bytes.length ++ bytes).drop
      (compactWidth (compactSize bytes.length ++ bytes)) = bytes := by
  rw [compactSize]
  split_ifs with hone htwo hfour
  · have hfirst (k : UInt8) (hk : 0xFD ≤ k.toNat) : UInt8.ofNat bytes.length ≠ k := by
      rintro rfl
      rw [UInt8.toNat_ofNat'] at hk
      omega
    simp [compactWidth, hfirst]
  · simp [compactWidth]
  · simp [compactWidth]
  · simp [compactWidth]

def readScript (text : List Char) : Option ScriptBuf :=
  let bytes := unhex text
  let scriptBuf := bytes.drop (compactWidth bytes)
  if serializeHex scriptBuf = text then some scriptBuf else none

theorem readScript_serializeHex (scriptBuf : ScriptBuf) :
    readScript (serializeHex scriptBuf) = some scriptBuf := by
  have hscript : (unhex (serializeHex scriptBuf)).drop
      (compactWidth (unhex (serializeHex scriptBuf))) = scriptBuf := by
    rw [serializeHex, unhex_hexText, drop_compactSize]
  simp [readScript, hscript]

def sizedCodec : WitnessCodec where
  deserializeHex := readScript
  decodeControlBlock bytes :=
    if 33 ≤ bytes.length ∧ (bytes.length - 33) % 32 = 0 then some bytes else none

theorem sizedCodec_lawful : sizedCodec.Lawful where
  deserializeHex_serializeHex scriptBuf := by
    simp only [sizedCodec, readScript_serializeHex]
  decode_eq bytes controlBlock h := by
    simp only [sizedCodec, Option.ite_none_right_eq_some, Option.some.injEq] at h
    exact h.2.symm
  decode_size bytes controlBlock h := by
    simp only [sizedCodec, Option.ite_none_right_eq_some] at h
    exact ⟨(bytes.length - 33) / 32, by omega⟩

def singleLeaf : TaprootWitness := script [0x51] (0xC0 :: replicate 32 2)

theorem stored_witness_unreadable_singleLeaf :
    fromHex sizedCodec singleLeaf.toHex = .error .controlBlock :=
  (stored_witness_unreadable sizedCodec_lawful singleLeaf).1

/-- The three spending paths, with a control block that the library reads from its bytes: none is
read back. -/
theorem no_path_read_back :
    sizedCodec.decodeControlBlock (0xC0 :: replicate 32 2) = some (0xC0 :: replicate 32 2) ∧
      fromHex sizedCodec key.toHex = .error .invalidWitnessHex ∧
      fromHex sizedCodec (tweaked 7).toHex = .error .invalidWitnessHex ∧
      fromHex sizedCodec singleLeaf.toHex = .error .controlBlock := by
  decide +kernel

end TaprootWitness

end StrataBridge
