import StrataBridge.Primitives.TaprootWitness
import StrataBridge.Rust.Outcome

/-!
# The weight of an assertion transaction

The tool that splits an assertion over transactions estimates their weights, from the numbers of
inputs and outputs and from the elements that every input has in its witness. Counts and lengths
are written as compact integers, which take one byte up to 252. The estimate reckons with that for
witnesses, and takes one byte for the number of inputs and for that of outputs.

The weight of a transaction is that of BIP 141: its encoding without witnesses counts three times,
the one with witnesses once.

## References

* `bin/assert-splitter/src/lib.rs`
-/

namespace StrataBridge

open Rust List

/-! ### The encodings of a transaction -/

def toLeBytes (n x : ℕ) : Bytes := (toBeBytes n x).reverse

/-- A byte string after its length. -/
def encodeBytes (bytes : Bytes) : Bytes := compactSize bytes.length ++ bytes

def TxIn.encode (txIn : TxIn) : Bytes :=
  txIn.previousOutput.txid.toBytes ++ toLeBytes 4 txIn.previousOutput.vout ++
    encodeBytes txIn.scriptSig ++ toLeBytes 4 txIn.sequence

def TxIn.encodeWitness (txIn : TxIn) : Bytes :=
  compactSize txIn.witness.length ++ txIn.witness.flatMap encodeBytes

def TxOut.encode (txOut : TxOut) : Bytes :=
  toLeBytes 8 txOut.value ++ encodeBytes txOut.scriptPubkey

namespace Transaction

variable (tx : Transaction)

def encodeBody : Bytes :=
  compactSize tx.input.length ++ tx.input.flatMap TxIn.encode ++ compactSize tx.output.length ++
    tx.output.flatMap TxOut.encode

def encodeBase : Bytes := toLeBytes 4 tx.version ++ tx.encodeBody ++ toLeBytes 4 tx.lockTime

/-- The encoding with marker, flag and witnesses, for transactions that have a witness. -/
def encode : Bytes :=
  if tx.input.all (·.witness = []) then tx.encodeBase
  else toLeBytes 4 tx.version ++ [0, 1] ++ tx.encodeBody ++ tx.input.flatMap TxIn.encodeWitness ++
    toLeBytes 4 tx.lockTime

def weight : ℕ := 3 * tx.encodeBase.length + tx.encode.length

end Transaction

/-! ### The estimate -/

/-- `VarInt::size`. -/
def varIntSize (n : ℕ) : ℕ :=
  if n < 0xFD then 1 else if n ≤ 0xFFFF then 3 else if n ≤ 0xFFFFFFFF then 5 else 9

/-- `TAPROOT_CONTROL_BASE_SIZE`. -/
def taprootControlBaseSize : ℕ := 33

/-- `get_total_size` (lines 268–313), with or without checks for overflow. There are only sums and
products, so with an input the last result says whether one before overflows. The panic's text is
that of a product. -/
def getTotalSize (overflowChecks : Bool) (witnesses : List Bytes) (numInputs numOutputs : ℕ) :
    MayPanic ℕ :=
  let baseSize := 4 + 1 + numInputs * (32 + 4 + 1 + 4) + 1 + numOutputs * (8 + 1 + 34) + 4
  let numWitnessElements := varIntSize (witnesses.length + 1)
  let witnessContributions := (witnesses.map fun w => w.length + varIntSize w.length).sum
  let weight := 4 * baseSize + 1 + 1 + numInputs * (numWitnessElements + witnessContributions +
    varIntSize taprootControlBaseSize + taprootControlBaseSize)
  if weight < 2 ^ 64 then .ok weight
  else if overflowChecks then .error "attempt to multiply with overflow"
  else .ok (weight % 2 ^ 64)

/-- A transaction as the estimate takes it: every input spends a single script with the same
elements, followed by the control block. -/
structure Transaction.SpendsScripts (tx : Transaction) (witnesses : List Bytes) : Prop where
  input : tx.input ≠ []
  scriptSig : ∀ txIn ∈ tx.input, txIn.scriptSig = []
  witness : ∀ txIn ∈ tx.input, ∃ controlBlock : Bytes,
    controlBlock.length = taprootControlBaseSize ∧ txIn.witness = witnesses ++ [controlBlock]
  output : ∀ txOut ∈ tx.output, txOut.scriptPubkey.length = 34

@[simp] theorem length_compactSize (n : ℕ) : (compactSize n).length = varIntSize n := by
  rw [compactSize, varIntSize]
  split_ifs <;> simp

theorem varIntSize_spec (n : ℕ) : 1 ≤ varIntSize n ∧ (varIntSize n = 1 ↔ n < 253) := by
  rw [varIntSize]
  split_ifs <;> omega

namespace Transaction.SpendsScripts

variable {tx : Transaction} {witnesses : List Bytes} (h : tx.SpendsScripts witnesses)

include h

theorem length_encodeBody : tx.encodeBody.length =
    varIntSize tx.input.length + tx.input.length * 41 +
      varIntSize tx.output.length + tx.output.length * 43 := by
  have hin : ∀ txIn ∈ tx.input, txIn.encode.length = 41 := fun txIn hmem => by
    simp [TxIn.encode, toLeBytes, encodeBytes, h.scriptSig txIn hmem, varIntSize]
  have hout : ∀ txOut ∈ tx.output, txOut.encode.length = 43 := fun txOut hmem => by
    simp [TxOut.encode, toLeBytes, encodeBytes, h.output txOut hmem, varIntSize]
  simp only [encodeBody, length_append, length_compactSize, length_flatMap_const hin,
    length_flatMap_const hout]

theorem length_encodeWitness {txIn : TxIn} (hmem : txIn ∈ tx.input) :
    txIn.encodeWitness.length = varIntSize (witnesses.length + 1) +
      (witnesses.map fun w => w.length + varIntSize w.length).sum +
      varIntSize taprootControlBaseSize + taprootControlBaseSize := by
  obtain ⟨controlBlock, hlen, hwitness⟩ := h.witness txIn hmem
  have helement (w : Bytes) : (encodeBytes w).length = w.length + varIntSize w.length := by
    rw [encodeBytes, length_append, length_compactSize, Nat.add_comm]
  rw [TxIn.encodeWitness, hwitness, length_append, length_compactSize, flatMap_append,
    length_append, length_append, length_singleton, flatMap_singleton, helement,
    length_flatMap, hlen]
  simp only [helement]
  omega

theorem weight_eq : tx.weight =
    4 * (8 + varIntSize tx.input.length + tx.input.length * 41 + varIntSize tx.output.length +
      tx.output.length * 43) + 2 + tx.input.length * (varIntSize (witnesses.length + 1) +
        (witnesses.map fun w => w.length + varIntSize w.length).sum +
        varIntSize taprootControlBaseSize + taprootControlBaseSize) := by
  have hsegwit : ¬tx.input.all (·.witness = []) = true := fun hall => by
    obtain ⟨txIn, hmem⟩ := exists_mem_of_ne_nil _ h.input
    obtain ⟨controlBlock, -, hwitness⟩ := h.witness txIn hmem
    simpa [hwitness] using all_eq_true.mp hall txIn hmem
  have hwitnesses := length_flatMap_const fun txIn hmem => h.length_encodeWitness hmem
  rw [weight, encode, if_neg hsegwit, encodeBase]
  simp only [length_append, hwitnesses, h.length_encodeBody, toLeBytes, length_reverse,
    length_toBeBytes, length_cons, length_nil]
  omega

end Transaction.SpendsScripts

/-- **When the estimate is the weight.** It is exactly if there are less than 253 inputs and less
than 253 outputs, and the weight fits in 64 bits. -/
theorem getTotalSize_eq_weight_iff {tx : Transaction} {witnesses : List Bytes}
    (h : tx.SpendsScripts witnesses) (overflowChecks : Bool) :
    getTotalSize overflowChecks witnesses tx.input.length tx.output.length = .ok tx.weight ↔
      tx.input.length < 253 ∧ tx.output.length < 253 ∧ tx.weight < 2 ^ 64 := by
  obtain ⟨hin, hin'⟩ := varIntSize_spec tx.input.length
  obtain ⟨hout, hout'⟩ := varIntSize_spec tx.output.length
  rw [← hin', ← hout', h.weight_eq, getTotalSize]
  generalize tx.input.length * (varIntSize (witnesses.length + 1) + _ + _ + _) = witness
  split_ifs with hfits
  · rw [Except.ok.injEq]
    omega
  · simp only [false_iff]
    omega
  · rw [Except.ok.injEq]
    omega

def sampleTx (numInputs numOutputs : ℕ) (witnesses : List Bytes) : Transaction where
  version := 2
  lockTime := 0
  input := .replicate numInputs ⟨⟨⟨0⟩, 0⟩, [], 0xFFFFFFFD, witnesses ++ [.replicate 33 0]⟩
  output := .replicate numOutputs ⟨1000, .replicate 34 0⟩

theorem spendsScripts_sampleTx (n numOutputs : ℕ) (witnesses : List Bytes) :
    (sampleTx (n + 1) numOutputs witnesses).SpendsScripts witnesses where
  input := by simp [sampleTx]
  scriptSig txIn hmem := by rw [eq_of_mem_replicate hmem]
  witness txIn hmem := ⟨.replicate 33 0, rfl, by rw [eq_of_mem_replicate hmem]⟩
  output txOut hmem := by rw [eq_of_mem_replicate hmem, length_replicate]

theorem getTotalSize_two_outputs :
    getTotalSize true [[1, 2], [3]] 1 2 = .ok (sampleTx 1 2 [[1, 2], [3]]).weight :=
  (getTotalSize_eq_weight_iff (spendsScripts_sampleTx 0 2 _) true).mpr (by decide +kernel)

/-- With 253 outputs, two bytes more are needed for their number. -/
theorem getTotalSize_many_outputs :
    (sampleTx 1 253 []).SpendsScripts [] ∧ getTotalSize true [] 1 253 = .ok 43757 ∧
      (sampleTx 1 253 []).weight = 43765 :=
  ⟨spendsScripts_sampleTx 0 253 [], by decide +kernel, by decide +kernel⟩

end StrataBridge
