import StrataBridge.Bitcoin.Transaction

/-!
# One-time keys and signatures of an operator

The Winternitz one-time keys that an operator publishes for a deposit: one for the withdrawal
fulfillment, and those of the Groth16 assertions. On the wire the Groth16 keys come in vectors
of any length; the conversion to the sized form of the bridge checks the three lengths.

## References

* `crates/primitives/src/wots.rs`
-/

namespace StrataBridge

/-- `NUM_PUBS`, `NUM_U256` and `NUM_HASH` of the Groth16 verifier (lines 51–55). -/
def numPubs : ℕ := 1

def numU256 : ℕ := 14

def numHash : ℕ := 363

theorem numPubs_pos : 0 < numPubs := Nat.zero_lt_one

structure Wots256PublicKey where
  code : ℕ
  deriving DecidableEq, Repr

structure Wots128PublicKey where
  code : ℕ
  deriving DecidableEq, Repr

structure Groth16WireKeys where
  publicInputs : List Wots256PublicKey
  fqs : List Wots256PublicKey
  hashes : List Wots128PublicKey
  deriving DecidableEq, Repr

structure WotsPublicKeys where
  withdrawalFulfillment : Wots256PublicKey
  groth16 : Groth16WireKeys
  deriving DecidableEq, Repr

namespace Wots

structure Groth16PublicKeys where
  publicInputs : Vector Wots256PublicKey numPubs
  fqs : Vector Wots256PublicKey numU256
  hashes : Vector Wots128PublicKey numHash
  deriving DecidableEq

structure PublicKeys where
  withdrawalFulfillment : Wots256PublicKey
  groth16 : Groth16PublicKeys
  deriving DecidableEq

def sized {T : Type} (n : ℕ) (l : List T) : Option (Vector T n) :=
  if h : l.length = n then some ⟨l.toArray, by simp [h]⟩ else none

/-- Which of the three lengths a conversion rejects, with the length it found (lines 196–226). -/
inductive KeysErr where
  | publicInputs (len : ℕ)
  | fqs (len : ℕ)
  | hashes (len : ℕ)
  deriving DecidableEq, Repr

/-- `Groth16PublicKeys::try_from` (lines 192–231). -/
def Groth16PublicKeys.tryFrom (keys : Groth16WireKeys) : Except KeysErr Groth16PublicKeys :=
  match sized numPubs keys.publicInputs, sized numU256 keys.fqs, sized numHash keys.hashes with
  | none, _, _ => .error (.publicInputs keys.publicInputs.length)
  | some _, none, _ => .error (.fqs keys.fqs.length)
  | some _, some _, none => .error (.hashes keys.hashes.length)
  | some publicInputs, some fqs, some hashes => .ok { publicInputs, fqs, hashes }

/-- `PublicKeys::try_from` (lines 634–657). -/
def PublicKeys.tryFrom (keys : WotsPublicKeys) : Except KeysErr PublicKeys :=
  (Groth16PublicKeys.tryFrom keys.groth16).map fun groth16 =>
    { withdrawalFulfillment := keys.withdrawalFulfillment, groth16 }

theorem PublicKeys.tryFrom_withdrawalFulfillment {keys : WotsPublicKeys} {keys' : PublicKeys}
    (h : PublicKeys.tryFrom keys = .ok keys') :
    keys'.withdrawalFulfillment = keys.withdrawalFulfillment := by
  rw [PublicKeys.tryFrom] at h
  cases hg : Groth16PublicKeys.tryFrom keys.groth16 with
  | error e => simp [hg, Except.map] at h
  | ok groth16 =>
    simp only [hg, Except.map, Except.ok.injEq] at h
    rw [← h]

/-- A signature on 256 bits: the preimages and digits of its 68 hash chains. -/
structure Wots256Sig where
  chains : List Bytes
  deriving DecidableEq, Repr

structure Wots128Sig where
  chains : List Bytes
  deriving DecidableEq, Repr

/-- The signatures on a Groth16 assertion (line 522). -/
structure Groth16Sigs where
  publicParams : Vector Wots256Sig numPubs
  fieldElems : Vector Wots256Sig numU256
  hashes : Vector Wots128Sig numHash
  deriving DecidableEq

/-- All signatures on the assertions of an operator (lines 670–676). -/
structure Signatures where
  withdrawalFulfillment : Wots256Sig
  groth16 : Groth16Sigs
  deriving DecidableEq

/-- The 32-byte and 16-byte values that an operator commits to (lines 695–701). -/
structure Assertions where
  withdrawalFulfillment : BitVec 256
  publicParams : Vector (BitVec 256) numPubs
  fieldElems : Vector (BitVec 256) numU256
  hashes : Vector (BitVec 128) numHash
  deriving DecidableEq

end Wots

end StrataBridge
