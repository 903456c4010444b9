import StrataBridge.Rust.BTreeMap

/-!
# Transactions, identifiers and scripts

The part of the Bitcoin data model that the bridge reads: transaction identifiers with their
32 bytes, outpoints, inputs with witnesses, outputs with amounts in satoshi, and the first
instructions of a script. Keys, nonces and signatures of the curve are known to the bridge
through equality and, where they index a map, through an order; they are carried as codes.
-/

namespace StrataBridge

open Rust List

abbrev Bytes : Type := List UInt8

/-- The `n` big-endian bytes of a machine integer of `8 * n` bits. -/
def toBeBytes (n x : ℕ) : Bytes :=
  (range n).map fun i => UInt8.ofNat (x / 256 ^ (n - 1 - i))

@[simp] theorem length_toBeBytes (n x : ℕ) : (toBeBytes n x).length = n := by
  simp [toBeBytes]

theorem length_flatMap_const {α β : Type} {f : α → List β} {w : ℕ} {l : List α}
    (h : ∀ a ∈ l, (f a).length = w) : (l.flatMap f).length = l.length * w := by
  rw [length_flatMap, map_congr_left h, map_const', sum_replicate_nat]

/-- A transaction identifier: 32 bytes, compared as byte strings. -/
structure Txid where
  hash : BitVec 256
  deriving DecidableEq, Repr

namespace Txid

instance : Ord Txid := ⟨fun a b => compare a.hash b.hash⟩

instance : Std.TransOrd Txid := transOrd_of_code hash fun _ _ => rfl

instance : Std.LawfulEqOrd Txid :=
  lawfulEqOrd_of_code hash (fun a b h => by cases a; cases b; simp_all) fun _ _ => rfl

/-- The bytes of the identifier, as `consensus::encode::serialize` writes them. -/
def toBytes (t : Txid) : Bytes := toBeBytes 32 t.hash.toNat

end Txid

structure OutPoint where
  txid : Txid
  vout : ℕ
  deriving DecidableEq, Repr

abbrev ScriptBuf : Type := Bytes

structure TxIn where
  previousOutput : OutPoint
  scriptSig : ScriptBuf
  sequence : ℕ
  witness : List Bytes
  deriving DecidableEq, Repr

structure TxOut where
  value : ℕ
  scriptPubkey : ScriptBuf
  deriving DecidableEq, Repr

structure Transaction where
  version : ℕ
  lockTime : ℕ
  input : List TxIn
  output : List TxOut
  deriving DecidableEq, Repr

def Transaction.withoutWitness (tx : Transaction) : Transaction :=
  { tx with input := tx.input.map fun input => { input with witness := [] } }

namespace Transaction

variable {tx tx' : Transaction}

theorem output_eq_of_withoutWitness (h : tx.withoutWitness = tx'.withoutWitness) :
    tx.output = tx'.output := by
  have houtput : tx.withoutWitness.output = tx'.withoutWitness.output := by rw [h]
  exact houtput

theorem map_input_eq_of_withoutWitness {α : Type} {f : TxIn → α}
    (hf : ∀ input : TxIn, f { input with witness := [] } = f input)
    (h : tx.withoutWitness = tx'.withoutWitness) : tx.input.map f = tx'.input.map f := by
  have hmap (tx : Transaction) : tx.withoutWitness.input.map f = tx.input.map f := by
    rw [withoutWitness, map_map]
    exact map_congr_left fun input _ => hf input
  rw [← hmap tx, ← hmap tx', h]

end Transaction

inductive Network where
  | bitcoin
  | testnet
  | signet
  | regtest
  deriving DecidableEq, Repr

/-! ### Scripts -/

inductive Instruction where
  | pushBytes (bytes : Bytes)
  | op (opcode : UInt8)
  deriving DecidableEq, Repr

def opReturn : UInt8 := 0x6a

namespace Script

def takePush (n : ℕ) (rest : Bytes) : Option (Instruction × Bytes) :=
  if rest.length < n then none else some (.pushBytes (rest.take n), rest.drop n)

def takePushData (w : ℕ) (rest : Bytes) : Option (Instruction × Bytes) :=
  if rest.length < w then none
  else takePush ((rest.take w).foldr (fun b n => b.toNat + 256 * n) 0) (rest.drop w)

/-- The next instruction of a script and what follows it; `none` at the end of the script and
where it does not parse. -/
def next : ScriptBuf → Option (Instruction × Bytes)
  | [] => none
  | b :: rest =>
    if b.toNat ≤ 0x4b then takePush b.toNat rest
    else if b = 0x4c then takePushData 1 rest
    else if b = 0x4d then takePushData 2 rest
    else if b = 0x4e then takePushData 4 rest
    else some (.op b, rest)

end Script

/-! ### Keys, nonces and signatures -/

/-- A public key of an operator on the secp256k1 curve; keys index maps, in the order of
their codes. -/
structure PublicKey where
  code : ℕ
  deriving DecidableEq, Repr

namespace PublicKey

instance : Ord PublicKey := ⟨fun a b => compare a.code b.code⟩

instance : Std.TransOrd PublicKey := transOrd_of_code code fun _ _ => rfl

instance : Std.LawfulEqOrd PublicKey :=
  lawfulEqOrd_of_code code (fun a b h => by cases a; cases b; simp_all) fun _ _ => rfl

end PublicKey

structure XOnlyPublicKey where
  code : ℕ
  deriving DecidableEq, Repr

structure P2POperatorPubKey where
  code : ℕ
  deriving DecidableEq, Repr

namespace P2POperatorPubKey

instance : Ord P2POperatorPubKey := ⟨fun a b => compare a.code b.code⟩

instance : Std.TransOrd P2POperatorPubKey := transOrd_of_code code fun _ _ => rfl

instance : Std.LawfulEqOrd P2POperatorPubKey :=
  lawfulEqOrd_of_code code (fun a b h => by cases a; cases b; simp_all) fun _ _ => rfl

end P2POperatorPubKey

structure Message where
  code : ℕ
  deriving DecidableEq, Repr

structure TapSighashType where
  code : ℕ
  deriving DecidableEq, Repr

/-- `TapSighashType::Default`: all inputs and outputs. -/
def TapSighashType.default : TapSighashType := ⟨0⟩

structure TaprootSignature where
  signature : ℕ
  sighashType : TapSighashType
  deriving DecidableEq, Repr

structure PubNonce where
  code : ℕ
  deriving DecidableEq, Repr

structure PartialSignature where
  code : ℕ
  deriving DecidableEq, Repr

end StrataBridge
