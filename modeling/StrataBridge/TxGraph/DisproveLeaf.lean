import Mathlib.Data.Vector.Defs
import StrataBridge.Primitives.Wots
import StrataBridge.Script.Limbs

/-!
# The leaf that disproves a commitment to public inputs

An operator commits to the withdrawal fulfillment in the claim, and to the hash of the public
inputs of its proof in the assertion. The public inputs are the deposit and the withdrawal
fulfillment, so that everyone can hash them and compare. The leaf script of `ConnectorA3` does it:
it reads both commitments, computes the hash with BLAKE3, clears bits of its first byte, and
succeeds where the result differs from the committed hash.

The script consists of opcodes and of pieces of the bitvm library. The pieces are known through
what they do to the machine.

## Main definitions

* `Bitvm.Correct`: what the pieces do
* `ConnectorA3Leaf.disprovePublicInputsCommitment`: the script

## Main results

* `ConnectorA3Leaf.run_disprovePublicInputsCommitment`: when it succeeds

## References

* `crates/connectors/src/connector_a3.rs`, lines 106–258,
  `crates/primitives/src/scripts/transform.rs`, lines 83–95
-/

namespace StrataBridge

open Script
open List hiding Vector

variable {bs : Bytes} {xs : List Bytes}

/-! ### Pieces of the script -/

inductive Instr where
  | op (op : Op)
  | nmul (n : ℕ)
  | compactChecksigVerify (publicKey : Wots256PublicKey)
  | transformLimbsize (source target : ℕ)
  | blake3ComputeScript (len : ℕ)

/-- What the script takes from bitvm: the pieces as steps of the machine, the items of a signature
in a witness, which signatures are valid, and the hash function. -/
structure Bitvm where
  /-- `NMUL`. -/
  nmul : ℕ → Machine → Option Machine
  /-- `Wots32::compact_checksig_verify`. -/
  compactChecksigVerify : Wots256PublicKey → Machine → Option Machine
  /-- `U256::transform_limbsize`. -/
  transformLimbsize : ℕ → ℕ → Machine → Option Machine
  /-- `blake3_compute_script`. -/
  blake3ComputeScript : ℕ → Machine → Option Machine
  /-- `compact_signature_to_raw_witness` of `signature_to_compact_signature`, the top first. -/
  rawWitness : Wots.Wots256Sig → List Bytes
  /-- The signature of a key on a message is valid. -/
  Signs : Wots256PublicKey → Bytes → Wots.Wots256Sig → Prop
  /-- BLAKE3. -/
  blake3 : Bytes → Vector UInt8 32

def limbCount (w : ℕ) : ℕ := (256 + w - 1) / w

/-- The words of four bytes in reverse order, as a piece of bitvm takes them. -/
def swapWords : Bytes → Bytes
  | a :: b :: c :: d :: bs => swapWords bs ++ [a, b, c, d]
  | _ => []

def blockLimbs (half : Bytes) : List ℕ :=
  limbs 29 (limbCount 29) (limbValue 8 ((swapWords half).map UInt8.toNat))

/-- What is assumed of the pieces.

* `NMUL` multiplies the top.
* Checking a valid signature leaves the nibbles of the message, the first one on top.
* A transformation of limbs keeps the number, whose most significant limb is on top.
* The hash of a block of 64 bytes takes its two halves in limbs of 29 bits, the second half on top,
  where nothing else is on the stack, and leaves nibbles, those of the last byte on top. -/
structure Bitvm.Correct (bitvm : Bitvm) : Prop where
  nmul : ∀ (n x : ℕ) (st alt : List Bytes), n * x < 2 ^ 31 →
    bitvm.nmul n (.top (scriptInt x :: st) alt) = some (.top (scriptInt (n * x : ℕ) :: st) alt)
  compactChecksigVerify : ∀ (key : Wots256PublicKey) (message : Bytes) (sig : Wots.Wots256Sig)
    (st alt : List Bytes), message.length = 32 → bitvm.Signs key message sig →
    bitvm.compactChecksigVerify key (.top (bitvm.rawWitness sig ++ st) alt) =
      some (.top (nums (nibbles message) ++ st) alt)
  transformLimbsize : ∀ (source target : ℕ) (ds : List ℕ) (st alt : List Bytes),
    0 < source → source < 31 → 0 < target → target < 31 → ds.length = limbCount source →
    (∀ d ∈ ds, d < 2 ^ source) → limbValue source ds < 2 ^ 256 →
    bitvm.transformLimbsize source target (.top (nums ds ++ st) alt) =
      some (.top (nums (limbs target (limbCount target) (limbValue source ds)) ++ st) alt)
  blake3ComputeScript : ∀ (first second : Bytes) (alt : List Bytes),
    first.length = 32 → second.length = 32 →
    bitvm.blake3ComputeScript 64 (.top (nums (blockLimbs second) ++ nums (blockLimbs first)) alt) =
      some (.top (nums (nibbles (bitvm.blake3 (first ++ second)).toList.reverse)) alt)

def Bitvm.exec (bitvm : Bitvm) (ctx : Spending) : Instr → Machine → Option Machine
  | .op op => op.exec ctx
  | .nmul n => bitvm.nmul n
  | .compactChecksigVerify publicKey => bitvm.compactChecksigVerify publicKey
  | .transformLimbsize source target => bitvm.transformLimbsize source target
  | .blake3ComputeScript len => bitvm.blake3ComputeScript len

/-! ### The script -/

/-- One round of `hash_to_bn254_fq`: subtract where the top is greater. -/
def subtractIfGreater (n : ℕ) : List Op :=
  [.int n, .twoDup, .greaterThan, .ifTrue, .sub, .otherwise, .drop, .endIf]

/-- `hash_to_bn254_fq` (`transform.rs`, lines 84–95). -/
def hashToBn254Fq : List Op := (range' 1 3).flatMap fun i => subtractIfGreater (2 ^ (8 - i))

namespace ConnectorA3Leaf

def ops (script : List Op) : List Instr := script.map .op

/-- Two nibbles to a byte on the alternative stack (`connector_a3.rs`, line 124). -/
def byteToAlt : List Instr := [.nmul (1 <<< 4), .op .add, .op .toAltStack]

/-- Read both commitments (`connector_a3.rs`, lines 107–141): the nibbles of the withdrawal
fulfillment on the stack, and the bytes of the hash on the alternative stack. -/
def readCommitments (withdrawalFulfillment publicInputsHash : Wots256PublicKey) : List Instr :=
  [.compactChecksigVerify withdrawalFulfillment] ++ ops (.replicate 64 .toAltStack) ++
  [.compactChecksigVerify publicInputsHash] ++ (replicate 32 byteToAlt).flatten ++
  ops (.replicate 32 .fromAltStack) ++ ops (.replicate 64 .fromAltStack) ++
  ops (replicate 32 (rollToAlt 64)).flatten

/-- A word of eight nibbles from the alternative stack (`connector_a3.rs`, lines 163–174). -/
def wordFromAlt : List Op :=
  .replicate 8 .fromAltStack ++ unstack 7 ++ .replicate 7 .fromAltStack

/-- Hash the public inputs (`connector_a3.rs`, lines 143–198). -/
def hashPublicInputs (depositTxid : Txid) : List Instr :=
  ops (depositTxid.toBytes.reverse.map fun b => .int b.toNat) ++ [.transformLimbsize 8 4] ++
  ops (unstack 127 ++ [.toAltStack]) ++ ops (replicate 16 wordFromAlt).flatten ++
  [.transformLimbsize 4 29] ++ ops (.replicate 9 .toAltStack) ++
  [.transformLimbsize 4 29] ++ ops (.replicate 9 .fromAltStack) ++
  [.blake3ComputeScript (2 * 32)] ++ [.transformLimbsize 4 8] ++
  ops (unstack 31 ++ .replicate 31 .fromAltStack)

/-- The loop over `n, …, 1` that compares all bytes but the last. -/
def compareBytes (n : ℕ) : List Op :=
  (range' 1 n).reverse.flatMap fun i => [.int (i + 1 : ℕ), .roll, .equal, .toAltStack]

/-- Compare the hash with the committed one (`connector_a3.rs`, lines 200–220). -/
def compareHashes : List Op :=
  hashToBn254Fq ++ .replicate 32 .fromAltStack ++ compareBytes 31 ++ [.equal] ++
  (replicate 31 [.fromAltStack, .boolAnd]).flatten ++ [.not]

/-- The script of `ConnectorA3Leaf::DisprovePublicInputsCommitment` (`connector_a3.rs`,
lines 106–223). -/
def disprovePublicInputsCommitment (wotsPublicKeys : Wots.PublicKeys) (depositTxid : Txid) :
    List Instr :=
  readCommitments wotsPublicKeys.withdrawalFulfillment
      (wotsPublicKeys.groth16.publicInputs.get ⟨0, by decide⟩) ++
    hashPublicInputs depositTxid ++ ops compareHashes

/-- The witness (`connector_a3.rs`, lines 231–245): the signature on the withdrawal fulfillment is
pushed last and so is on top. -/
def generateWitnessScript (bitvm : Bitvm)
    (sigWithdrawalFulfillmentTxid sigPublicInputsHash : Wots.Wots256Sig) : List Bytes :=
  bitvm.rawWitness sigWithdrawalFulfillmentTxid ++ bitvm.rawWitness sigPublicInputsHash

/-! ### Words -/

theorem words_induction {motive : (bs : Bytes) → 4 ∣ bs.length → Prop}
    (nil : motive [] (dvd_zero 4))
    (word : ∀ a b c d bs (h : 4 ∣ bs.length), motive bs h →
      motive (a :: b :: c :: d :: bs) ((Nat.dvd_add_left (dvd_refl 4)).mpr h))
    (bs : Bytes) (h : 4 ∣ bs.length) : motive bs h := by
  induction bs using swapWords.induct with
  | case1 a b c d bs ih =>
    have h' : 4 ∣ bs.length := (Nat.dvd_add_left (dvd_refl 4)).mp h
    exact word a b c d bs h' (ih h')
  | case2 bs hshort =>
    match bs, hshort, h with
    | [], _, _ => exact nil
    | [a], _, h => simp at h
    | [a, b], _, h => simp at h
    | [a, b, c], _, h => simp at h
    | a :: b :: c :: d :: bs, hshort, _ => exact absurd rfl (hshort a b c d bs)

theorem swapWords_append (h : 4 ∣ bs.length) (cs : Bytes) :
    swapWords (bs ++ cs) = swapWords cs ++ swapWords bs := by
  induction bs, h using words_induction with
  | nil => simp [swapWords]
  | word a b c d bs _ ih =>
    rw [cons_append, cons_append, cons_append, cons_append, swapWords, ih, swapWords, append_assoc]

theorem length_swapWords (h : 4 ∣ bs.length) : (swapWords bs).length = bs.length := by
  induction bs, h using words_induction with
  | nil => rfl
  | word a b c d bs _ ih =>
    rw [swapWords, length_append, ih]
    rfl

/-! ### Runs of the opcodes -/

section Opcodes

variable (ctx : Spending)

theorem run_wordFromAlt (h : xs.length = 8) (st alt : List Bytes) :
    run (Op.exec ctx) wordFromAlt (.top st (xs ++ alt)) = some (.top (xs ++ st) alt) := by
  obtain ⟨ys, y, rfl⟩ := eq_nil_or_concat' xs |>.resolve_left (by rintro rfl; cases h)
  have hys : ys.reverse.length = 7 := by simpa using h
  have hfrom := run_fromAltStack ctx h st alt
  rw [reverse_append, reverse_singleton, singleton_append, cons_append] at hfrom
  rw [wordFromAlt, append_assoc, run_append_of hfrom, run_reverse ctx hys (by decide),
    reverse_reverse, append_assoc, singleton_append]

theorem run_words (bs : Bytes) (st alt : List Bytes) (h : 4 ∣ bs.length) :
    run (Op.exec ctx) (replicate (bs.length / 4) wordFromAlt).flatten
        (.top st (nums (nibbles bs) ++ alt)) =
      some (.top (nums (nibbles (swapWords bs)) ++ st) alt) := by
  induction bs, h using words_induction generalizing st with
  | nil => rfl
  | word a b c d bs _ ih =>
    have hword : nibbles (a :: b :: c :: d :: bs) = nibbles [a, b, c, d] ++ nibbles bs := rfl
    have hlen : (a :: b :: c :: d :: bs).length = bs.length + 4 := rfl
    rw [hlen, Nat.add_div_right _ (by decide), replicate_succ, flatten_cons, hword,
      nums_append, append_assoc, run_append_of (run_wordFromAlt ctx (by simp) st _), ih,
      swapWords, nibbles_append, nums_append, append_assoc]

/-- One round of clearing bits. The comparison is strict. -/
theorem run_subtractIfGreater {n v : ℕ} (hn : n < 2 ^ 31) (hv : v < 2 ^ 31) (st alt : List Bytes) :
    run (Op.exec ctx) (subtractIfGreater n) (.top (scriptInt v :: st) alt) =
      some (.top (scriptInt (if n < v then v - n else v : ℕ) :: st) alt) := by
  by_cases h : n < v
  · have hsub : (v : ℤ) - n = (v - n : ℕ) := by omega
    simp [subtractIfGreater, Op.int, Op.exec, Op.execActive, Op.binary, readScriptInt_four hn,
      readScriptInt_four hv, h, ofBool, Op.condition, hsub]
  · simp [subtractIfGreater, Op.int, Op.exec, Op.execActive, Op.binary, readScriptInt_four hn,
      readScriptInt_four hv, h, ofBool, Op.condition]

/-- What the opcodes of `hash_to_bn254_fq` make of a byte. -/
def clearedByScript (v : ℕ) : ℕ := if v ≠ 0 ∧ v % 32 = 0 then 32 else v % 32

theorem run_hashToBn254Fq {v : ℕ} (hv : v < 2 ^ 8) (st alt : List Bytes) :
    run (Op.exec ctx) hashToBn254Fq (.top (scriptInt v :: st) alt) =
      some (.top (scriptInt (clearedByScript v) :: st) alt) := by
  have hscript : hashToBn254Fq = subtractIfGreater 128 ++ subtractIfGreater 64 ++
    subtractIfGreater 32 := rfl
  have h1 : (if 128 < v then v - 128 else v) ≤ 128 := by split_ifs <;> omega
  generalize hv1 : (if 128 < v then v - 128 else v) = v1 at h1
  have h2 : (if 64 < v1 then v1 - 64 else v1) ≤ 64 := by split_ifs <;> omega
  generalize hv2 : (if 64 < v1 then v1 - 64 else v1) = v2 at h2
  have hcleared : (if 32 < v2 then v2 - 32 else v2) = clearedByScript v := by
    rw [clearedByScript]
    split_ifs at hv1 hv2 ⊢ <;> omega
  rw [hscript, append_assoc,
    run_append_of (run_subtractIfGreater ctx (by decide) (hv.trans (by decide)) st alt), hv1,
    run_append_of (run_subtractIfGreater ctx (by decide) (h1.trans_lt (by decide)) st alt), hv2,
    run_subtractIfGreater ctx (by decide) (h2.trans_lt (by decide)) st alt, hcleared]

theorem compareBytes_succ (n : ℕ) :
    compareBytes (n + 1) = [.int (n + 2 : ℕ), .roll, .equal, .toAltStack] ++ compareBytes n := by
  rw [compareBytes, range'_1_concat, reverse_append, reverse_singleton,
    singleton_append, flatMap_cons, Nat.add_comm 1 n, compareBytes]

/-- Two strings of items are compared item by item, from the top on; the last two items stay. -/
theorem run_compareBytes (c x : Bytes) (cs xs alt : List Bytes) (hlen : cs.length = xs.length)
    (hlt : cs.length < 2 ^ 30) :
    run (Op.exec ctx) (compareBytes cs.length) (.top (cs ++ c :: (xs ++ [x])) alt) =
      some (.top [c, x] ((zipWith (fun c x => ofBool (c = x)) cs xs).reverse ++ alt)) := by
  induction cs generalizing xs alt with
  | nil =>
    obtain rfl := length_eq_zero_iff.mp hlen.symm
    rfl
  | cons d cs ih =>
    obtain _ | ⟨y, xs⟩ := xs
    · cases hlen
    have hlen' : cs.length = xs.length := Nat.succ.inj hlen
    have hdepth : cs.length + 2 < 2 ^ 31 := by
      rw [length_cons] at hlt
      omega
    have habove : (d :: (cs ++ [c])).length = cs.length + 2 := by simp
    have hroll := exec_roll ctx hdepth habove y (xs ++ [x]) alt
    have hround : run (Op.exec ctx) [.int (cs.length + 2 : ℕ), .roll, .equal, .toAltStack]
        (.top (d :: cs ++ c :: (y :: xs ++ [x])) alt) =
          some (.top (cs ++ c :: (xs ++ [x])) (ofBool (d = y) :: alt)) := by
      simp only [cons_append, append_assoc, nil_append] at hroll ⊢
      rw [run_cons, exec_int, Option.bind_some, run_cons, hroll]
      rfl
    rw [length_cons, compareBytes_succ, run_append_of hround,
      ih xs _ hlen' ((Nat.lt_succ_self _).trans hlt), zipWith_cons_cons, reverse_cons,
      append_assoc, singleton_append]

theorem run_boolAnd (b : Bool) (bs : List Bool) (st alt : List Bytes) :
    run (Op.exec ctx) (replicate bs.length [.fromAltStack, .boolAnd]).flatten
        (.top (ofBool b :: st) (bs.map ofBool ++ alt)) =
      some (.top (ofBool (b && bs.all id) :: st) alt) := by
  induction bs generalizing b with
  | nil => simp
  | cons c bs ih =>
    have hround : run (Op.exec ctx) [.fromAltStack, .boolAnd]
        (.top (ofBool b :: st) (ofBool c :: (bs.map ofBool ++ alt))) =
          some (.top (ofBool (b && c) :: st) (bs.map ofBool ++ alt)) := by
      cases b <;> cases c <;> rfl
    have hmap : (c :: bs).map ofBool ++ alt = ofBool c :: (bs.map ofBool ++ alt) := rfl
    rw [length_cons, replicate_succ, flatten_cons, hmap, run_append_of hround, ih,
      all_cons, id, Bool.and_assoc]

private theorem all_zipWith_eq {α : Type} [DecidableEq α] (cs xs : List α)
    (hlen : cs.length = xs.length) :
    (zipWith (fun c x => decide (c = x)) cs xs).all id = decide (cs = xs) := by
  induction cs generalizing xs with
  | nil =>
    obtain rfl := length_eq_zero_iff.mp hlen.symm
    rfl
  | cons c cs ih =>
    obtain _ | ⟨x, xs⟩ := xs
    · cases hlen
    · rw [zipWith_cons_cons, all_cons, ih xs (Nat.succ.inj hlen)]
      simp

theorem run_compare (cs xs : List Bytes) (n : ℕ) (hcs : cs.length = n + 1)
    (hxs : xs.length = n + 1) (hlt : n < 2 ^ 30) :
    run (Op.exec ctx) (compareBytes n ++ [.equal] ++
        (replicate n [.fromAltStack, .boolAnd]).flatten ++ [.not]) (.top (cs ++ xs) []) =
      some (.top [ofBool (cs ≠ xs)] []) := by
  obtain ⟨cs, c, rfl⟩ := eq_nil_or_concat' cs |>.resolve_left (by rintro rfl; cases hcs)
  obtain ⟨xs, x, rfl⟩ := eq_nil_or_concat' xs |>.resolve_left (by rintro rfl; cases hxs)
  have hcs : cs.length = n := by simpa using hcs
  have hlen : cs.length = xs.length := by simpa [hcs] using hxs.symm
  have hbytes := run_compareBytes ctx c x cs xs [] hlen (hcs ▸ hlt)
  -- the results of the comparisons, as truth values
  have hzip : (zipWith (fun c x => ofBool (c = x)) cs xs).reverse =
      (zipWith (fun c x => decide (c = x)) cs xs).reverse.map ofBool := by
    rw [map_reverse, map_zipWith]
  have hequal : run (Op.exec ctx) [.equal] (.top [c, x]
      ((zipWith (fun c x => decide (c = x)) cs xs).reverse.map ofBool ++ [])) =
        some (.top [ofBool (x = c)]
          ((zipWith (fun c x => decide (c = x)) cs xs).reverse.map ofBool ++ [])) := rfl
  have hand := run_boolAnd ctx (x = c) (zipWith (fun c x => decide (c = x)) cs xs).reverse [] []
  rw [length_reverse, length_zipWith, ← hlen, min_self, hcs, all_reverse,
    all_zipWith_eq cs xs hlen] at hand
  rw [hcs, hzip] at hbytes
  have hstack : cs ++ [c] ++ (xs ++ [x]) = cs ++ c :: (xs ++ [x]) := by simp
  have hnot : ∀ b, run (Op.exec ctx) [.not] (.top [ofBool b] []) =
      some (.top [ofBool (!b)] []) := by
    intro b
    cases b <;> rfl
  have hdiffer : (!(decide (x = c) && decide (cs = xs))) = decide (cs ++ [c] ≠ xs ++ [x]) := by
    rw [← Bool.decide_and, ← decide_not, decide_eq_decide, ne_eq, append_singleton_inj,
      and_comm, eq_comm (a := c)]
  rw [append_assoc, append_assoc, hstack, run_append_of hbytes, run_append_of hequal,
    run_append_of hand, hnot, hdiffer]

/-- **The comparison** leaves whether the committed hash differs from the computed one, whose
first byte goes through the opcodes of `hash_to_bn254_fq`. -/
theorem run_compareHashes {x : UInt8} {xs cs : Bytes} (hxs : xs.length = 31)
    (hcs : cs.length = 32) :
    run (Op.exec ctx) compareHashes
        (.top (nums ((x :: xs).map UInt8.toNat)) (nums (cs.map UInt8.toNat)).reverse) =
      some (.top [ofBool (cs.map UInt8.toNat ≠ clearedByScript x.toNat :: xs.map UInt8.toNat)]
        []) := by
  have hclear := run_hashToBn254Fq ctx x.toNat_lt (nums (xs.map UInt8.toNat))
    (nums (cs.map UInt8.toNat)).reverse
  have hlen : (nums (cs.map UInt8.toNat)).reverse.length = 32 := by simp [hcs]
  have hback := run_fromAltStack ctx hlen (nums (clearedByScript x.toNat :: xs.map UInt8.toNat)) []
  rw [reverse_reverse, append_nil] at hback
  have hcompare := run_compare ctx (nums (cs.map UInt8.toNat))
    (nums (clearedByScript x.toNat :: xs.map UInt8.toNat)) 31 (by simp [hcs]) (by simp [hxs])
    (by decide)
  have hbytes : ∀ bs : Bytes, ∀ d ∈ bs.map UInt8.toNat, d < 2 ^ 31 := fun bs d hd =>
    (forall_mem_map_toNat bs d hd).trans (by decide)
  have hcleared : clearedByScript x.toNat < 2 ^ 31 := by
    rw [clearedByScript]
    split_ifs <;> omega
  rw [decide_eq_decide.mpr (not_congr (nums_inj (hbytes cs)
    (forall_mem_cons.mpr ⟨hcleared, hbytes xs⟩)))] at hcompare
  have hscript : compareHashes = hashToBn254Fq ++ (.replicate 32 .fromAltStack ++
      (compareBytes 31 ++ [.equal] ++ (replicate 31 [.fromAltStack, .boolAnd]).flatten ++
        [.not])) := by
    simp [compareHashes]
  rw [hscript, map_cons, nums_cons, run_append_of hclear, ← nums_cons, run_append_of hback,
    hcompare]

theorem run_pushBytes (bs : Bytes) (st alt : List Bytes) :
    run (Op.exec ctx) (bs.reverse.map fun b => .int b.toNat) (.top st alt) =
      some (.top (nums (bs.map UInt8.toNat) ++ st) alt) := by
  have hints := run_ints ctx (bs.reverse.map fun b => (b.toNat : ℤ)) st alt
  rw [map_map, map_map, ← map_reverse, reverse_reverse] at hints
  rw [nums, map_map]
  exact hints

theorem run_unstackAll {n : ℕ} (hn : xs.length = n + 1) (hlt : n < 2 ^ 31) (alt : List Bytes) :
    run (Op.exec ctx) (unstack n ++ [.toAltStack]) (.top xs alt) = some (.top [] (xs ++ alt)) := by
  obtain _ | ⟨x, xs⟩ := xs
  · cases hn
  have hunstack := run_unstack ctx (Nat.succ.inj hn) hlt x [] alt
  rw [append_nil] at hunstack
  rw [run_append_of hunstack]
  rfl

theorem run_reverseAll {n : ℕ} (hn : xs.length = n + 1) (hlt : n < 2 ^ 31) (alt : List Bytes) :
    run (Op.exec ctx) (unstack n ++ .replicate n .fromAltStack) (.top xs alt) =
      some (.top xs.reverse alt) := by
  obtain _ | ⟨x, xs⟩ := xs
  · cases hn
  have hreverse := run_reverse ctx (Nat.succ.inj hn) hlt x [] alt
  rwa [append_nil, ← reverse_cons] at hreverse

end Opcodes

/-! ### Runs of the pieces -/

section Pieces

variable {bitvm : Bitvm} (hbitvm : bitvm.Correct) (ctx : Spending)

omit hbitvm in
theorem run_ops (script : List Op) (m : Machine) :
    run (bitvm.exec ctx) (ops script) m = run (Op.exec ctx) script m :=
  run_map (fun _ _ => rfl) script m

omit hbitvm in
theorem run_ops_append_of {script : List Op} {p : List Instr} {m m' : Machine}
    (h : run (Op.exec ctx) script m = some m') :
    run (bitvm.exec ctx) (ops script ++ p) m = run (bitvm.exec ctx) p m' :=
  run_append_of ((run_ops ctx script m).trans h)

include hbitvm

theorem run_bytesToAlt (bs : Bytes) (st alt : List Bytes) :
    run (bitvm.exec ctx) (replicate bs.length byteToAlt).flatten
        (.top (nums (nibbles bs) ++ st) alt) =
      some (.top st ((nums (bs.map UInt8.toNat)).reverse ++ alt)) := by
  induction bs generalizing alt with
  | nil => rfl
  | cons b bs ih =>
    have hb := b.toNat_lt
    have hmul := hbitvm.nmul 16 (b.toNat / 16)
      (scriptInt (b.toNat % 16 : ℕ) :: (nums (nibbles bs) ++ st)) alt (by omega)
    have hsum : ((b.toNat % 16 : ℕ) : ℤ) + (16 * (b.toNat / 16) : ℕ) = (b.toNat : ℕ) := by omega
    have hadd : Op.exec ctx .add (.top (scriptInt (16 * (b.toNat / 16) : ℕ) ::
        scriptInt (b.toNat % 16 : ℕ) :: (nums (nibbles bs) ++ st)) alt) =
          some (.top (scriptInt b.toNat :: (nums (nibbles bs) ++ st)) alt) := by
      simp only [Op.exec, all_nil, if_true, Op.execActive, Op.binary,
        readScriptInt_four (show b.toNat % 16 < 2 ^ 31 by omega),
        readScriptInt_four (show 16 * (b.toNat / 16) < 2 ^ 31 by omega), hsum, Option.map_some]
    have hround : run (bitvm.exec ctx) byteToAlt
        (.top (nums (nibbles (b :: bs)) ++ st) alt) =
          some (.top (nums (nibbles bs) ++ st) (scriptInt b.toNat :: alt)) := by
      change (bitvm.nmul 16 _).bind _ = _
      rw [nibbles_cons, nums_cons, nums_cons, cons_append, cons_append, hmul,
        Option.bind_some, run_cons, Bitvm.exec, hadd]
      rfl
    rw [length_cons, replicate_succ, flatten_cons, run_append_of hround, ih,
      map_cons, nums_cons, reverse_cons, append_assoc, singleton_append]

/-- **Reading the commitments** leaves the withdrawal fulfillment on the stack, and the hash on the
alternative stack. -/
theorem run_readCommitments {keyW keyH : Wots256PublicKey} {sigW sigH : Wots.Wots256Sig}
    {w h : Bytes} (hw : w.length = 32) (hh : h.length = 32) (hsigW : bitvm.Signs keyW w sigW)
    (hsigH : bitvm.Signs keyH h sigH) :
    run (bitvm.exec ctx) (readCommitments keyW keyH)
        (.top (generateWitnessScript bitvm sigW sigH) []) =
      some (.top (nums (nibbles w)) (nums (h.map UInt8.toNat)).reverse) := by
  have hnibs : (nums (nibbles w)).length = 64 := by simp [hw]
  have hbytes : (nums (h.map UInt8.toNat)).length = 32 := by simp [hh]
  have hcheckW : run (bitvm.exec ctx) [.compactChecksigVerify keyW]
      (.top (generateWitnessScript bitvm sigW sigH) []) =
        some (.top (nums (nibbles w) ++ bitvm.rawWitness sigH) []) := by
    rw [run_cons, Bitvm.exec, generateWitnessScript,
      hbitvm.compactChecksigVerify keyW w sigW _ _ hw hsigW]
    rfl
  have hcheckH : run (bitvm.exec ctx) [.compactChecksigVerify keyH]
      (.top (bitvm.rawWitness sigH) ((nums (nibbles w)).reverse ++ [])) =
        some (.top (nums (nibbles h) ++ []) ((nums (nibbles w)).reverse ++ [])) := by
    have hcheck := hbitvm.compactChecksigVerify keyH h sigH [] ((nums (nibbles w)).reverse ++ []) hh
      hsigH
    rw [append_nil] at hcheck
    rw [run_cons, Bitvm.exec, hcheck]
    rfl
  have hhash := run_bytesToAlt hbitvm ctx h [] ((nums (nibbles w)).reverse ++ [])
  rw [hh] at hhash
  have hback := run_fromAltStack ctx ((length_reverse).trans hbytes) []
    ((nums (nibbles w)).reverse ++ [])
  have hback' := run_fromAltStack ctx ((length_reverse).trans hnibs)
    (nums (h.map UInt8.toNat) ++ []) []
  have hroll := run_rollToAlt ctx hnibs hbytes (by decide) [] []
  rw [reverse_reverse] at hback hback'
  simp only [readCommitments, append_assoc]
  rw [run_append_of hcheckW, run_ops_append_of ctx (run_toAltStack ctx hnibs _ _),
    run_append_of hcheckH, run_append_of hhash, run_ops_append_of ctx hback,
    run_ops_append_of ctx hback', run_ops, hroll, append_nil, append_nil]

theorem exec_transformLimbsize {source target : ℕ} {ds : List ℕ} (hsource : 0 < source)
    (hsource' : source < 31) (htarget : 0 < target) (htarget' : target < 31)
    (hlen : ds.length = limbCount source) (hds : ∀ d ∈ ds, d < 2 ^ source)
    (hvalue : limbValue source ds < 2 ^ 256) (st alt : List Bytes) :
    run (bitvm.exec ctx) [.transformLimbsize source target] (.top (nums ds ++ st) alt) =
      some (.top (nums (limbs target (limbCount target) (limbValue source ds)) ++ st) alt) := by
  rw [run_cons, Bitvm.exec, hbitvm.transformLimbsize source target ds st alt hsource hsource'
    htarget htarget' hlen hds hvalue]
  rfl

theorem run_transform_eight_four (h : bs.length = 32) (st alt : List Bytes) :
    run (bitvm.exec ctx) [.transformLimbsize 8 4] (.top (nums (bs.map UInt8.toNat) ++ st) alt) =
      some (.top (nums (nibbles bs) ++ st) alt) := by
  have hvalue := limbValue_lt (forall_mem_map_toNat bs)
  rw [length_map, h] at hvalue
  have hlimbs := limbs_four bs
  rw [h] at hlimbs
  rw [exec_transformLimbsize hbitvm ctx (by decide) (by decide) (by decide) (by decide)
    ((length_map _).trans h) (forall_mem_map_toNat bs) hvalue,
    show limbCount 4 = 2 * 32 from rfl, hlimbs]

theorem run_transform_four {target : ℕ} (h : bs.length = 32) (htarget : 0 < target)
    (htarget' : target < 31) (st alt : List Bytes) :
    run (bitvm.exec ctx) [.transformLimbsize 4 target] (.top (nums (nibbles bs) ++ st) alt) =
      some (.top (nums (limbs target (limbCount target) (limbValue 4 (nibbles bs))) ++ st)
        alt) := by
  have hvalue := limbValue_lt (forall_mem_nibbles bs)
  rw [length_nibbles, h] at hvalue
  exact exec_transformLimbsize hbitvm ctx (by decide) (by decide) htarget htarget'
    (by rw [length_nibbles, h]; rfl) (forall_mem_nibbles bs) hvalue st alt

theorem run_blockLimbs {half : Bytes} (h : half.length = 32) (st alt : List Bytes) :
    run (bitvm.exec ctx) [.transformLimbsize 4 29]
        (.top (nums (nibbles (swapWords half)) ++ st) alt) =
      some (.top (nums (blockLimbs half) ++ st) alt) := by
  have hlen : (swapWords half).length = 32 := (length_swapWords (by simp [h])).trans h
  rw [run_transform_four hbitvm ctx hlen (by decide) (by decide), limbValue_nibbles, blockLimbs]

theorem run_transform_four_eight (h : bs.length = 32) (alt : List Bytes) :
    run (bitvm.exec ctx) [.transformLimbsize 4 8] (.top (nums (nibbles bs)) alt) =
      some (.top (nums (bs.map UInt8.toNat)) alt) := by
  have hlimbs : limbs 8 (limbCount 8) (limbValue 4 (nibbles bs)) = bs.map UInt8.toNat := by
    rw [show limbCount 8 = bs.length from h.symm, limbs_eight]
  have hbytes := run_transform_four hbitvm ctx h (show 0 < 8 by decide) (by decide) [] alt
  simpa only [append_nil, hlimbs] using hbytes

/-- **Hashing the public inputs** leaves the bytes of their hash, the first one on top. -/
theorem run_hashPublicInputs (depositTxid : Txid) {w : Bytes} (hw : w.length = 32)
    (alt : List Bytes) :
    run (bitvm.exec ctx) (hashPublicInputs depositTxid) (.top (nums (nibbles w)) alt) =
      some (.top (nums ((bitvm.blake3 (depositTxid.toBytes ++ w)).toList.map UInt8.toNat))
        alt) := by
  have hd : depositTxid.toBytes.length = 32 := length_toBeBytes 32 _
  simp only [hashPublicInputs, append_assoc]
  generalize depositTxid.toBytes = d at hd
  have hdvd : 4 ∣ d.length := by simp [hd]
  have hdvd' : 4 ∣ w.length := by simp [hw]
  -- the message in nibbles, moved to the alternative stack and back word by word
  have hnibs : (nums (nibbles d) ++ nums (nibbles w)).length = 127 + 1 := by simp [hd, hw]
  have hwords := run_words ctx (d ++ w) [] alt (by simp [hd, hw])
  rw [length_append, hd, hw, swapWords_append hdvd, nibbles_append, nibbles_append,
    nums_append, nums_append, append_nil] at hwords
  -- the two halves in limbs
  have hfirst := run_blockLimbs hbitvm ctx hd [] ((nums (blockLimbs w)).reverse ++ alt)
  rw [append_nil, append_nil] at hfirst
  have hlimbs : (nums (blockLimbs w)).length = 9 := by simp [blockLimbs, limbCount]
  have hback := run_fromAltStack ctx ((length_reverse).trans hlimbs) (nums (blockLimbs d)) alt
  rw [reverse_reverse] at hback
  -- the hash, whose bytes come up in reverse order
  have hblake3 : run (bitvm.exec ctx) [.blake3ComputeScript (2 * 32)]
      (.top (nums (blockLimbs w) ++ nums (blockLimbs d)) alt) =
        some (.top (nums (nibbles (bitvm.blake3 (d ++ w)).toList.reverse)) alt) := by
    rw [run_cons, Bitvm.exec, hbitvm.blake3ComputeScript d w alt hd hw]
    rfl
  have hlen : (bitvm.blake3 (d ++ w)).toList.reverse.length = 32 := by simp
  have hbytes : (nums ((bitvm.blake3 (d ++ w)).toList.reverse.map UInt8.toNat)).length =
      31 + 1 := by
    simp
  have hreverse := run_reverseAll ctx hbytes (by decide) alt
  rw [← nums_reverse, ← map_reverse, reverse_reverse] at hreverse
  rw [run_ops_append_of ctx (run_pushBytes ctx d _ alt),
    run_append_of (run_transform_eight_four hbitvm ctx hd _ alt),
    run_ops_append_of ctx (run_unstackAll ctx hnibs (by decide) alt),
    run_ops_append_of ctx hwords, run_append_of (run_blockLimbs hbitvm ctx hw _ alt),
    run_ops_append_of ctx (run_toAltStack ctx hlimbs _ alt), run_append_of hfirst,
    run_ops_append_of ctx hback, run_append_of hblake3,
    run_append_of (run_transform_four_eight hbitvm ctx hlen alt), run_ops, hreverse]

/-- **The run of the leaf**: with valid signatures it leaves whether the committed hash differs
from the computed one, whose first byte goes through the opcodes of `hash_to_bn254_fq`. -/
theorem run_disprovePublicInputsCommitment {keys : Wots.PublicKeys} {sigW sigH : Wots.Wots256Sig}
    {deposit w : Txid} {h : Vector UInt8 32} {x : UInt8} {xs : Bytes}
    (hhash : (bitvm.blake3 (deposit.toBytes ++ w.toBytes)).toList = x :: xs)
    (hsigW : bitvm.Signs keys.withdrawalFulfillment w.toBytes sigW)
    (hsigH : bitvm.Signs (keys.groth16.publicInputs.get ⟨0, by decide⟩) h.toList sigH) :
    run (bitvm.exec ctx) (disprovePublicInputsCommitment keys deposit)
        (.top (generateWitnessScript bitvm sigW sigH) []) =
      some (.top [ofBool (h.toList.map UInt8.toNat ≠
        clearedByScript x.toNat :: xs.map UInt8.toNat)] []) := by
  have hw : w.toBytes.length = 32 := length_toBeBytes 32 _
  have hh : h.toList.length = 32 := h.length_toList
  have hxs : xs.length = 31 := by
    have hlen := congrArg length hhash
    rw [Vector.length_toList, length_cons] at hlen
    omega
  rw [disprovePublicInputsCommitment, append_assoc,
    run_append_of (run_readCommitments hbitvm ctx hw hh hsigW hsigH),
    run_append_of (run_hashPublicInputs hbitvm ctx deposit hw _), hhash, run_ops,
    run_compareHashes ctx hxs hh]

end Pieces

end ConnectorA3Leaf

end StrataBridge
