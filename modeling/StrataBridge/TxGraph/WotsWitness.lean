import StrataBridge.Rust.Traverse
import StrataBridge.Script.Machine
import StrataBridge.TxGraph.Generated
import Mathlib.Data.List.GetD

/-!
# One-time signatures in witness stacks

A one-time signature consists of hash chains, each with a preimage of 20 bytes and a digit. In a
witness stack every chain takes two items. A claim carries one signature and is read item by item;
the connectors of the assert-data transactions carry several, and are read by executing a script
that pushes the items and looking at the final stack.

Both parsers index a stack whose length they do not know. Where the stack ends too early, they
panic, unless an item that they look at before has the wrong size.

## Main definitions

* `parseSignatures`: the parser of connectors
* `ClaimTx.finalize`: the witness of a claim

## Main results

* `isPanic_parseSignatures_iff`: when a parser panics
* `ClaimTx.parseWitness_finalize`: parsing gives the signature back

## References

* `crates/primitives/src/scripts/parse_witness.rs`, lines 17–58,
  `crates/primitives/src/scripts/taproot.rs`, lines 155–187
* `crates/connectors/src/connector_k.rs`, lines 37–98
* `crates/tx-graph/src/transactions/claim.rs`, lines 141–194
-/

namespace StrataBridge

open Rust Script List Outcome

variable {k : ℕ}

variable {env : WitnessEnv} {sigs : List (List Bytes)}

/-! ### Signatures as items of a stack -/

/-- One of the two sizes of one-time signatures: its name in error texts, the number of its chains,
and the number of bytes that it signs. -/
structure WotsSize where
  name : String
  totalDigitLen : ℕ
  msgByteLen : ℕ
  deriving DecidableEq, Repr

def WotsSize.wots256 : WotsSize := ⟨"wots256", ClaimTx.totalDigitLen, 32⟩

def WotsSize.wotsHash : WotsSize := ⟨"wots_hash", 36, 16⟩

/-- The chains of a signature in the source's type, an array of arrays of 21 bytes. -/
structure WotsSize.Shaped (size : WotsSize) (chains : List Bytes) : Prop where
  length : chains.length = size.totalDigitLen
  chain : ∀ c ∈ chains, c.length = 21

def chainDigit (chain : Bytes) : UInt8 := chain.getD 20 0

def chainItems (chain : Bytes) : List Bytes :=
  [chain.take 20, scriptInt (chainDigit chain).toNat]

/-- The items of a signature, from the bottom of the stack. -/
def sigItems (chains : List Bytes) : List Bytes := chains.flatMap chainItems

/-- The instructions of a script that commits to values by one-time signatures. -/
inductive LockInstr (K : Type) where
  | checksigVerify (publicKey : K)
  | op (op : Op)
  deriving DecidableEq, Repr

/-- What reading and writing of witness stacks takes from bitvm, from rust-bitcoin, and from the way
the bridge is built. -/
structure WitnessEnv where
  /-- `execute_script`, the items of the final stack from the bottom on. -/
  finalStack : List Op → List Bytes
  /-- `FmtStack::get` at an index beyond the last item. -/
  outOfRange : MayPanic Bytes
  /-- `Wots::signature_to_raw_witness`. -/
  signatureToRawWitness : List Bytes → List Op
  /-- `Script::compile` of a script with keys for 256 bits. -/
  compile256 : List (LockInstr Wots256PublicKey) → ScriptBuf
  /-- `Script::compile` of a script with keys for 128 bits. -/
  compileHash : List (LockInstr Wots128PublicKey) → ScriptBuf
  /-- `Psbt::extract_tx` with the `expect` on its result, given the output that the transaction
  spends. -/
  extractTx : Transaction → TxOut → MayPanic Transaction
  /-- Whether integer operations of the build check for overflow. -/
  overflowChecks : Bool

namespace WitnessEnv

/-- A transaction that pays out what it spends is extracted: it does not spend more than there is,
and its fee rate is not absurd. -/
def Extracts (env : WitnessEnv) : Prop :=
  ∀ tx prevout, totalValue tx.output = prevout.value → env.extractTx tx prevout = .ok tx

/-- What is assumed of bitvm: a signature is pushed chain by chain, first the preimage and then the
digit, and a script that only pushes leaves what it pushes, within the limits of the stack; and of
rust-bitcoin, that it extracts a transaction without a fee. -/
structure Pushes (env : WitnessEnv) : Prop where
  extracts : env.Extracts
  signatureToRawWitness : ∀ chains : List Bytes, env.signatureToRawWitness chains =
    chains.flatMap fun c => [.push (c.take 20), .int (chainDigit c).toNat]
  finalStack : ∀ items : List Bytes, items.length ≤ 1000 → (∀ b ∈ items, b.length ≤ 520) →
    env.finalStack (items.map .push) = items

/-- `FmtStack::get` panics beyond the last item. -/
def GetPanics (env : WitnessEnv) : Prop := ∃ msg, env.outOfRange = .error msg

/-- `FmtStack::get`. -/
def get (env : WitnessEnv) (stack : List Bytes) (k : ℕ) : Outcome Unit String Bytes :=
  match stack[k]?, env.outOfRange with
  | some item, _ => .ok () item
  | none, .ok item => .ok () item
  | none, .error msg => .panic msg

/-- The chain at index `k` of a stack (`parse_witness.rs`, lines 24–33 and 46–55). -/
def readChain (env : WitnessEnv) (size : WotsSize) (stack : List Bytes) (k : ℕ) :
    Outcome Unit String Bytes :=
  (env.get stack k).bind fun _ preimage =>
    (env.get stack (k + 1)).bind fun _ digit =>
      if preimage.length = 20 then .ok () (preimage ++ [digit.headD 0])
      else .err () ("invalid witness: " ++ size.name)

end WitnessEnv

/-- The parser of `n` signatures, `parse_wots256_signatures` and `parse_wots_hash_signatures`
(`parse_witness.rs`, lines 17–58). -/
def parseSignatures (env : WitnessEnv) (size : WotsSize) (n : ℕ) (script : List Op) :
    Outcome Unit String (List (List Bytes)) :=
  traverse (fun i =>
    traverse (fun j =>
      env.readChain size (env.finalStack script) (2 * j + i * 2 * size.totalDigitLen))
      (range size.totalDigitLen)) (range n)

@[inherit_doc parseSignatures]
def parseWots256Signatures (env : WitnessEnv) (n : ℕ) (script : List Op) :
    Outcome Unit String (List Wots.Wots256Sig) :=
  (parseSignatures env .wots256 n script).map (map Wots.Wots256Sig.mk)

@[inherit_doc parseSignatures]
def parseWotsHashSignatures (env : WitnessEnv) (n : ℕ) (script : List Op) :
    Outcome Unit String (List Wots.Wots128Sig) :=
  (parseSignatures env .wotsHash n script).map (map Wots.Wots128Sig.mk)

/-! ### Claims -/

/-- `finalize_input` of the first input (`taproot.rs`, lines 163–187), in the transaction. -/
def Transaction.finalizeInput (tx : Transaction) (stack : List Bytes) : Transaction :=
  { tx with input := tx.input.modify 0 fun input => { input with witness := stack } }

namespace ConnectorK

variable (env : GraphEnv) (wenv : WitnessEnv) (c : ConnectorK)

/-- `ConnectorK::create_locking_script` (`connector_k.rs`, lines 37–49). -/
def createLockingScript : List (LockInstr Wots256PublicKey) :=
  .checksigVerify c.claimBitcommitment :: .replicate (256 / 4) (.op .drop) ++ [.op (.int 1)]

/-- `ConnectorK::generate_spend_info` (`connector_k.rs`, lines 62–79). -/
def generateSpendInfo : ScriptBuf × Bytes :=
  let script := wenv.compile256 c.createLockingScript
  (script, env.controlBlock env.unspendablePublicKey [script] script)

/-- The stack of `ConnectorK::finalize_input` (`connector_k.rs`, lines 82–98). -/
def witnessStack (signature : Wots.Wots256Sig) : List Bytes :=
  wenv.finalStack (wenv.signatureToRawWitness signature.chains) ++
    [(c.generateSpendInfo env wenv).1, (c.generateSpendInfo env wenv).2]

end ConnectorK

/-- `ClaimTx::finalize` (`claim.rs`, lines 141–148). -/
def ClaimTx.finalize (env : GraphEnv) (wenv : WitnessEnv) (claim : ClaimPsbt)
    (connectorK : ConnectorK) (signature : Wots.Wots256Sig) : MayPanic Transaction :=
  wenv.extractTx (claim.tx.unsignedTx.finalizeInput (connectorK.witnessStack env wenv signature))
    claim.prevout

/-! ### Stacks that are read and stacks that break off -/

def HasChains (n : ℕ) (stack : List Bytes) : Prop :=
  2 * n ≤ stack.length ∧ ∀ k < n, (stack.getD (2 * k) []).length = 20

/-- A stack ends before its `n`-th chain, and all that it has are chains. -/
def BreaksOff (n : ℕ) (stack : List Bytes) : Prop :=
  stack.length < 2 * n ∧ ∀ k, 2 * k + 1 < stack.length → (stack.getD (2 * k) []).length = 20

namespace WitnessEnv

variable {size : WotsSize} {stack : List Bytes}

theorem get_of_lt (hk : k < stack.length) : env.get stack k = .ok () (stack.getD k []) := by
  simp [get, getElem?_eq_getElem hk]

theorem isPanic_get_iff : (env.get stack k).IsPanic ↔ env.GetPanics ∧ stack.length ≤ k := by
  rw [get, GetPanics]
  cases hk : stack[k]? with
  | some item =>
    have hlt := (List.getElem?_eq_some_iff.mp hk).1
    simp [hlt]
  | none =>
    have hle := getElem?_eq_none_iff.mp hk
    cases hout : env.outOfRange with
    | ok item => simp
    | error msg => simp [hle]

theorem readChain_of_lt (hk : k + 1 < stack.length) :
    env.readChain size stack k =
      if (stack.getD k []).length = 20 then
        .ok () (stack.getD k [] ++ [(stack.getD (k + 1) []).headD 0])
      else .err () ("invalid witness: " ++ size.name) := by
  rw [readChain, get_of_lt (by omega), get_of_lt hk]
  rfl

/-- Both items of a chain are looked at before the size of the preimage is. -/
theorem isPanic_readChain_iff :
    (env.readChain size stack k).IsPanic ↔ env.GetPanics ∧ stack.length ≤ k + 1 := by
  rw [readChain, isPanic_bind_iff, isPanic_get_iff]
  constructor
  · rintro (⟨hpanics, hk⟩ | ⟨preimage, -, h⟩)
    · exact ⟨hpanics, by omega⟩
    · rcases isPanic_bind_iff.mp h with h | ⟨digit, -, h⟩
      · exact isPanic_get_iff.mp h
      · split at h <;> simp at h
  · rintro ⟨hpanics, hk⟩
    rcases Nat.lt_or_ge k stack.length with hlt | hge
    · refine .inr ⟨_, get_of_lt hlt, isPanic_bind_iff.mpr (.inl ?_)⟩
      exact isPanic_get_iff.mpr ⟨hpanics, hk⟩
    · exact .inl ⟨hpanics, hge⟩

theorem isOk_readChain_iff (hpanics : env.GetPanics) :
    (env.readChain size stack k).IsOk ↔ k + 1 < stack.length ∧ (stack.getD k []).length = 20 := by
  rcases Nat.lt_or_ge (k + 1) stack.length with hlt | hge
  · rw [readChain_of_lt hlt]
    split
    · next hlen => exact ⟨fun _ => ⟨hlt, hlen⟩, fun _ => trivial⟩
    · next hlen => exact ⟨False.elim, fun h => hlen h.2⟩
  · have hpanic : (env.readChain size stack k).IsPanic := isPanic_readChain_iff.mpr ⟨hpanics, hge⟩
    cases hr : env.readChain size stack k with
    | ok s b => simp [hr] at hpanic
    | err s e => simp [hr] at hpanic
    | panic msg => simp [Nat.not_lt.mpr hge]

end WitnessEnv

section Parse

variable {size : WotsSize} {n : ℕ} {script : List Op}

theorem map_flatten_parseSignatures :
    (parseSignatures env size n script).map flatten =
      traverse (fun k => env.readChain size (env.finalStack script) (2 * k))
        (range (n * size.totalDigitLen)) := by
  have hindex (i j : ℕ) : 2 * j + i * 2 * size.totalDigitLen =
      2 * (j + i * size.totalDigitLen) := by ring
  simp only [parseSignatures, hindex]
  exact traverse_nested (f := fun k => env.readChain size (env.finalStack script) (2 * k))
    size.totalDigitLen n

/-- **When the parser panics.** The final stack breaks off, and looking beyond its end panics. -/
theorem isPanic_parseSignatures_iff :
    (parseSignatures env size n script).IsPanic ↔
      env.GetPanics ∧ BreaksOff (n * size.totalDigitLen) (env.finalStack script) := by
  rw [← isPanic_map flatten, map_flatten_parseSignatures, isPanic_traverse_range_iff]
  simp only [WitnessEnv.isPanic_readChain_iff]
  constructor
  · rintro ⟨k, hk, hok, hpanics, hlen⟩
    refine ⟨hpanics, by omega, fun j hj => ?_⟩
    exact ((WitnessEnv.isOk_readChain_iff hpanics).mp (hok j (by omega))).2
  · rintro ⟨hpanics, hlen, hchains⟩
    refine ⟨(env.finalStack script).length / 2, by omega, fun j hj => ?_, hpanics, by omega⟩
    exact (WitnessEnv.isOk_readChain_iff hpanics).mpr ⟨by omega, hchains j (by omega)⟩

theorem isOk_parseSignatures_iff (hpanics : env.GetPanics) :
    (parseSignatures env size n script).IsOk ↔
      HasChains (n * size.totalDigitLen) (env.finalStack script) := by
  have hflat : (parseSignatures env size n script).IsOk ↔
      ((parseSignatures env size n script).map flatten).IsOk := by
    simp
  rw [hflat, map_flatten_parseSignatures, isOk_traverse_iff]
  simp only [mem_range, WitnessEnv.isOk_readChain_iff hpanics]
  constructor
  · intro h
    refine ⟨?_, fun k hk => (h k hk).2⟩
    rcases Nat.eq_zero_or_pos (n * size.totalDigitLen) with hzero | hpos
    · omega
    · have hlast := (h (n * size.totalDigitLen - 1) (by omega)).1
      omega
  · rintro ⟨hlen, hchains⟩ k hk
    exact ⟨by omega, hchains k hk⟩

end Parse

/-! ### Signatures are read back -/

theorem flatMap_split {α β : Type} (f : α → List β) {l : List α} {i : ℕ} (hi : i < l.length) :
    l.flatMap f = (l.take i).flatMap f ++ (f l[i] ++ (l.drop (i + 1)).flatMap f) := by
  rw [← flatMap_cons, ← drop_eq_getElem_cons hi, ← flatMap_append, take_append_drop]

@[simp] theorem length_chainItems (c : Bytes) : (chainItems c).length = 2 := rfl

theorem length_sigItems (chains : List Bytes) : (sigItems chains).length = 2 * chains.length := by
  rw [sigItems, length_flatMap_const fun c _ => length_chainItems c, Nat.mul_comm]

theorem headD_scriptInt (d : UInt8) : (scriptInt d.toNat).headD 0 = d := by
  have hall : ∀ n < 256, (scriptInt (n : ℕ)).headD 0 = UInt8.ofNat n := by decide +kernel
  rw [hall d.toNat d.toNat_lt, UInt8.ofNat_toNat]

theorem take_append_digit {chain : Bytes} (hlen : chain.length = 21) :
    chain.take 20 ++ [chainDigit chain] = chain := by
  have hget : chainDigit chain = chain[20] := getD_eq_getElem chain 0 (by omega)
  have hdrop : chain.drop 20 = [chain[20]] := by
    rw [drop_eq_getElem_cons (by omega), drop_of_length_le (by omega)]
  rw [hget, ← hdrop, take_append_drop]

theorem WitnessEnv.readChain_items (env : WitnessEnv) (size : WotsSize) {c : Bytes}
    (hc : c.length = 21) (before after : List Bytes) :
    env.readChain size (before ++ (chainItems c ++ after)) before.length = .ok () c := by
  have hfirst : (before ++ (chainItems c ++ after)).getD before.length [] = c.take 20 := by
    simp [chainItems]
  have hsecond : (before ++ (chainItems c ++ after)).getD (before.length + 1) [] =
      scriptInt (chainDigit c).toNat := by
    simp [chainItems]
  rw [readChain_of_lt (by simp [chainItems]), hfirst, hsecond, headD_scriptInt,
    take_append_digit hc, if_pos (by simp [hc])]

/-- **Signatures are read back** from a stack of their items. -/
theorem parseSignatures_items {size : WotsSize} {n : ℕ} {script : List Op} (hn : sigs.length = n)
    (hsigs : ∀ s ∈ sigs, size.Shaped s) (hstack : env.finalStack script = sigs.flatMap sigItems) :
    parseSignatures env size n script = .ok () sigs := by
  have hchain (i j : ℕ) (hi : i < sigs.length) (hj : j < size.totalDigitLen) :
      env.readChain size (env.finalStack script) (2 * j + i * 2 * size.totalDigitLen) =
        .ok () ((sigs.getD i []).getD j []) := by
    have hshape := hsigs _ (getElem_mem hi)
    have hj' : j < sigs[i].length := by rw [hshape.length]; exact hj
    have hbefore : ((sigs.take i).flatMap sigItems ++ (sigs[i].take j).flatMap chainItems).length =
        2 * j + i * 2 * size.totalDigitLen := by
      have hlen : ∀ s ∈ sigs.take i, (sigItems s).length = 2 * size.totalDigitLen := fun s hs => by
        rw [length_sigItems, (hsigs s (mem_of_mem_take hs)).length]
      rw [length_append, length_flatMap_const hlen,
        length_flatMap_const fun c _ => length_chainItems c, length_take, length_take,
        Nat.min_eq_left hi.le, Nat.min_eq_left hj'.le]
      ring
    have hsplit : sigs.flatMap sigItems =
        ((sigs.take i).flatMap sigItems ++ (sigs[i].take j).flatMap chainItems) ++
          (chainItems sigs[i][j] ++ ((sigs[i].drop (j + 1)).flatMap chainItems ++
            (sigs.drop (i + 1)).flatMap sigItems)) := by
      have hsig : sigItems sigs[i] = _ := flatMap_split chainItems hj'
      rw [flatMap_split sigItems hi, hsig]
      simp
    rw [hstack, hsplit, ← hbefore,
      env.readChain_items size (hshape.chain _ (getElem_mem hj')),
      getD_eq_getElem sigs [] hi, getD_eq_getElem _ [] hj']
  have hsig (i : ℕ) (hi : i ∈ range n) :
      traverse (fun j =>
        env.readChain size (env.finalStack script) (2 * j + i * 2 * size.totalDigitLen))
        (range size.totalDigitLen) = .ok () (sigs.getD i []) := by
    have hi' : i < sigs.length := by rw [hn]; exact mem_range.mp hi
    rw [traverse_eq_ok fun j hj => hchain i j hi' (mem_range.mp hj)]
    have hlen := (hsigs _ (getElem_mem hi')).length
    rw [getD_eq_getElem sigs [] hi']
    congr 1
    exact ext_getElem (by simp [hlen]) fun j h₁ h₂ => by
      rw [getElem_map, getElem_range, getD_eq_getElem _ [] h₂]
  rw [parseSignatures, traverse_eq_ok hsig]
  congr 1
  exact ext_getElem (by simp [hn]) fun i h₁ h₂ => by
    rw [getElem_map, getElem_range, getD_eq_getElem _ [] h₂]

theorem WitnessEnv.Pushes.finalStack_items (h : env.Pushes)
    (hlen : (sigs.flatMap sigItems).length ≤ 1000) :
    env.finalStack ((sigs.flatMap sigItems).map .push) = sigs.flatMap sigItems := by
  refine h.finalStack _ hlen fun item hitem => ?_
  obtain ⟨chains, -, hitem⟩ := mem_flatMap.mp hitem
  obtain ⟨c, -, hitem⟩ := mem_flatMap.mp hitem
  rcases mem_cons.mp hitem with rfl | hitem
  · rw [length_take]
    omega
  · obtain rfl := mem_singleton.mp hitem
    have hle := length_scriptInt_le (chainDigit c).toNat
    omega

theorem WitnessEnv.Pushes.finalStack_signatures (h : env.Pushes)
    (hlen : (sigs.flatMap sigItems).length ≤ 1000) :
    env.finalStack (sigs.flatMap env.signatureToRawWitness) = sigs.flatMap sigItems := by
  have hscript : sigs.flatMap env.signatureToRawWitness = (sigs.flatMap sigItems).map .push := by
    rw [map_flatMap]
    refine flatMap_congr fun chains _ => ?_
    rw [h.signatureToRawWitness, sigItems, map_flatMap]
    rfl
  rw [hscript, h.finalStack_items hlen]

namespace ClaimTx

/-- A witness of a claim ends before the last chain, and every preimage in it has its size. -/
def BreaksOff (witness : List Bytes) : Prop :=
  witness ≠ [] ∧ witness.length < 2 * totalDigitLen ∧
    ∀ k, 2 * k < witness.length → (witness.getD (2 * k) []).length = 20

theorem parseChains_eq (witness : List Bytes) (is : List ℕ) :
    parseChains witness is = traverse (parseChain witness) is := by
  induction is with
  | nil => rfl
  | cons i is ih => rw [parseChains, ih, traverse_cons]

variable {witness : List Bytes}

theorem parseChain_of_lt (hk : 2 * k + 1 < witness.length) :
    parseChain witness k =
      if (witness.getD (2 * k) []).length = 20 then
        .ok () (witness.getD (2 * k) [] ++ [(witness.getD (2 * k + 1) []).headD 0])
      else .err () (.txidSizeInvalid (witness.getD (2 * k) []).length) := by
  rw [parseChain, getElem?_eq_getElem (by omega), getElem?_eq_getElem hk,
    getD_eq_getElem _ _ (by omega), getD_eq_getElem _ _ hk]

theorem isOk_parseChain_iff :
    (parseChain witness k).IsOk ↔
      2 * k + 1 < witness.length ∧ (witness.getD (2 * k) []).length = 20 := by
  rcases Nat.lt_or_ge (2 * k + 1) witness.length with hlt | hge
  · rw [parseChain_of_lt hlt]
    split
    · next hlen => exact ⟨fun _ => ⟨hlt, hlen⟩, fun _ => trivial⟩
    · next hlen => exact ⟨False.elim, fun h => hlen h.2⟩
  · refine ⟨fun h => ?_, fun h => absurd h.1 (by omega)⟩
    rw [parseChain] at h
    split at h
    · exact h.elim
    · split at h
      · rw [getElem?_eq_none hge] at h
        exact h.elim
      · exact h.elim

theorem isPanic_parseChain_iff :
    (parseChain witness k).IsPanic ↔ witness.length ≤ 2 * k + 1 ∧
      (2 * k < witness.length → (witness.getD (2 * k) []).length = 20) := by
  rcases Nat.lt_or_ge (2 * k + 1) witness.length with hlt | hge
  · rw [parseChain_of_lt hlt]
    refine ⟨fun h => ?_, fun h => absurd h.1 (by omega)⟩
    split at h <;> exact h.elim
  · rw [parseChain, getElem?_eq_none hge]
    rcases Nat.lt_or_ge (2 * k) witness.length with hlt | hge'
    · rw [getElem?_eq_getElem hlt, getD_eq_getElem _ _ hlt]
      simp only
      split
      · next hlen => exact ⟨fun _ => ⟨hge, fun _ => hlen⟩, fun _ => trivial⟩
      · next hlen => exact ⟨False.elim, fun h => hlen (h.2 hlt)⟩
    · rw [getElem?_eq_none hge']
      exact ⟨fun _ => ⟨hge, fun h => absurd h (by omega)⟩, fun _ => trivial⟩

private theorem isPanic_parseChains_iff {n : ℕ} :
    (parseChains witness (range n)).IsPanic ↔ witness.length < 2 * n ∧
      ∀ k, 2 * k < witness.length → (witness.getD (2 * k) []).length = 20 := by
  rw [parseChains_eq, isPanic_traverse_range_iff]
  simp only [isOk_parseChain_iff, isPanic_parseChain_iff]
  constructor
  · rintro ⟨k, hk, hok, hlen, hlast⟩
    refine ⟨by omega, fun j hj => ?_⟩
    rcases Nat.lt_or_ge j k with hjk | hjk
    · exact (hok j hjk).2
    · obtain rfl : j = k := by omega
      exact hlast hj
  · rintro ⟨hlen, hchains⟩
    exact ⟨witness.length / 2, by omega, fun j hj => ⟨by omega, hchains j (by omega)⟩, by omega,
      hchains _⟩

/-- **When the parser of a claim panics.** The witness of its first input breaks off. -/
theorem isPanic_parseWitness_iff {tx : Transaction} (h : tx.input ≠ []) :
    (parseWitness tx).IsPanic ↔ BreaksOff (tx.input.head h).witness := by
  obtain ⟨input, rest, hinput⟩ := exists_cons_of_ne_nil h
  have hhead : tx.input.head h = input := by simp [hinput]
  rw [hhead, parseWitness, hinput]
  simp only [BreaksOff]
  by_cases hempty : input.witness = []
  · simp [hempty]
  · rw [if_neg hempty, isPanic_map, isPanic_parseChains_iff]
    simp [hempty]

theorem parseWitness_items {tx : Transaction} {input : TxIn} {rest : List TxIn}
    {signature : Wots.Wots256Sig} {after : List Bytes}
    (hshape : WotsSize.wots256.Shaped signature.chains) (hinput : tx.input = input :: rest)
    (hwitness : input.witness = sigItems signature.chains ++ after) :
    parseWitness tx = .ok () signature := by
  have hlen : signature.chains.length = totalDigitLen := hshape.length
  have hchain : ∀ k ∈ range totalDigitLen,
      parseChain input.witness k = .ok () (signature.chains.getD k []) := by
    intro k hk
    have hk' : k < signature.chains.length := by
      rw [hlen]
      exact mem_range.mp hk
    have hbefore : ((signature.chains.take k).flatMap chainItems).length = 2 * k := by
      rw [length_flatMap_const fun c _ => length_chainItems c, length_take,
        Nat.min_eq_left hk'.le, Nat.mul_comm]
    have hsplit : input.witness = (signature.chains.take k).flatMap chainItems ++
        (chainItems signature.chains[k] ++
          ((signature.chains.drop (k + 1)).flatMap chainItems ++ after)) := by
      rw [hwitness, sigItems, flatMap_split chainItems hk']
      simp
    have hc := hshape.chain _ (getElem_mem hk')
    have hfirst : input.witness.getD (2 * k) [] = signature.chains[k].take 20 := by
      rw [hsplit, ← hbefore]
      simp [chainItems]
    have hsecond : input.witness.getD (2 * k + 1) [] =
        scriptInt (chainDigit signature.chains[k]).toNat := by
      rw [hsplit, ← hbefore]
      simp [chainItems]
    rw [parseChain_of_lt (by rw [hsplit, length_append, hbefore]; simp [chainItems]), hfirst,
      hsecond, headD_scriptInt, take_append_digit hc, if_pos (by simp [hc]),
      getD_eq_getElem _ _ hk']
  have hne : input.witness ≠ [] := by
    intro hnil
    have h := congrArg length hwitness
    rw [hnil, length_append, length_sigItems, hlen, totalDigitLen, length_nil] at h
    omega
  have hchains : (range totalDigitLen).map (fun k => signature.chains.getD k []) =
      signature.chains :=
    ext_getElem (by simp [hlen]) fun k h₁ h₂ => by
      rw [getElem_map, getElem_range, getD_eq_getElem _ [] h₂]
  rw [parseWitness, hinput]
  simp only
  rw [if_neg hne, parseChains_eq, traverse_eq_ok hchain, hchains]
  rfl

/-- **The signature of a claim is read back.** -/
theorem parseWitness_finalize {env : GraphEnv} {wenv : WitnessEnv} (henv : env.Taproot)
    (hpushes : wenv.Pushes) {stakeOutpoint : OutPoint} {k : ConnectorK} {c0 : ConnectorC0}
    {c1 : ConnectorC1} {nOfN : ConnectorNOfN} {cpfp : ConnectorCpfp} {claim : ClaimPsbt}
    (hnew : ClaimTx.new env stakeOutpoint k c0 c1 nOfN cpfp = .ok claim)
    {signature : Wots.Wots256Sig} (hshape : WotsSize.wots256.Shaped signature.chains) :
    ∃ tx, finalize env wenv claim k signature = .ok tx ∧ parseWitness tx = .ok () signature := by
  obtain ⟨-, hout, hprevout⟩ := ClaimTx.of_new henv hnew
  obtain ⟨input, rest, hinput⟩ := exists_cons_of_ne_nil claim.tx.hasInput
  have hvalue : totalValue claim.tx.unsignedTx.output = claim.prevout.value := by
    rw [hout, hprevout]
    simp only [totalValue, map_cons]
    decide
  have hstack : wenv.finalStack (wenv.signatureToRawWitness signature.chains) =
      sigItems signature.chains := by
    have hitems : ([signature.chains].flatMap sigItems).length ≤ 1000 := by
      rw [flatMap_singleton, length_sigItems, hshape.length]
      decide
    simpa using hpushes.finalStack_signatures hitems
  have hsigned : (claim.tx.unsignedTx.finalizeInput (k.witnessStack env wenv signature)).input =
      { input with witness := k.witnessStack env wenv signature } :: rest := by
    rw [Transaction.finalizeInput, hinput]
    rfl
  exact ⟨_, hpushes.extracts _ _ hvalue, parseWitness_items hshape hsigned (congrArg (· ++ _) hstack)⟩

end ClaimTx

end StrataBridge
