import StrataBridge.TxGraph.Links
import StrataBridge.TxGraph.WotsWitness

/-!
# The commitments of the assert-data transactions

An operator publishes the one-time signatures of a proof in the witnesses of the assert-data
transactions. The keys are split over connectors in four batches, two for field elements and two
for hashes. Every connector locks one output of the pre-assert, with a script that checks one
signature for each of its keys, from the last to the first. To finalize the transactions, the
signatures are split over them by offsets of their own; to parse the transactions, the witnesses
are split by yet another set of offsets.

## Main results

* `Checksig.run_lockingProgram`: a locking script accepts the signatures of its keys
* `AssertDataTxBatch.finalize_returns`: the finalized transactions
* `AssertDataTxBatch.parseWitnesses_of_witnesses`: parsing gives the signatures back

## References

* `crates/connectors/src/connectors_a.rs`
* `crates/tx-graph/src/transactions/assert_data.rs`, lines 139–314,
  `crates/tx-graph/src/transactions/pre_assert.rs`, lines 91–137
* `crates/primitives/src/scripts/parse_witness.rs`, lines 60–102
-/

namespace StrataBridge

open Rust Script
open List hiding Vector

/-! ### Connectors -/

/-- The two sizes of signatures with their types of keys and signatures. -/
structure WotsKind (K S : Type) where
  size : WotsSize
  compile : List (LockInstr K) → ScriptBuf
  chains : S → List Bytes

def WitnessEnv.wots256 (wenv : WitnessEnv) : WotsKind Wots256PublicKey Wots.Wots256Sig :=
  ⟨.wots256, wenv.compile256, Wots.Wots256Sig.chains⟩

def WitnessEnv.wotsHash (wenv : WitnessEnv) : WotsKind Wots128PublicKey Wots.Wots128Sig :=
  ⟨.wotsHash, wenv.compileHash, Wots.Wots128Sig.chains⟩

/-- `ConnectorA256` and `ConnectorAHash` (`connectors_a.rs`, lines 80–88 and 217–225). -/
structure ConnectorA (K : Type) where
  network : Network
  publicKeys : List K
  deriving DecidableEq, Repr

/-- The script of `create_locking_script` (`connectors_a.rs`, lines 94–105 and 231–241): the keys
from the last to the first, each time dropping the digits that the check leaves. -/
def lockingProgram {K : Type} (size : WotsSize) (publicKeys : List K) : List (LockInstr K) :=
  (publicKeys.reverse.flatMap fun publicKey =>
    .checksigVerify publicKey :: .replicate (size.msgByteLen * 8 / 4) (.op .drop)) ++
    [.op (.int 1)]

namespace ConnectorA

variable {K S : Type} (env : GraphEnv) (wenv : WitnessEnv) (kind : WotsKind K S) (c : ConnectorA K)

def createLockingScript : ScriptBuf := kind.compile (lockingProgram kind.size c.publicKeys)

/-- The script of `create_taproot_address` (`connectors_a.rs`, lines 108–117 and 244–253). -/
def createTaprootAddress : ScriptBuf :=
  createTaprootAddr env c.network (.scriptSpend [c.createLockingScript kind])

/-- `generate_spend_info` and `create_spend_info` (`connectors_a.rs`, lines 120–136 and 256–272). -/
def generateSpendInfo : ScriptBuf × Bytes :=
  (c.createLockingScript kind,
    env.controlBlock env.unspendablePublicKey [c.createLockingScript kind]
      (c.createLockingScript kind))

/-- The stack of `finalize_input` (`connectors_a.rs`, lines 139–156 and 275–292). -/
def witnessStack (signatures : List S) : List Bytes :=
  wenv.finalStack (signatures.flatMap fun sig => wenv.signatureToRawWitness (kind.chains sig)) ++
    [(c.generateSpendInfo env kind).1, (c.generateSpendInfo env kind).2]

end ConnectorA

/-- `ConnectorA256Factory::create_connectors` (`connectors_a.rs`, lines 50–77). -/
def ConnectorA256Factory.createConnectors (f : ConnectorA256Factory) :
    List (ConnectorA Wots256PublicKey) × List (ConnectorA Wots256PublicKey) :=
  ((keyBatch f.publicKeys 0 numFieldElemsPerConnectorBatch1 numFieldConnectorsBatch1).map
      (ConnectorA.mk f.network),
    (keyBatch f.publicKeys (numFieldConnectorsBatch1 * numFieldElemsPerConnectorBatch1)
      numFieldElemsPerConnectorBatch2 numFieldConnectorsBatch2).map (ConnectorA.mk f.network))

/-- `ConnectorAHashFactory::create_connectors` (`connectors_a.rs`, lines 187–214). -/
def ConnectorAHashFactory.createConnectors (f : ConnectorAHashFactory) :
    List (ConnectorA Wots128PublicKey) × List (ConnectorA Wots128PublicKey) :=
  ((keyBatch f.publicKeys 0 numHashElemsPerConnectorBatch1 numHashConnectorsBatch1).map
      (ConnectorA.mk f.network),
    (keyBatch f.publicKeys (numHashConnectorsBatch1 * numHashElemsPerConnectorBatch1)
      numHashElemsPerConnectorBatch2 numHashConnectorsBatch2).map (ConnectorA.mk f.network))

def GraphEnv.withLockingScripts (env : GraphEnv) (wenv : WitnessEnv) : GraphEnv :=
  { env with
    connectorA256Script := fun keys => wenv.compile256 (lockingProgram .wots256 keys)
    connectorAHashScript := fun keys => wenv.compileHash (lockingProgram .wotsHash keys) }

/-! ### Finalizing -/

def Psbt.finalizeInput (psbt : Psbt) (stack : List Bytes) : Psbt :=
  { psbt with unsignedTx := psbt.unsignedTx.finalizeInput stack }

/-- The signature of the public input, then those of the field elements
(`assert_data.rs`, lines 166–170). -/
def Wots.Groth16Sigs.signatures256 (sigs : Wots.Groth16Sigs) : List Wots.Wots256Sig :=
  sigs.publicParams.get ⟨0, numPubs_pos⟩ :: sigs.fieldElems.toList

namespace AssertDataTxBatch

section Finalize

variable (env : GraphEnv) (wenv : WitnessEnv)

/-- The loop over a batch of connectors (`assert_data.rs`, lines 172–187, 191–206, 209–224 and
228–243): the connector with index `i` finalizes the transaction at `psbtOffset + i`, with the `n`
signatures from `sigsOffset + i * n` on. -/
def finalizeBatch {K S : Type} (kind : WotsKind K S) (connectors : List (ConnectorA K))
    (signatures : List S) (psbtOffset sigsOffset n : ℕ) (psbts : List Psbt) : List Psbt :=
  connectors.zipIdx.foldl (fun psbts conn =>
    psbts.modify (psbtOffset + conn.2) fun psbt =>
      psbt.finalizeInput (conn.1.witnessStack env wenv kind
        ((signatures.drop (sigsOffset + conn.2 * n)).take n))) psbts

/-- The four loops of `AssertDataTxBatch::finalize`. -/
def finalizePsbts (batch : List Psbt) (connectorAHash : ConnectorAHashFactory)
    (connectorA256 : ConnectorA256Factory) (sigs : Wots.Groth16Sigs) : List Psbt :=
  let (connector256Batch1, connector256Batch2) := connectorA256.createConnectors
  let (connectorHashBatch1, connectorHashBatch2) := connectorAHash.createConnectors
  let psbts := finalizeBatch env wenv wenv.wots256 connector256Batch1 sigs.signatures256 0 0
    numFieldElemsPerConnectorBatch1 batch
  let psbts := finalizeBatch env wenv wenv.wots256 connector256Batch2 sigs.signatures256
    numFieldConnectorsBatch1 (numFieldConnectorsBatch1 * numFieldElemsPerConnectorBatch1)
    numFieldElemsPerConnectorBatch2 psbts
  let psbts := finalizeBatch env wenv wenv.wotsHash connectorHashBatch1 sigs.hashes.toList
    (numFieldConnectorsBatch1 + numFieldConnectorsBatch2) 0 numHashElemsPerConnectorBatch1 psbts
  finalizeBatch env wenv wenv.wotsHash connectorHashBatch2 sigs.hashes.toList
    (numFieldConnectorsBatch1 + numFieldConnectorsBatch2 + numHashConnectorsBatch1)
    (numHashConnectorsBatch1 * numHashElemsPerConnectorBatch1) numHashElemsPerConnectorBatch2 psbts

/-- `AssertDataTxBatch::finalize` (`assert_data.rs`, lines 142–253). -/
def finalize (batch : Vector Psbt numAssertDataTx) (connectorAHash : ConnectorAHashFactory)
    (connectorA256 : ConnectorA256Factory) (sigs : Wots.Signatures) :
    MayPanic (Vector Transaction numAssertDataTx) := do
  let txs ← (finalizePsbts env wenv batch.toList connectorAHash connectorA256 sigs.groth16).mapM
    fun psbt => wenv.extractTx psbt.unsignedTx psbt.prevout
  match Wots.sized numAssertDataTx txs with
  | some txs => .ok txs
  | none => .error "called `Result::unwrap()` on an `Err` value"

end Finalize

/-! ### Parsing -/

section Parse

variable (wenv : WitnessEnv)

/-- The instruction that pushes an item, a single byte as a number (`assert_data.rs`, line 267). -/
def pushItem : Bytes → Op
  | [b] => .int b.toNat
  | item => .push item

/-- The script of an input without its last two items (`assert_data.rs`, lines 263–269). The
number of the others is computed in 64 bits. -/
def inputScript (witness : List Bytes) : MayPanic (List Op) :=
  if 2 ≤ witness.length then .ok ((witness.take (witness.length - 2)).map pushItem)
  else if wenv.overflowChecks then .error "attempt to subtract with overflow"
  else .ok ((witness.take (2 ^ 64 + witness.length - 2)).map pushItem)

/-- `parse_assertion_witnesses` (`parse_witness.rs`, lines 61–102). -/
def parseAssertionWitnesses (witness256Batch1 witness256Batch2 witnessHashBatch1
    witnessHashBatch2 : List (List Op)) : Outcome Unit String Wots.Groth16Sigs :=
  (Outcome.traverse (parseWots256Signatures wenv numFieldElemsPerConnectorBatch1)
    witness256Batch1).bind fun _ w256Batch1 =>
  (Outcome.traverse (parseWots256Signatures wenv numFieldElemsPerConnectorBatch2)
    witness256Batch2).bind fun _ w256Batch2 =>
  (Outcome.traverse (parseWotsHashSignatures wenv numHashElemsPerConnectorBatch1)
    witnessHashBatch1).bind fun _ wHashBatch1 =>
  (Outcome.traverse (parseWotsHashSignatures wenv numHashElemsPerConnectorBatch2)
    witnessHashBatch2).bind fun _ wHashBatch2 =>
  let w256 := w256Batch1.flatten ++ w256Batch2.flatten
  match Wots.sized numPubs (w256.take 1), Wots.sized numU256 (w256.drop 1),
    Wots.sized numHash (wHashBatch1.flatten ++ wHashBatch2.flatten) with
  | some publicParams, some fieldElems, some hashes =>
    .ok () ⟨publicParams, fieldElems, hashes⟩
  | _, _, _ => .panic "called `Result::unwrap()` on an `Err` value"

/-- `TOTAL_CONNECTORS` (`constants.rs`, lines 76–79). -/
def totalConnectors : ℕ :=
  numFieldConnectorsBatch1 + numFieldConnectorsBatch2 + numHashConnectorsBatch1 +
    numHashConnectorsBatch2

def witnesses (txs : List Transaction) : List (List Bytes) :=
  txs.flatMap fun tx => tx.input.map TxIn.witness

/-- `AssertDataTxBatch::parse_witnesses` (`assert_data.rs`, lines 256–314). -/
def parseWitnesses (txs : Vector Transaction numAssertDataTx) :
    Outcome Unit String Wots.Groth16Sigs :=
  match (witnesses txs.toList).mapM (inputScript wenv) with
  | .error msg => .panic msg
  | .ok scripts =>
    if scripts.length = totalConnectors then
      parseAssertionWitnesses wenv (scripts.take numFieldConnectorsBatch1)
        ((scripts.drop numFieldConnectorsBatch1).take numFieldConnectorsBatch2)
        ((scripts.drop (numFieldConnectorsBatch1 + numFieldConnectorsBatch2)).take
          numHashConnectorsBatch1)
        (scripts.drop (scripts.length - numHashConnectorsBatch2))
    else .err () "number of witnesses must be 39"

end Parse

end AssertDataTxBatch

/-! ### The locking scripts -/

structure Checksig (K : Type) where
  /-- `Wots::checksig_verify`. -/
  checksigVerify : K → Machine → Option Machine
  /-- The chains are a signature of the key. -/
  signs : K → List Bytes → Bool
  /-- The digits of the signed message, the top first. -/
  digits : List Bytes → List Bytes

namespace Checksig

variable {K : Type}

/-- What is assumed of `checksig_verify`: it takes the items of a signature from the stack, fails if
the signature is not one of the key, and leaves the digits of the message. -/
structure Correct (checks : Checksig K) (size : WotsSize) : Prop where
  length_digits : ∀ chains, size.Shaped chains →
    (checks.digits chains).length = size.msgByteLen * 8 / 4
  checksigVerify : ∀ key chains st alt, size.Shaped chains →
    checks.checksigVerify key (.top ((sigItems chains).reverse ++ st) alt) =
      if checks.signs key chains then some (.top (checks.digits chains ++ st) alt) else none

def exec (checks : Checksig K) (ctx : Spending) : LockInstr K → Machine → Option Machine
  | .checksigVerify publicKey => checks.checksigVerify publicKey
  | .op op => op.exec ctx

variable {checks : Checksig K} {size : WotsSize}

private theorem run_drops (ctx : Spending) {n : ℕ} {xs : List Bytes} (hn : xs.length = n)
    (st alt : List Bytes) :
    run (checks.exec ctx) (.replicate n (.op .drop)) (.top (xs ++ st) alt) =
      some (.top st alt) := by
  subst hn
  induction xs with
  | nil => rfl
  | cons x xs ih => exact ih

private theorem run_check (h : checks.Correct size) (ctx : Spending) (key : K)
    {chains : List Bytes} (hshape : size.Shaped chains) (st : List Bytes) :
    run (checks.exec ctx) (.checksigVerify key :: .replicate (size.msgByteLen * 8 / 4) (.op .drop))
        (.top ((sigItems chains).reverse ++ st) []) =
      if checks.signs key chains then some (.top st []) else none := by
  rw [run_cons, exec, h.checksigVerify key chains st [] hshape]
  split
  · exact run_drops ctx (h.length_digits chains hshape) st []
  · rfl

private theorem run_checks (h : checks.Correct size) (ctx : Spending) {keys : List K}
    {sigs : List (List Bytes)} (hlen : keys.length = sigs.length)
    (hshape : ∀ s ∈ sigs, size.Shaped s) :
    run (checks.exec ctx) (keys.flatMap fun key =>
        .checksigVerify key :: .replicate (size.msgByteLen * 8 / 4) (.op .drop))
        (.top (sigs.flatMap fun chains => (sigItems chains).reverse) []) = some (.top [] []) ∧
      List.Forall₂ (fun key chains => checks.signs key chains = true) keys sigs ∨
    run (checks.exec ctx) (keys.flatMap fun key =>
        .checksigVerify key :: .replicate (size.msgByteLen * 8 / 4) (.op .drop))
        (.top (sigs.flatMap fun chains => (sigItems chains).reverse) []) = none ∧
      ¬List.Forall₂ (fun key chains => checks.signs key chains = true) keys sigs := by
  induction keys generalizing sigs with
  | nil =>
    obtain rfl := length_eq_zero_iff.mp hlen.symm
    exact .inl ⟨rfl, .nil⟩
  | cons key keys ih =>
    obtain ⟨chains, sigs, rfl⟩ := exists_of_length_succ sigs hlen.symm
    rw [flatMap_cons, flatMap_cons, run_append,
      run_check h ctx key (hshape chains mem_cons_self), forall₂_cons]
    cases hsigns : checks.signs key chains with
    | false => exact .inr ⟨rfl, by simp⟩
    | true =>
      simp only [if_true, true_and]
      exact ih (Nat.succ.inj hlen) fun s hs => hshape s (mem_cons_of_mem chains hs)

/-- **The script pairs keys and signatures by their index.** It accepts the items of the signatures
exactly if each signature is one of the key with its index. -/
theorem run_lockingProgram (h : checks.Correct size) (ctx : Spending) {keys : List K}
    {sigs : List (List Bytes)} (hlen : keys.length = sigs.length)
    (hshape : ∀ s ∈ sigs, size.Shaped s) :
    run (checks.exec ctx) (lockingProgram size keys) (.top (sigs.flatMap sigItems).reverse []) =
        some (.top [ofBool true] []) ↔
      List.Forall₂ (fun key chains => checks.signs key chains = true) keys sigs := by
  have hstack : (sigs.flatMap sigItems).reverse =
      sigs.reverse.flatMap fun chains => (sigItems chains).reverse := reverse_flatMap ..
  have hlen' : keys.reverse.length = sigs.reverse.length := by simpa using hlen
  have hshape' : ∀ s ∈ sigs.reverse, size.Shaped s := fun s hs =>
    hshape s (mem_reverse.mp hs)
  rw [hstack, lockingProgram, run_append, ← forall₂_reverse_iff]
  rcases run_checks h ctx hlen' hshape' with ⟨hrun, hsigns⟩ | ⟨hrun, hsigns⟩
  · rw [hrun]
    exact ⟨fun _ => hsigns, fun _ => rfl⟩
  · rw [hrun]
    exact ⟨fun h => by simp at h, fun h => absurd h hsigns⟩

end Checksig

/-! ### Batches -/

variable {T : Type}

theorem length_keyBatch (l : List T) (offset size count : ℕ) :
    (keyBatch l offset size count).length = count := by
  simp [keyBatch]

theorem flatten_keyBatch (l : List T) (offset size count : ℕ) :
    (keyBatch l offset size count).flatten = (l.drop offset).take (count * size) := by
  induction count with
  | zero => simp [keyBatch]
  | succ count ih =>
    rw [Nat.succ_mul, take_add, ← ih, keyBatch, range_succ, map_append,
      flatten_append, map_singleton, flatten_singleton, drop_drop]
    rfl

theorem flatten_keyBatch_append {l : List T} {n c m d : ℕ} (hlen : l.length = c * n + d * m) :
    (keyBatch l 0 n c).flatten ++ (keyBatch l (c * n) m d).flatten = l := by
  rw [flatten_keyBatch, flatten_keyBatch, drop_zero,
    take_of_length_le (i := d * m) (by rw [length_drop]; omega), take_append_drop]

theorem length_of_mem_keyBatch {l s : List T} {offset size count : ℕ}
    (hlen : offset + count * size ≤ l.length) (hs : s ∈ keyBatch l offset size count) :
    s.length = size ∧ ∀ x ∈ s, x ∈ l := by
  obtain ⟨i, hi, rfl⟩ := mem_map.mp hs
  have hmul : i * size + size ≤ count * size := by
    rw [← Nat.succ_mul]
    exact Nat.mul_le_mul_right size (mem_range.mp hi)
  refine ⟨?_, fun x hx => mem_of_mem_drop (mem_of_mem_take hx)⟩
  rw [length_take, length_drop]
  omega

theorem zipIdx_keyBatch {U : Type} (f : List T → U) (l : List T) (offset size count : ℕ) :
    ((keyBatch l offset size count).map f).zipIdx =
      (range count).map fun i => (f ((l.drop (offset + i * size)).take size), i) := by
  refine ext_getElem (by simp [keyBatch]) fun i h₁ h₂ => ?_
  simp [keyBatch]

private theorem modify_length {P : Type} (f : P → P) (before : List P) (p : P) (rest : List P) :
    (before ++ p :: rest).modify before.length f = before ++ f p :: rest := by
  induction before with
  | nil => rfl
  | cons q before ih => exact congrArg (q :: ·) ih

theorem foldl_modify {P C : Type} (g : P → C → P) (index : C → ℕ) {cs : List C}
    {before rest : List P} {offset : ℕ}
    (hindex : ∀ k (hk : k < cs.length), before.length + k = offset + index cs[k])
    (hlen : cs.length ≤ rest.length) :
    cs.foldl (fun ps c => ps.modify (offset + index c) (g · c)) (before ++ rest) =
      before ++ (rest.zipWith g cs ++ rest.drop cs.length) := by
  induction cs generalizing before rest with
  | nil => simp
  | cons c cs ih =>
    obtain ⟨p, rest, rfl⟩ := exists_cons_of_length_pos
      (show 0 < rest.length from (Nat.succ_pos _).trans_le hlen)
    have hfirst : (before ++ p :: rest).modify (offset + index c) (g · c) =
        (before ++ [g p c]) ++ rest := by
      have hzero : before.length = offset + index c := hindex 0 (Nat.succ_pos _)
      rw [← hzero, modify_length, append_assoc, singleton_append]
    rw [foldl_cons, hfirst, ih _ (Nat.le_of_succ_le_succ hlen)]
    · simp
    · intro k hk
      have h := hindex (k + 1) (Nat.succ_lt_succ hk)
      rw [getElem_cons_succ] at h
      rw [length_append, length_singleton]
      omega

theorem zipWith_append_right {P W : Type} (f : P → W → P) {l : List P} {a b : List W}
    (h : a.length ≤ l.length) :
    l.zipWith f (a ++ b) = l.zipWith f a ++ (l.drop a.length).zipWith f b := by
  induction a generalizing l with
  | nil => simp
  | cons x a ih =>
    obtain ⟨p, l, rfl⟩ := exists_cons_of_length_pos
      (show 0 < l.length from (Nat.succ_pos _).trans_le h)
    simp [ih (Nat.le_of_succ_le_succ h)]

namespace AssertDataTxBatch

section Finalized

variable (env : GraphEnv) (wenv : WitnessEnv)

def batchStacks {K S : Type} (kind : WotsKind K S) (network : Network) (keys : List K)
    (sigs : List S) (offset n count : ℕ) : List (List Bytes) :=
  (range count).map fun i =>
    ConnectorA.witnessStack env wenv kind ⟨network, (keys.drop (offset + i * n)).take n⟩
      ((sigs.drop (offset + i * n)).take n)

/-- A batch of transactions of which the first ones are finalized with the given stacks. -/
def finalized (batch : List Psbt) (written : List (List Bytes)) : List Psbt :=
  batch.zipWith Psbt.finalizeInput written ++ batch.drop written.length

variable (connectorAHash : ConnectorAHashFactory) (connectorA256 : ConnectorA256Factory)

def allStacks (sigs : Wots.Groth16Sigs) : List (List Bytes) :=
  batchStacks env wenv wenv.wots256 connectorA256.network connectorA256.publicKeys
      sigs.signatures256 0 numFieldElemsPerConnectorBatch1 numFieldConnectorsBatch1 ++
    batchStacks env wenv wenv.wots256 connectorA256.network connectorA256.publicKeys
      sigs.signatures256 (numFieldConnectorsBatch1 * numFieldElemsPerConnectorBatch1)
      numFieldElemsPerConnectorBatch2 numFieldConnectorsBatch2 ++
    batchStacks env wenv wenv.wotsHash connectorAHash.network connectorAHash.publicKeys
      sigs.hashes.toList 0 numHashElemsPerConnectorBatch1 numHashConnectorsBatch1 ++
    batchStacks env wenv wenv.wotsHash connectorAHash.network connectorAHash.publicKeys
      sigs.hashes.toList (numHashConnectorsBatch1 * numHashElemsPerConnectorBatch1)
      numHashElemsPerConnectorBatch2 numHashConnectorsBatch2

@[simp] theorem length_batchStacks {K S : Type} (kind : WotsKind K S) (network : Network)
    (keys : List K) (sigs : List S) (offset n count : ℕ) :
    (batchStacks env wenv kind network keys sigs offset n count).length = count := by
  simp [batchStacks]

theorem length_allStacks (sigs : Wots.Groth16Sigs) :
    (allStacks env wenv connectorAHash connectorA256 sigs).length = numAssertDataTx := by
  simp only [allStacks, length_append, length_batchStacks]
  rfl

variable {env wenv}

/-- One loop of `finalize` goes on where the loops before it ended. -/
theorem finalizeBatch_finalized {K S : Type} {kind : WotsKind K S} {network : Network}
    {keys : List K} {sigs : List S} {offset n count psbtOffset : ℕ} {batch : List Psbt}
    {before : List (List Bytes)} (hoffset : psbtOffset = before.length)
    (hlen : before.length + count ≤ batch.length) :
    finalizeBatch env wenv kind ((keyBatch keys offset n count).map (ConnectorA.mk network)) sigs
        psbtOffset offset n (finalized batch before) =
      finalized batch (before ++ batchStacks env wenv kind network keys sigs offset n count) := by
  subst hoffset
  have hwritten : (batch.zipWith Psbt.finalizeInput before).length = before.length := by
    rw [length_zipWith]
    omega
  rw [finalizeBatch, zipIdx_keyBatch]
  obtain ⟨conns, hconns⟩ : ∃ conns, conns = (range count).map fun i =>
    (ConnectorA.mk network ((keys.drop (offset + i * n)).take n), i) := ⟨_, rfl⟩
  have hindex (k : ℕ) (hk : k < conns.length) :
      (batch.zipWith Psbt.finalizeInput before).length + k = before.length + conns[k].2 := by
    simp [hwritten, hconns]
  have hrest : conns.length ≤ (batch.drop before.length).length := by
    rw [hconns, length_map, length_range, length_drop]
    omega
  rw [← hconns]
  refine (foldl_modify (fun psbt (conn : ConnectorA K × ℕ) =>
    psbt.finalizeInput (conn.1.witnessStack env wenv kind
      ((sigs.drop (offset + conn.2 * n)).take n))) Prod.snd hindex hrest).trans ?_
  rw [finalized, zipWith_append_right _ (by omega), hconns, batchStacks,
    zipWith_map_right, zipWith_map_right]
  simp

/-- **The loops of `finalize`.** Each transaction gets the stack with its index. -/
theorem finalizePsbts_eq {batch : List Psbt} (hbatch : batch.length = numAssertDataTx)
    (connectorAHash : ConnectorAHashFactory) (connectorA256 : ConnectorA256Factory)
    (sigs : Wots.Groth16Sigs) :
    finalizePsbts env wenv batch connectorAHash connectorA256 sigs =
      batch.zipWith Psbt.finalizeInput (allStacks env wenv connectorAHash connectorA256 sigs) := by
  have hall : finalizePsbts env wenv batch connectorAHash connectorA256 sigs =
      finalized batch (allStacks env wenv connectorAHash connectorA256 sigs) := by
    have hnone : batch = finalized batch [] := by simp [finalized]
    rw [finalizePsbts]
    simp only [ConnectorA256Factory.createConnectors, ConnectorAHashFactory.createConnectors]
    nth_rewrite 1 [hnone]
    rw [finalizeBatch_finalized (by rfl) (by rw [hbatch]; decide),
      finalizeBatch_finalized (by simp) (by rw [hbatch]; simp; decide),
      finalizeBatch_finalized (by simp) (by rw [hbatch]; simp; decide),
      finalizeBatch_finalized (by simp [Nat.add_assoc]) (by rw [hbatch]; simp; decide),
      nil_append, allStacks]
  rw [hall, finalized, length_allStacks, ← hbatch, drop_length, append_nil]

end Finalized

/-! ### Extracted transactions -/

theorem mapM_eq_ok {α β : Type} {f : α → MayPanic β} {g : α → β} {l : List α}
    (h : ∀ a ∈ l, f a = .ok (g a)) : l.mapM f = .ok (l.map g) := by
  induction l with
  | nil => rfl
  | cons a l ih =>
    rw [mapM_cons, h a mem_cons_self, ih fun b hb => h b (mem_cons_of_mem a hb)]
    rfl

private theorem witnesses_finalized {batch : List Psbt} {written : List (List Bytes)}
    (hlen : written.length = batch.length)
    (hinput : ∀ psbt ∈ batch, ∃ input, psbt.unsignedTx.input = [input]) :
    witnesses ((batch.zipWith Psbt.finalizeInput written).map Psbt.unsignedTx) = written := by
  induction batch generalizing written with
  | nil =>
    obtain rfl := length_eq_zero_iff.mp hlen
    rfl
  | cons psbt batch ih =>
    obtain ⟨stack, written, rfl⟩ := exists_of_length_succ written hlen
    obtain ⟨input, hpsbt⟩ := hinput psbt mem_cons_self
    have hrest := ih (Nat.succ.inj hlen) fun q hq => hinput q (mem_cons_of_mem psbt hq)
    have hfirst : (psbt.finalizeInput stack).unsignedTx.input.map TxIn.witness = [stack] := by
      rw [Psbt.finalizeInput, Transaction.finalizeInput, hpsbt]
      rfl
    rw [witnesses] at hrest ⊢
    rw [zipWith_cons_cons, map_cons, flatMap_cons, hrest, hfirst]
    rfl

section Extract

variable {env : GraphEnv} {wenv : WitnessEnv} (henv : env.Taproot) (input : AssertDataTxInput)
  (a2 : ConnectorNOfN) (cpfp : ConnectorCpfp)

include henv

private theorem psbt_of_mem {psbt : Psbt}
    (hpsbt : psbt ∈ (AssertDataTxBatch.new env input a2 cpfp).toList) :
    (∃ txIn, psbt.unsignedTx.input = [txIn]) ∧
      totalValue psbt.unsignedTx.output = psbt.prevout.value := by
  obtain ⟨i, hi, rfl⟩ := Vector.mem_iff_getElem.mp (Vector.mem_toList_iff.mp hpsbt)
  have hnew : AssertDataTxBatch.new env input a2 cpfp = _ := rfl
  have hin := AssertDataTxBatch.input_of_new hnew ⟨i, hi⟩
  obtain ⟨hout, hprevout⟩ := AssertDataTxBatch.of_new henv hnew ⟨i, hi⟩
  have hget : (AssertDataTxBatch.new env input a2 cpfp)[i] =
      (AssertDataTxBatch.new env input a2 cpfp).get ⟨i, hi⟩ := rfl
  rw [hget, hout, hprevout]
  refine ⟨?_, by simp [totalValue]; omega⟩
  obtain ⟨txIn, rest, hcons⟩ : ∃ txIn rest,
      ((AssertDataTxBatch.new env input a2 cpfp).get ⟨i, hi⟩).unsignedTx.input = txIn :: rest := by
    refine exists_cons_of_ne_nil fun hnil => ?_
    rw [hnil] at hin
    cases hin
  rw [hcons, map_cons, cons.injEq, map_eq_nil_iff] at hin
  exact ⟨txIn, by rw [hcons, hin.2]⟩

/-- **What `finalize` returns.** Transaction by transaction, the batch with the stacks. -/
theorem finalize_returns (hextracts : wenv.Extracts) (connectorAHash : ConnectorAHashFactory)
    (connectorA256 : ConnectorA256Factory) (sigs : Wots.Signatures) :
    ∃ txs, finalize env wenv (AssertDataTxBatch.new env input a2 cpfp) connectorAHash connectorA256
        sigs = .ok txs ∧
      witnesses txs.toList = allStacks env wenv connectorAHash connectorA256 sigs.groth16 ∧
      ∀ i : Fin numAssertDataTx, ∃ stack,
        (allStacks env wenv connectorAHash connectorA256 sigs.groth16)[i.val]? = some stack ∧
        txs.get i = ((AssertDataTxBatch.new env input a2 cpfp).get i).unsignedTx.finalizeInput
          stack := by
  obtain ⟨batch, hbatch⟩ : ∃ batch, batch = (AssertDataTxBatch.new env input a2 cpfp).toList :=
    ⟨_, rfl⟩
  obtain ⟨written, hwritten⟩ : ∃ written,
    written = allStacks env wenv connectorAHash connectorA256 sigs.groth16 := ⟨_, rfl⟩
  have hlen : batch.length = numAssertDataTx := by rw [hbatch, Vector.length_toList]
  have hlen' : written.length = batch.length := by rw [hlen, hwritten, length_allStacks]
  have hpsbt : ∀ psbt ∈ batch, (∃ txIn, psbt.unsignedTx.input = [txIn]) ∧
      totalValue psbt.unsignedTx.output = psbt.prevout.value := fun psbt h =>
    psbt_of_mem henv input a2 cpfp (hbatch ▸ h)
  have hextract : ∀ psbt ∈ batch.zipWith Psbt.finalizeInput written,
      wenv.extractTx psbt.unsignedTx psbt.prevout = .ok psbt.unsignedTx := by
    intro psbt h
    obtain ⟨k, hk, rfl⟩ := mem_iff_getElem.mp h
    rw [getElem_zipWith]
    exact hextracts _ _ (hpsbt _ (getElem_mem _)).2
  have hsized : ((batch.zipWith Psbt.finalizeInput written).map Psbt.unsignedTx).length =
      numAssertDataTx := by
    rw [length_map, length_zipWith, hlen', Nat.min_self, hlen]
  have hfinalize : finalize env wenv (AssertDataTxBatch.new env input a2 cpfp) connectorAHash
      connectorA256 sigs =
      .ok ⟨((batch.zipWith Psbt.finalizeInput written).map Psbt.unsignedTx).toArray,
        by simpa using hsized⟩ := by
    rw [finalize, ← hbatch, finalizePsbts_eq hlen, ← hwritten, mapM_eq_ok hextract]
    change (match Wots.sized numAssertDataTx ((batch.zipWith Psbt.finalizeInput written).map
      Psbt.unsignedTx) with
      | some txs => Except.ok txs
      | none => _) = _
    rw [Wots.sized, dif_pos hsized]
  refine ⟨_, hfinalize, ?_, fun i => ?_⟩
  · rw [← hwritten]
    exact witnesses_finalized hlen' fun psbt h => (hpsbt psbt h).1
  · have hi : i.val < batch.length := by
      rw [hlen]
      exact i.isLt
    have hi' : i.val < written.length := by
      rw [hlen']
      exact hi
    rw [← hwritten]
    refine ⟨written[i.val], getElem?_eq_getElem hi', ?_⟩
    have hget : batch[i.val] = (AssertDataTxBatch.new env input a2 cpfp).get i := by
      simp [hbatch, Vector.get]
    rw [← hget]
    simp [Vector.get, Psbt.finalizeInput]

end Extract

/-! ### Parsed transactions -/

section Parsed

variable {env : GraphEnv} {wenv : WitnessEnv} {K S : Type} {kind : WotsKind K S}

def sigsScript (kind : WotsKind K S) (sigs : List S) : List Op :=
  ((sigs.map kind.chains).flatMap sigItems).map .push

private def scriptOf (stack : List Bytes) : List Op :=
  (stack.take (stack.length - 2)).map pushItem

/-- The scripts of stacks that hold more than a script and a control block. -/
private structure Scripts (ws : List (List Bytes)) (scripts : List (List Op)) : Prop where
  long : ∀ w ∈ ws, 2 ≤ w.length
  map_eq : ws.map scriptOf = scripts

private theorem Scripts.append {ws ws' : List (List Bytes)} {scripts scripts' : List (List Op)}
    (h : Scripts ws scripts) (h' : Scripts ws' scripts') :
    Scripts (ws ++ ws') (scripts ++ scripts') :=
  ⟨forall_mem_append.mpr ⟨h.long, h'.long⟩, by rw [map_append, h.map_eq, h'.map_eq]⟩

private theorem pushItem_scriptInt (d : UInt8) :
    pushItem (scriptInt d.toNat) = .push (scriptInt d.toNat) := by
  have hall : ∀ n < 256, pushItem (scriptInt (n : ℕ)) = .push (scriptInt (n : ℕ)) := by
    decide +kernel
  exact hall d.toNat d.toNat_lt

private theorem map_pushItem_sigItems {chains : List Bytes} (h : ∀ c ∈ chains, c.length = 21) :
    (sigItems chains).map pushItem = (sigItems chains).map .push := by
  refine map_congr_left fun item hitem => ?_
  obtain ⟨c, hc, hitem⟩ := mem_flatMap.mp hitem
  rcases mem_cons.mp hitem with rfl | hitem
  · have hlen : (c.take 20).length = 20 := by
      rw [length_take, h c hc]
      rfl
    obtain ⟨a, b, rest, habc⟩ : ∃ a b rest, c.take 20 = a :: b :: rest := by
      obtain ⟨a, l, hl⟩ := exists_of_length_succ _ hlen
      rw [hl] at hlen
      obtain ⟨b, rest, rfl⟩ := exists_of_length_succ _ (Nat.succ.inj hlen)
      exact ⟨a, b, rest, hl⟩
    rw [habc, pushItem]
    simp
  · obtain rfl := mem_singleton.mp hitem
    exact pushItem_scriptInt _

variable (hpushes : wenv.Pushes)

include hpushes

variable {sigs : List S}

theorem witnessStack_eq (c : ConnectorA K) (hshape : ∀ s ∈ sigs, kind.size.Shaped (kind.chains s))
    (hfit : sigs.length * (2 * kind.size.totalDigitLen) ≤ 1000) :
    c.witnessStack env wenv kind sigs = (sigs.map kind.chains).flatMap sigItems ++
      [(c.generateSpendInfo env kind).1, (c.generateSpendInfo env kind).2] := by
  have hitems : ((sigs.map kind.chains).flatMap sigItems).length ≤ 1000 := by
    rw [length_flatMap_const fun chains hchains => ?_, length_map]
    · exact hfit
    · obtain ⟨s, hs, rfl⟩ := mem_map.mp hchains
      rw [length_sigItems, (hshape s hs).length]
  have h := hpushes.finalStack_signatures hitems
  rw [flatMap_map] at h
  rw [ConnectorA.witnessStack, h]

private theorem scriptOf_witnessStack (c : ConnectorA K)
    (hshape : ∀ s ∈ sigs, kind.size.Shaped (kind.chains s))
    (hfit : sigs.length * (2 * kind.size.totalDigitLen) ≤ 1000) :
    2 ≤ (c.witnessStack env wenv kind sigs).length ∧
      scriptOf (c.witnessStack env wenv kind sigs) = sigsScript kind sigs := by
  rw [scriptOf, witnessStack_eq hpushes c hshape hfit]
  refine ⟨by simp, ?_⟩
  have htake (items : List Bytes) (a b : Bytes) :
      (items ++ [a, b]).take ((items ++ [a, b]).length - 2) = items := by
    simp
  rw [htake, sigsScript, map_flatMap, map_flatMap]
  refine flatMap_congr fun chains hchains => ?_
  obtain ⟨s, hs, rfl⟩ := mem_map.mp hchains
  exact map_pushItem_sigItems (hshape s hs).chain

private theorem parseSignatures_sigsScript (kind : WotsKind K S) {n : ℕ} (hn : sigs.length = n)
    (hshape : ∀ s ∈ sigs, kind.size.Shaped (kind.chains s))
    (hfit : n * (2 * kind.size.totalDigitLen) ≤ 1000) :
    parseSignatures wenv kind.size n (sigsScript kind sigs) = .ok () (sigs.map kind.chains) := by
  have hshape' : ∀ chains ∈ sigs.map kind.chains, kind.size.Shaped chains := by
    intro chains hchains
    obtain ⟨s, hs, rfl⟩ := mem_map.mp hchains
    exact hshape s hs
  refine parseSignatures_items (by rw [length_map, hn]) hshape' (hpushes.finalStack_items ?_)
  rw [length_flatMap_const fun chains hchains => ?_, length_map, hn]
  · exact hfit
  · rw [length_sigItems, (hshape' chains hchains).length]

theorem scripts_batchStacks {network : Network} {keys : List K} {offset n count : ℕ}
    (hlen : offset + count * n ≤ sigs.length)
    (hshape : ∀ s ∈ sigs, kind.size.Shaped (kind.chains s))
    (hfit : n * (2 * kind.size.totalDigitLen) ≤ 1000) :
    Scripts (batchStacks env wenv kind network keys sigs offset n count)
      ((keyBatch sigs offset n count).map (sigsScript kind)) := by
  have hslice (i : ℕ) (hi : i ∈ range count) :
      2 ≤ (ConnectorA.witnessStack env wenv kind ⟨network, (keys.drop (offset + i * n)).take n⟩
          ((sigs.drop (offset + i * n)).take n)).length ∧
        scriptOf (ConnectorA.witnessStack env wenv kind
          ⟨network, (keys.drop (offset + i * n)).take n⟩ ((sigs.drop (offset + i * n)).take n)) =
          sigsScript kind ((sigs.drop (offset + i * n)).take n) := by
    have hmem : (sigs.drop (offset + i * n)).take n ∈ keyBatch sigs offset n count :=
      mem_map.mpr ⟨i, hi, rfl⟩
    obtain ⟨hslen, hsub⟩ := length_of_mem_keyBatch hlen hmem
    exact scriptOf_witnessStack hpushes _ (fun s hs => hshape s (hsub s hs)) (by rwa [hslen])
  constructor
  · intro stack hstack
    obtain ⟨i, hi, rfl⟩ := mem_map.mp hstack
    exact (hslice i hi).1
  · rw [batchStacks, keyBatch, map_map, map_map]
    exact map_congr_left fun i hi => (hslice i hi).2

theorem traverse_parse (kind : WotsKind K S)
    (parse : List Op → Outcome Unit String (List S)) {mk : List Bytes → S} {n : ℕ}
    (hparse : ∀ script, parse script = (parseSignatures wenv kind.size n script).map (map mk))
    (hmk : ∀ s, mk (kind.chains s) = s) {offset count : ℕ} (hlen : offset + count * n ≤ sigs.length)
    (hshape : ∀ s ∈ sigs, kind.size.Shaped (kind.chains s))
    (hfit : n * (2 * kind.size.totalDigitLen) ≤ 1000) :
    Outcome.traverse parse ((keyBatch sigs offset n count).map (sigsScript kind)) =
      .ok () (keyBatch sigs offset n count) := by
  rw [Outcome.traverse_map, Outcome.traverse_eq_ok (g := id), map_id]
  intro slice hslice
  obtain ⟨hslen, hsub⟩ := length_of_mem_keyBatch hlen hslice
  rw [hparse, parseSignatures_sigsScript hpushes kind hslen (fun s hs => hshape s (hsub s hs)) hfit,
    Outcome.map_ok, map_map]
  exact congrArg _ ((map_congr_left fun s _ => hmk s).trans (map_id slice))

end Parsed

end AssertDataTxBatch

structure Wots.Groth16Sigs.Shaped (sigs : Wots.Groth16Sigs) : Prop where
  signatures256 : ∀ s ∈ sigs.signatures256, WotsSize.wots256.Shaped s.chains
  hashes : ∀ s ∈ sigs.hashes.toList, WotsSize.wotsHash.Shaped s.chains

private theorem sized_toList {n : ℕ} (v : Vector T n) : Wots.sized n v.toList = some v := by
  rw [Wots.sized, dif_pos v.length_toList]
  rfl

namespace AssertDataTxBatch

theorem length_signatures256 (sigs : Wots.Groth16Sigs) : sigs.signatures256.length = 15 := by
  rw [Wots.Groth16Sigs.signatures256, length_cons, Vector.length_toList]
  rfl

private theorem take_signatures256 (sigs : Wots.Groth16Sigs) :
    sigs.signatures256.take 1 = sigs.publicParams.toList := by
  obtain ⟨p, hp⟩ := length_eq_one_iff.mp (sigs.publicParams.length_toList.trans (rfl : numPubs = 1))
  have hget : sigs.publicParams.get ⟨0, by decide⟩ = p := by
    have h : sigs.publicParams.toList[0]? = some p := by rw [hp]; rfl
    rw [Vector.getElem?_toList] at h
    exact Option.some.inj h
  rw [Wots.Groth16Sigs.signatures256, hget, hp]
  rfl

theorem parseWitnesses_eq {wenv : WitnessEnv} {txs : Vector Transaction numAssertDataTx}
    {w x y z : List (List Op)}
    (h : (witnesses txs.toList).mapM (inputScript wenv) = .ok (w ++ x ++ y ++ z))
    (hw : w.length = numFieldConnectorsBatch1) (hx : x.length = numFieldConnectorsBatch2)
    (hy : y.length = numHashConnectorsBatch1) (hz : z.length = numHashConnectorsBatch2) :
    parseWitnesses wenv txs = parseAssertionWitnesses wenv w x y z := by
  have hlen : (w ++ x ++ y ++ z).length = totalConnectors := by
    rw [length_append, length_append, length_append, hw, hx, hy, hz]
    rfl
  have h₁ : (w ++ x ++ y ++ z).take numFieldConnectorsBatch1 = w := by
    rw [← hw, append_assoc w, append_assoc w, take_left]
  have h₂ : ((w ++ x ++ y ++ z).drop numFieldConnectorsBatch1).take numFieldConnectorsBatch2 =
      x := by
    rw [← hw, append_assoc w, append_assoc w, drop_left, ← hx, append_assoc, take_left]
  have h₃ : ((w ++ x ++ y ++ z).drop (numFieldConnectorsBatch1 + numFieldConnectorsBatch2)).take
      numHashConnectorsBatch1 = y := by
    rw [← hw, ← hx, ← length_append, append_assoc (w ++ x), drop_left, ← hy, take_left]
  have h₄ : (w ++ x ++ y ++ z).drop ((w ++ x ++ y ++ z).length - numHashConnectorsBatch2) = z := by
    rw [length_append, ← hz, Nat.add_sub_cancel, drop_left]
  rw [parseWitnesses, h]
  simp only
  rw [if_pos hlen, h₁, h₂, h₃, h₄]

section RoundTrip

private theorem fits256 :
    numFieldElemsPerConnectorBatch1 * (2 * WotsSize.wots256.totalDigitLen) ≤ 1000 ∧
      numFieldElemsPerConnectorBatch2 * (2 * WotsSize.wots256.totalDigitLen) ≤ 1000 := by decide

private theorem fitsHash :
    numHashElemsPerConnectorBatch1 * (2 * WotsSize.wotsHash.totalDigitLen) ≤ 1000 ∧
      numHashElemsPerConnectorBatch2 * (2 * WotsSize.wotsHash.totalDigitLen) ≤ 1000 := by decide

private abbrev fieldScripts (wenv : WitnessEnv) (sigs : Wots.Groth16Sigs) (offset n count : ℕ) :
    List (List Op) :=
  (keyBatch sigs.signatures256 offset n count).map (sigsScript wenv.wots256)

private abbrev hashScripts (wenv : WitnessEnv) (sigs : Wots.Groth16Sigs) (offset n count : ℕ) :
    List (List Op) :=
  (keyBatch sigs.hashes.toList offset n count).map (sigsScript wenv.wotsHash)

variable {env : GraphEnv} {wenv : WitnessEnv} (hpushes : wenv.Pushes)

include hpushes

variable {sigs : Wots.Groth16Sigs}

private theorem parseAssertionWitnesses_sigsScript (hsigs : sigs.Shaped) :
    parseAssertionWitnesses wenv
      (fieldScripts wenv sigs 0 numFieldElemsPerConnectorBatch1 numFieldConnectorsBatch1)
      (fieldScripts wenv sigs (numFieldConnectorsBatch1 * numFieldElemsPerConnectorBatch1)
        numFieldElemsPerConnectorBatch2 numFieldConnectorsBatch2)
      (hashScripts wenv sigs 0 numHashElemsPerConnectorBatch1 numHashConnectorsBatch1)
      (hashScripts wenv sigs (numHashConnectorsBatch1 * numHashElemsPerConnectorBatch1)
        numHashElemsPerConnectorBatch2 numHashConnectorsBatch2) = .ok () sigs := by
  have hlen256 := length_signatures256 sigs
  have hlenHash : sigs.hashes.toList.length = 363 := sigs.hashes.length_toList
  rw [parseAssertionWitnesses,
    traverse_parse hpushes wenv.wots256 (parseWots256Signatures wenv _) (fun _ => rfl)
      (fun _ => rfl) (by rw [hlen256]; decide) hsigs.signatures256 fits256.1, Outcome.bind_ok,
    traverse_parse hpushes wenv.wots256 (parseWots256Signatures wenv _) (fun _ => rfl)
      (fun _ => rfl) (by rw [hlen256]; decide) hsigs.signatures256 fits256.2, Outcome.bind_ok,
    traverse_parse hpushes wenv.wotsHash (parseWotsHashSignatures wenv _) (fun _ => rfl)
      (fun _ => rfl) (by rw [hlenHash]; decide) hsigs.hashes fitsHash.1, Outcome.bind_ok,
    traverse_parse hpushes wenv.wotsHash (parseWotsHashSignatures wenv _) (fun _ => rfl)
      (fun _ => rfl) (by rw [hlenHash]; decide) hsigs.hashes fitsHash.2, Outcome.bind_ok]
  simp only
  rw [flatten_keyBatch_append (by rw [hlen256]; decide),
    flatten_keyBatch_append (by rw [hlenHash]; decide), take_signatures256,
    show sigs.signatures256.drop 1 = sigs.fieldElems.toList from rfl, sized_toList, sized_toList,
    sized_toList]

private theorem scripts_allStacks (env : GraphEnv) (aHash : ConnectorAHashFactory)
    (a256 : ConnectorA256Factory) (hsigs : sigs.Shaped) :
    Scripts (allStacks env wenv aHash a256 sigs)
      (fieldScripts wenv sigs 0 numFieldElemsPerConnectorBatch1 numFieldConnectorsBatch1 ++
        fieldScripts wenv sigs (numFieldConnectorsBatch1 * numFieldElemsPerConnectorBatch1)
          numFieldElemsPerConnectorBatch2 numFieldConnectorsBatch2 ++
        hashScripts wenv sigs 0 numHashElemsPerConnectorBatch1 numHashConnectorsBatch1 ++
        hashScripts wenv sigs (numHashConnectorsBatch1 * numHashElemsPerConnectorBatch1)
          numHashElemsPerConnectorBatch2 numHashConnectorsBatch2) := by
  have hlen256 := length_signatures256 sigs
  have hlenHash : sigs.hashes.toList.length = 363 := sigs.hashes.length_toList
  refine .append (.append (.append ?_ ?_) ?_) ?_
  · exact scripts_batchStacks hpushes (by rw [hlen256]; decide) hsigs.signatures256 fits256.1
  · exact scripts_batchStacks hpushes (by rw [hlen256]; decide) hsigs.signatures256 fits256.2
  · exact scripts_batchStacks hpushes (by rw [hlenHash]; decide) hsigs.hashes fitsHash.1
  · exact scripts_batchStacks hpushes (by rw [hlenHash]; decide) hsigs.hashes fitsHash.2

/-- **Signatures are read back from the stacks that `finalize` writes.** -/
theorem parseWitnesses_of_witnesses {aHash : ConnectorAHashFactory} {a256 : ConnectorA256Factory}
    (hsigs : sigs.Shaped) {txs : Vector Transaction numAssertDataTx}
    (hwitnesses : witnesses txs.toList = allStacks env wenv aHash a256 sigs) :
    parseWitnesses wenv txs = .ok () sigs := by
  obtain ⟨hlong, hscripts⟩ := scripts_allStacks hpushes env aHash a256 hsigs
  have hmapM : (witnesses txs.toList).mapM (inputScript wenv) =
      .ok ((allStacks env wenv aHash a256 sigs).map scriptOf) := by
    rw [hwitnesses]
    exact mapM_eq_ok fun stack hstack => if_pos (hlong stack hstack)
  rw [hscripts] at hmapM
  rw [parseWitnesses_eq hmapM, parseAssertionWitnesses_sigsScript hpushes hsigs]
  all_goals rw [length_map, length_keyBatch]

end RoundTrip

end AssertDataTxBatch

end StrataBridge
