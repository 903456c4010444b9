import StrataBridge.TxGraph.AssertWitness

/-!
# Signatures from the pre-assert to the parsed proof

The connectors whose addresses lock the outputs of a pre-assert are those that finalize the
assert-data transactions, in the same order, and the parser undoes what `finalize` did. Parsing
of other transactions may panic: the parsers look into witnesses at places that they have not
checked to be there.

## References

* `crates/connectors/src/connectors_a.rs`
* `crates/tx-graph/src/transactions/assert_data.rs`, lines 139–314,
  `crates/tx-graph/src/transactions/pre_assert.rs`, lines 91–137,
  `crates/tx-graph/src/transactions/claim.rs`, lines 141–194
-/

namespace StrataBridge

open Rust Script
open List hiding Vector

variable {size : WotsSize} {scripts : List (List Op)}

/-- A connector locks an output and finalizes the transaction that spends it: the witness reveals
the script of the connector, the output has the address of that script, and the script accepts the
other items of the witness exactly if the `j`-th signature is one of the `j`-th key, for all `j`. -/
def FinalizedBy {K S : Type} (env : GraphEnv) (kind : WotsKind K S) (checks : Checksig K)
    (c : ConnectorA K) (signatures : List S) (output : TxOut) (tx : Transaction) : Prop :=
  ∃ items controlBlock,
    tx.input.map TxIn.witness = [items ++ [c.createLockingScript kind, controlBlock]] ∧
    output.scriptPubkey = createTaprootAddr env c.network
      (.scriptSpend [c.createLockingScript kind]) ∧
    ∀ ctx, run (checks.exec ctx) (lockingProgram kind.size c.publicKeys) (.top items.reverse []) =
      some (.top [ofBool true] []) ↔
        List.Forall₂ (fun key sig => checks.signs key (kind.chains sig) = true) c.publicKeys
          signatures

namespace AssertDataTxBatch

/-! ### Connectors and outputs -/

def connectors256 (f : ConnectorA256Factory) : List (ConnectorA Wots256PublicKey) :=
  f.createConnectors.1 ++ f.createConnectors.2

def connectorsHash (f : ConnectorAHashFactory) : List (ConnectorA Wots128PublicKey) :=
  f.createConnectors.1 ++ f.createConnectors.2

def slices256 (sigs : Wots.Groth16Sigs) : List (List Wots.Wots256Sig) :=
  keyBatch sigs.signatures256 0 numFieldElemsPerConnectorBatch1 numFieldConnectorsBatch1 ++
    keyBatch sigs.signatures256 (numFieldConnectorsBatch1 * numFieldElemsPerConnectorBatch1)
      numFieldElemsPerConnectorBatch2 numFieldConnectorsBatch2

def slicesHash (sigs : Wots.Groth16Sigs) : List (List Wots.Wots128Sig) :=
  keyBatch sigs.hashes.toList 0 numHashElemsPerConnectorBatch1 numHashConnectorsBatch1 ++
    keyBatch sigs.hashes.toList (numHashConnectorsBatch1 * numHashElemsPerConnectorBatch1)
      numHashElemsPerConnectorBatch2 numHashConnectorsBatch2

section Align

variable {env : GraphEnv} {wenv : WitnessEnv} {K S : Type} {kind : WotsKind K S}

theorem batchStacks_eq_zipWith (network : Network) (keys : List K) (sigs : List S)
    (offset n count : ℕ) :
    batchStacks env wenv kind network keys sigs offset n count =
      zipWith (fun c s => ConnectorA.witnessStack env wenv kind c s)
        ((keyBatch keys offset n count).map (ConnectorA.mk network))
        (keyBatch sigs offset n count) := by
  refine ext_getElem (by simp [batchStacks, keyBatch]) fun i h₁ h₂ => ?_
  simp [batchStacks, keyBatch]

/-- **Connector by connector.** The stacks of `finalize`, in the order of the transactions. -/
theorem allStacks_eq (aHash : ConnectorAHashFactory) (a256 : ConnectorA256Factory)
    (sigs : Wots.Groth16Sigs) :
    allStacks env wenv aHash a256 sigs =
      zipWith (fun c s => ConnectorA.witnessStack env wenv wenv.wots256 c s)
          (connectors256 a256) (slices256 sigs) ++
        zipWith (fun c s => ConnectorA.witnessStack env wenv wenv.wotsHash c s)
          (connectorsHash aHash) (slicesHash sigs) := by
  rw [allStacks, batchStacks_eq_zipWith, batchStacks_eq_zipWith, batchStacks_eq_zipWith,
    batchStacks_eq_zipWith, append_assoc, ← zipWith_append, ← zipWith_append]
  · rfl
  all_goals simp [length_keyBatch]

/-- **Output by output.** The scripts of a pre-assert are the addresses of the connectors. -/
theorem scripts_eq (aHash : ConnectorAHashFactory) (a256 : ConnectorA256Factory) :
    PreAssertTx.scripts (env.withLockingScripts wenv) a256 aHash =
      (connectors256 a256).map
          (ConnectorA.createTaprootAddress (env.withLockingScripts wenv) wenv.wots256) ++
        (connectorsHash aHash).map
          (ConnectorA.createTaprootAddress (env.withLockingScripts wenv) wenv.wotsHash) := by
  simp only [PreAssertTx.scripts, ConnectorA256Factory.lockingScripts,
    ConnectorAHashFactory.lockingScripts, connectors256, connectorsHash,
    ConnectorA256Factory.createConnectors, ConnectorAHashFactory.createConnectors,
    map_append, map_map]
  rfl

@[simp] theorem length_connectors256 (f : ConnectorA256Factory) :
    (connectors256 f).length = 3 := by
  simp [connectors256, ConnectorA256Factory.createConnectors, length_keyBatch,
    numFieldConnectorsBatch1, numFieldConnectorsBatch2]

@[simp] theorem length_connectorsHash (f : ConnectorAHashFactory) :
    (connectorsHash f).length = 36 := by
  simp [connectorsHash, ConnectorAHashFactory.createConnectors, length_keyBatch,
    numHashConnectorsBatch1, numHashConnectorsBatch2]

@[simp] theorem length_slices256 (sigs : Wots.Groth16Sigs) : (slices256 sigs).length = 3 := by
  simp [slices256, length_keyBatch, numFieldConnectorsBatch1, numFieldConnectorsBatch2]

@[simp] theorem length_slicesHash (sigs : Wots.Groth16Sigs) : (slicesHash sigs).length = 36 := by
  simp [slicesHash, length_keyBatch, numHashConnectorsBatch1, numHashConnectorsBatch2]

private theorem slices_match {T U : Type} {l : List T} {l' : List U} {network : Network}
    {n c m d i : ℕ} {conn : ConnectorA T} {y : List U}
    (hconn : ((keyBatch l 0 n c).map (ConnectorA.mk network) ++
      (keyBatch l (c * n) m d).map (ConnectorA.mk network))[i]? = some conn)
    (hy : (keyBatch l' 0 n c ++ keyBatch l' (c * n) m d)[i]? = some y)
    (hlen : l.length = c * n + d * m) (hlen' : l'.length = c * n + d * m) :
    conn.publicKeys.length = y.length ∧ (y.length = n ∨ y.length = m) ∧ ∀ s ∈ y, s ∈ l' := by
  rw [← map_append, getElem?_map] at hconn
  obtain ⟨x, hx, rfl⟩ := Option.map_eq_some_iff.mp hconn
  rcases Nat.lt_or_ge i c with hi | hi
  · rw [getElem?_append_left (by rwa [length_keyBatch])] at hx hy
    obtain ⟨hx', -⟩ := length_of_mem_keyBatch (by omega) (mem_of_getElem? hx)
    obtain ⟨hy', hsub⟩ := length_of_mem_keyBatch (by omega) (mem_of_getElem? hy)
    exact ⟨hx'.trans hy'.symm, .inl hy', hsub⟩
  · rw [getElem?_append_right (by rwa [length_keyBatch])] at hx hy
    obtain ⟨hx', -⟩ := length_of_mem_keyBatch hlen.ge (mem_of_getElem? hx)
    obtain ⟨hy', hsub⟩ := length_of_mem_keyBatch hlen'.ge (mem_of_getElem? hy)
    exact ⟨hx'.trans hy'.symm, .inr hy', hsub⟩

theorem finalizedBy_of {checks : Checksig K} (hchecks : checks.Correct kind.size)
    (hpushes : wenv.Pushes) {c : ConnectorA K} {sigs : List S} {output : TxOut} {tx : Transaction}
    (hlen : c.publicKeys.length = sigs.length)
    (hshape : ∀ s ∈ sigs, kind.size.Shaped (kind.chains s))
    (hfit : sigs.length * (2 * kind.size.totalDigitLen) ≤ 1000)
    (haddress : output.scriptPubkey = c.createTaprootAddress env kind)
    (hwitness : tx.input.map TxIn.witness = [c.witnessStack env wenv kind sigs]) :
    FinalizedBy env kind checks c sigs output tx := by
  refine ⟨(sigs.map kind.chains).flatMap sigItems, (c.generateSpendInfo env kind).2, ?_, haddress,
    fun ctx => ?_⟩
  · rw [hwitness, witnessStack_eq hpushes c hshape hfit]
    rfl
  · rw [Checksig.run_lockingProgram hchecks ctx (by rw [length_map, hlen]), forall₂_map_right_iff]
    intro chains hchains
    obtain ⟨s, hs, rfl⟩ := mem_map.mp hchains
    exact hshape s hs

end Align

end AssertDataTxBatch

open AssertDataTxBatch

theorem GraphEnv.Taproot.withLockingScripts {env : GraphEnv} (h : env.Taproot) (wenv : WitnessEnv) :
    (env.withLockingScripts wenv).Taproot :=
  ⟨h.taproot, h.tweaked, h.nonDust⟩

private theorem finalizeInput_input {tx : Transaction} {outpoint : OutPoint}
    (h : tx.input.map TxIn.previousOutput = [outpoint]) (stack : List Bytes) :
    (tx.finalizeInput stack).input.map TxIn.previousOutput = [outpoint] ∧
      (tx.finalizeInput stack).input.map TxIn.witness = [stack] := by
  obtain ⟨txIn, hinput, rfl⟩ : ∃ txIn, tx.input = [txIn] ∧ txIn.previousOutput = outpoint := by
    simpa using h
  rw [Transaction.finalizeInput, hinput]
  exact ⟨rfl, rfl⟩

/-- **From the pre-assert to the parsed proof.** `finalize` returns the assert-data transactions of
an assert chain, and the parser reads the signatures from them, each in its position. The
transaction with index `i` spends the output of the pre-assert with that index, and the connector
that finalizes it is the one whose address locks that output: its script pairs its keys and its
signatures by their index. -/
theorem finalize_round_trip {env : GraphEnv} {wenv : WitnessEnv} (henv : env.Taproot)
    (hpushes : wenv.Pushes) {checks256 : Checksig Wots256PublicKey}
    {checksHash : Checksig Wots128PublicKey} (h256 : checks256.Correct .wots256)
    (hHash : checksHash.Correct .wotsHash) {claimTxid : Txid} {c0 : ConnectorC0}
    {a2 : ConnectorNOfN} {a3 : ConnectorA3} {cpfp : ConnectorCpfp} {aHash : ConnectorAHashFactory}
    {a256 : ConnectorA256Factory} {chain : AssertChainPsbts}
    (hchain : AssertChain.new (env.withLockingScripts wenv) claimTxid c0 a2 a3 cpfp aHash a256 =
      .ok chain)
    (hkeys256 : a256.publicKeys.length = numU256 + numPubs)
    (hkeysHash : aHash.publicKeys.length = numHash)
    {sigs : Wots.Signatures} (hsigs : sigs.groth16.Shaped) :
    ∃ txs, finalize (env.withLockingScripts wenv) wenv chain.assertData aHash a256 sigs = .ok txs ∧
      parseWitnesses wenv txs = .ok () sigs.groth16 ∧
      ∀ i : Fin numAssertDataTx, ∃ output,
        chain.preAssert.unsignedTx.output[i.val]? = some output ∧
        (txs.get i).input.map TxIn.previousOutput =
          [⟨chain.preAssert.computeTxid (env.withLockingScripts wenv).toEnv, i⟩] ∧
        ((∃ c s, (connectors256 a256)[i.val]? = some c ∧
            (slices256 sigs.groth16)[i.val]? = some s ∧
            FinalizedBy (env.withLockingScripts wenv) wenv.wots256 checks256 c s output
              (txs.get i)) ∨
          ∃ j c s, i.val = (connectors256 a256).length + j ∧ (connectorsHash aHash)[j]? = some c ∧
            (slicesHash sigs.groth16)[j]? = some s ∧
            FinalizedBy (env.withLockingScripts wenv) wenv.wotsHash checksHash c s output
              (txs.get i)) := by
  have henv' := henv.withLockingScripts wenv
  obtain ⟨hpre, ⟨scripts, -, hdata⟩, -⟩ := AssertChain.new_ok hchain
  obtain ⟨hout, -, -⟩ := PreAssertTx.of_new henv' hpre
  obtain ⟨txs, hfinalize, hwitnesses, htxs⟩ := finalize_returns henv'
    ⟨chain.preAssert.computeTxid (env.withLockingScripts wenv).toEnv, scripts⟩ a2 cpfp
    hpushes.extracts aHash a256 sigs
  rw [← hdata] at hfinalize htxs
  refine ⟨txs, hfinalize, parseWitnesses_of_witnesses hpushes hsigs hwitnesses, fun i => ?_⟩
  obtain ⟨stack, hstack, htx⟩ := htxs i
  obtain ⟨hinput, hwitness⟩ :=
    finalizeInput_input (AssertDataTxBatch.input_of_new hdata i) stack
  rw [← htx] at hinput hwitness
  rw [allStacks_eq] at hstack
  rw [scripts_eq, map_append, append_assoc] at hout
  rcases Nat.lt_or_ge i.val 3 with hi | hi
  · -- a connector for field elements
    obtain ⟨c, hc⟩ : ∃ c, (connectors256 a256)[i.val]? = some c :=
      ⟨_, getElem?_eq_getElem (by simpa using hi)⟩
    obtain ⟨s, hs⟩ : ∃ s, (slices256 sigs.groth16)[i.val]? = some s :=
      ⟨_, getElem?_eq_getElem (by simpa using hi)⟩
    obtain ⟨hlen, hle, hsub⟩ := slices_match hc hs hkeys256 (length_signatures256 sigs.groth16)
    rw [getElem?_append_left (by simpa using hi), getElem?_zipWith, hc, hs] at hstack
    cases hstack
    refine ⟨⟨segwitMinAmount * 2, c.createTaprootAddress (env.withLockingScripts wenv)
      wenv.wots256⟩, ?_, hinput, .inl ⟨c, s, hc, hs, ?_⟩⟩
    · rw [hout, getElem?_append_left (by simpa using hi), map_map, getElem?_map, hc]
      rfl
    · refine finalizedBy_of h256 hpushes hlen (fun x hx => hsigs.signatures256 x (hsub x hx)) ?_
        rfl hwitness
      rcases hle with h | h <;> rw [h] <;> exact of_decide_eq_true rfl
  · -- a connector for hashes
    obtain ⟨j, hj⟩ := Nat.exists_eq_add_of_le hi
    have hj' : j < 36 := by
      have h : i.val < 39 := i.isLt
      omega
    obtain ⟨c, hc⟩ : ∃ c, (connectorsHash aHash)[j]? = some c :=
      ⟨_, getElem?_eq_getElem (by simpa using hj')⟩
    obtain ⟨s, hs⟩ : ∃ s, (slicesHash sigs.groth16)[j]? = some s :=
      ⟨_, getElem?_eq_getElem (by simpa using hj')⟩
    obtain ⟨hlen, hle, hsub⟩ := slices_match hc hs hkeysHash sigs.groth16.hashes.length_toList
    rw [hj, getElem?_append_right (by simp), length_zipWith, length_connectors256,
      length_slices256, Nat.min_self, Nat.add_sub_cancel_left, getElem?_zipWith, hc, hs]
      at hstack
    cases hstack
    refine ⟨⟨segwitMinAmount * 2, c.createTaprootAddress (env.withLockingScripts wenv)
      wenv.wotsHash⟩, ?_, hinput, .inr ⟨j, c, s, by simpa using hj, hc, hs, ?_⟩⟩
    · rw [hout, hj, getElem?_append_right (by simp), length_map, length_map,
        length_connectors256, Nat.add_sub_cancel_left,
        getElem?_append_left (by simpa using hj'), map_map, getElem?_map, hc]
      rfl
    · refine finalizedBy_of hHash hpushes hlen (fun x hx => hsigs.hashes x (hsub x hx)) ?_ rfl
        hwitness
      rcases hle with h | h <;> rw [h] <;> exact of_decide_eq_true rfl

/-! ### An instance -/

namespace Linear

/-- The machine of scripts as the executor, with panics beyond the end of a stack and checked
arithmetic. -/
def witnessEnv : WitnessEnv where
  finalStack script :=
    match run (Op.exec ⟨2, 0, fun _ _ => true, id⟩) script (.top [] []) with
    | some m => m.stack.reverse
    | none => []
  outOfRange := .error "index out of bounds"
  signatureToRawWitness chains := chains.flatMap fun c =>
    [.push (c.take 20), .int (chainDigit c).toNat]
  compile256 script := [UInt8.ofNat script.length]
  compileHash script := [UInt8.ofNat script.length]
  extractTx tx prevout :=
    if totalValue tx.output ≤ prevout.value then .ok tx
    else .error "should be able to extract signed tx"
  overflowChecks := true

theorem pushes : witnessEnv.Pushes where
  extracts _ _ h := if_pos h.le
  signatureToRawWitness _ := rfl
  finalStack items _ _ := by
    rw [witnessEnv]
    simp [run_pushes]

def checksig {K : Type} (code : K → ℕ) (size : WotsSize) : Checksig K where
  checksigVerify key m :=
    if code key = 0 then
      some { m with stack := .replicate (size.msgByteLen * 8 / 4) [] ++
        m.stack.drop (2 * size.totalDigitLen) }
    else none
  signs key _ := code key = 0
  digits _ := .replicate (size.msgByteLen * 8 / 4) []

theorem correct_checksig {K : Type} (code : K → ℕ) (size : WotsSize) :
    (checksig code size).Correct size where
  length_digits _ _ := length_replicate
  checksigVerify key chains st alt hshape := by
    have hdrop : ((sigItems chains).reverse ++ st).drop (2 * size.totalDigitLen) = st := by
      rw [← hshape.length, ← length_sigItems, ← length_reverse, drop_left]
    simp [checksig, hdrop]

def sig256 : Wots.Wots256Sig := ⟨.replicate 68 (.replicate 21 1)⟩

def sig128 : Wots.Wots128Sig := ⟨.replicate 36 (.replicate 21 1)⟩

def signatures : Wots.Signatures :=
  ⟨sig256, ⟨.replicate _ sig256, .replicate _ sig256, .replicate _ sig128⟩⟩

theorem shaped_replicate {n : ℕ} (h : n = size.totalDigitLen) :
    size.Shaped (.replicate n (.replicate 21 1)) where
  length := by rw [length_replicate, h]
  chain c hc := by rw [eq_of_mem_replicate hc, length_replicate]

theorem shaped_sig256 : WotsSize.wots256.Shaped sig256.chains := shaped_replicate rfl

theorem shaped_signatures : signatures.groth16.Shaped where
  signatures256 s hs := by
    obtain rfl : s = sig256 := by
      rcases mem_cons.mp hs with rfl | hs
      · exact Vector.getElem_replicate _
      · exact eq_of_mem_replicate hs
    exact shaped_sig256
  hashes s hs := by
    obtain rfl : s = sig128 := by
      exact eq_of_mem_replicate hs
    exact shaped_replicate rfl

def connectors : PegOutGraphConnectors :=
  .new graphEnv graphCtx ⟨0⟩ connectorParams ⟨30⟩ ⟨40⟩ 6 (wotsKeys 0)

theorem finalize_round_trip_linear : ∃ chain txs,
    AssertChain.new (graphEnv.withLockingScripts witnessEnv) ⟨0⟩ connectors.claimOut0
        connectors.nOfN connectors.postAssertOut0 connectors.connectorCpfp
        connectors.assertDataHashFactory connectors.assertData256Factory = .ok chain ∧
      finalize (graphEnv.withLockingScripts witnessEnv) witnessEnv chain.assertData
        connectors.assertDataHashFactory connectors.assertData256Factory signatures = .ok txs ∧
      parseWitnesses witnessEnv txs = .ok () signatures.groth16 := by
  obtain ⟨chain, hchain⟩ := AssertChain.new_returns (taproot.withLockingScripts witnessEnv) ⟨0⟩
    connectors.claimOut0 connectors.nOfN connectors.postAssertOut0 connectors.connectorCpfp
    connectors.assertDataHashFactory connectors.assertData256Factory
  obtain ⟨txs, hfinalize, hparse, -⟩ := finalize_round_trip taproot pushes
    (correct_checksig Wots256PublicKey.code .wots256)
    (correct_checksig Wots128PublicKey.code .wotsHash) hchain rfl Vector.length_toList
    shaped_signatures
  exact ⟨chain, txs, hchain, hfinalize, hparse⟩

end Linear

/-! ### Witnesses that are read -/

def FirstBreaksOff (l : List (ℕ × List Bytes)) : Prop :=
  ∃ l₁ p l₂, l = l₁ ++ p :: l₂ ∧ (∀ q ∈ l₁, HasChains q.1 q.2) ∧ BreaksOff p.1 p.2

theorem firstBreaksOff_append {a b : List (ℕ × List Bytes)} :
    FirstBreaksOff (a ++ b) ↔
      FirstBreaksOff a ∨ (∀ q ∈ a, HasChains q.1 q.2) ∧ FirstBreaksOff b := by
  constructor
  · rintro ⟨l₁, p, l₂, hl, hhas, hp⟩
    rcases append_eq_append_iff.mp hl with ⟨m, rfl, hb⟩ | ⟨m, rfl, hm⟩
    · exact .inr ⟨fun q hq => hhas q (mem_append_left m hq), m, p, l₂, hb,
        fun q hq => hhas q (mem_append_right a hq), hp⟩
    · cases m with
      | nil =>
        refine .inr ⟨fun q hq => hhas q (by simpa using hq), [], p, l₂, by simpa using hm.symm,
          by simp, hp⟩
      | cons q m =>
        cases hm
        exact .inl ⟨l₁, p, m, rfl, hhas, hp⟩
  · rintro (⟨l₁, p, l₂, rfl, hhas, hp⟩ | ⟨ha, l₁, p, l₂, rfl, hhas, hp⟩)
    · exact ⟨l₁, p, l₂ ++ b, by simp, hhas, hp⟩
    · refine ⟨a ++ l₁, p, l₂, by simp, fun q hq => ?_, hp⟩
      rcases mem_append.mp hq with h | h
      · exact ha q h
      · exact hhas q h

namespace AssertDataTxBatch

/-- The numbers of chains that the parser reads, transaction by transaction. -/
def chainCounts : List ℕ :=
  .replicate numFieldConnectorsBatch1
      (numFieldElemsPerConnectorBatch1 * WotsSize.wots256.totalDigitLen) ++
    .replicate numFieldConnectorsBatch2
      (numFieldElemsPerConnectorBatch2 * WotsSize.wots256.totalDigitLen) ++
    .replicate numHashConnectorsBatch1
      (numHashElemsPerConnectorBatch1 * WotsSize.wotsHash.totalDigitLen) ++
    .replicate numHashConnectorsBatch2
      (numHashElemsPerConnectorBatch2 * WotsSize.wotsHash.totalDigitLen)

/-- The items of a witness that are pushed: all but the last two, or all if there are not two. -/
def pushedItems (witness : List Bytes) : List Bytes :=
  if 2 ≤ witness.length then witness.take (witness.length - 2) else witness

def finalStacks (wenv : WitnessEnv) (txs : Vector Transaction numAssertDataTx) :
    List (List Bytes) :=
  (witnesses txs.toList).map fun witness => wenv.finalStack ((pushedItems witness).map pushItem)

/-- Transactions whose witnesses are read to the end or to an error: no witness is too short to take
the last two items from, and the first stack without all of its chains has an item of the wrong
size. -/
def Readable (wenv : WitnessEnv) (txs : Vector Transaction numAssertDataTx) : Prop :=
  (wenv.overflowChecks = true → ∀ witness ∈ witnesses txs.toList, 2 ≤ witness.length) ∧
    ((witnesses txs.toList).length = totalConnectors → wenv.GetPanics →
      ¬FirstBreaksOff (chainCounts.zip (finalStacks wenv txs)))

section Panics

variable {wenv : WitnessEnv}

private theorem isPanic_traverse_parse {n : ℕ} :
    (Outcome.traverse (parseSignatures wenv size n) scripts).IsPanic ↔ wenv.GetPanics ∧
      FirstBreaksOff
        (scripts.map fun script => (n * size.totalDigitLen, wenv.finalStack script)) := by
  rw [Outcome.isPanic_traverse_iff]
  simp only [isPanic_parseSignatures_iff]
  constructor
  · rintro ⟨l₁, script, l₂, rfl, hok, hpanics, hbreaks⟩
    refine ⟨hpanics, _, _, _, map_append, fun q hq => ?_, hbreaks⟩
    obtain ⟨x, hx, rfl⟩ := mem_map.mp hq
    exact (isOk_parseSignatures_iff hpanics).mp (hok x hx)
  · rintro ⟨hpanics, l₁, p, l₂, hl, hhas, hbreaks⟩
    obtain ⟨s₁, s₂, rfl, rfl, hs₂⟩ := map_eq_append_iff.mp hl
    obtain ⟨script, s₂, rfl, rfl, rfl⟩ := map_eq_cons_iff.mp hs₂
    refine ⟨s₁, script, s₂, rfl, fun x hx => ?_, hpanics, hbreaks⟩
    exact (isOk_parseSignatures_iff hpanics).mpr (hhas _ (mem_map.mpr ⟨x, hx, rfl⟩))

private theorem isOk_traverse_parse {n : ℕ} (hpanics : wenv.GetPanics) :
    (Outcome.traverse (parseSignatures wenv size n) scripts).IsOk ↔
      ∀ q ∈ scripts.map fun script => (n * size.totalDigitLen, wenv.finalStack script),
        HasChains q.1 q.2 := by
  simp [Outcome.isOk_traverse_iff, isOk_parseSignatures_iff hpanics]

private theorem isPanic_bind_batch {α β : Type} {r : Outcome Unit String α}
    {f : Unit → α → Outcome Unit String β} {b rest : List (ℕ × List Bytes)}
    (hpanic : r.IsPanic ↔ wenv.GetPanics ∧ FirstBreaksOff b)
    (hok : wenv.GetPanics → (r.IsOk ↔ ∀ q ∈ b, HasChains q.1 q.2))
    (hrest : ∀ a, r = .ok () a → ((f () a).IsPanic ↔ wenv.GetPanics ∧ FirstBreaksOff rest)) :
    (r.bind f).IsPanic ↔ wenv.GetPanics ∧ FirstBreaksOff (b ++ rest) := by
  rw [firstBreaksOff_append]
  cases hr : r with
  | ok s a =>
    rw [Outcome.bind_ok, hrest a hr]
    refine and_congr_right fun hpanics => ?_
    have hnot : ¬FirstBreaksOff b := fun h => by
      have := hpanic.mpr ⟨hpanics, h⟩
      simp [hr] at this
    have hall : ∀ q ∈ b, HasChains q.1 q.2 := (hok hpanics).mp (by rw [hr]; trivial)
    exact ⟨fun h => .inr ⟨hall, h⟩, fun h => h.elim (absurd · hnot) And.right⟩
  | err s e =>
    refine ⟨False.elim, ?_⟩
    rintro ⟨hpanics, h | ⟨hall, -⟩⟩
    · have := hpanic.mpr ⟨hpanics, h⟩
      simp [hr] at this
    · have := (hok hpanics).mpr hall
      simp [hr] at this
  | panic msg =>
    have hboth := hpanic.mp (by rw [hr]; trivial)
    exact ⟨fun _ => ⟨hboth.1, .inl hboth.2⟩, fun _ => trivial⟩

theorem isPanic_bind_parse {α β : Type} {g : List (List (List Bytes)) → α}
    {f : Unit → α → Outcome Unit String β} {n : ℕ} {rest : List (ℕ × List Bytes)}
    (hrest : ∀ a, (Outcome.traverse (parseSignatures wenv size n) scripts).map g = .ok () a →
      ((f () a).IsPanic ↔ wenv.GetPanics ∧ FirstBreaksOff rest)) :
    (((Outcome.traverse (parseSignatures wenv size n) scripts).map g).bind f).IsPanic ↔
      wenv.GetPanics ∧ FirstBreaksOff
        ((scripts.map fun script => (n * size.totalDigitLen, wenv.finalStack script)) ++ rest) := by
  refine isPanic_bind_batch ?_ (fun hpanics => ?_) hrest
  · rw [Outcome.isPanic_map, isPanic_traverse_parse]
  · rw [← isOk_traverse_parse hpanics, Outcome.IsOk, Outcome.succeeds_map]

private theorem traverse_parseWots256 (n : ℕ) (scripts : List (List Op)) :
    Outcome.traverse (parseWots256Signatures wenv n) scripts =
      (Outcome.traverse (parseSignatures wenv .wots256 n) scripts).map
        (map (map Wots.Wots256Sig.mk)) :=
  Outcome.traverse_fun_map _ scripts

private theorem traverse_parseWotsHash (n : ℕ) (scripts : List (List Op)) :
    Outcome.traverse (parseWotsHashSignatures wenv n) scripts =
      (Outcome.traverse (parseSignatures wenv .wotsHash n) scripts).map
        (map (map Wots.Wots128Sig.mk)) :=
  Outcome.traverse_fun_map _ scripts

theorem length_of_traverse_parse {S : Type} {mk : List Bytes → S} {n : ℕ} {bs : List (List S)}
    (h : (Outcome.traverse (parseSignatures wenv size n) scripts).map (map (map mk)) =
      .ok () bs) : bs.flatten.length = scripts.length * n := by
  obtain ⟨as, has, rfl⟩ := Outcome.map_eq_ok.mp h
  have hone (script : List Op) (a : List (List Bytes))
      (ha : parseSignatures wenv size n script = .ok () a) : a.length = n := by
    obtain ⟨hlen, -⟩ := Outcome.Succeeds.of_traverse (P := fun _ => True) (fun _ _ _ => trivial) ha
    rw [hlen, length_range]
  obtain ⟨hlen, hall⟩ := Outcome.Succeeds.of_traverse hone has
  rw [← flatMap_id, length_flatMap_const (w := n), length_map, hlen]
  intro b hb
  obtain ⟨a, ha, rfl⟩ := mem_map.mp hb
  rw [id, length_map, hall a ha]

theorem zip_replicate_map {T : Type} {f : T → List Bytes} (a : ℕ) {l : List T} {k : ℕ}
    (h : l.length = k) : (replicate k a).zip (l.map f) = l.map fun x => (a, f x) := by
  subst h
  induction l with
  | nil => rfl
  | cons x l ih => exact congrArg ((a, f x) :: ·) ih

/-- **When the parser of four batches panics.** -/
private theorem isPanic_parseAssertionWitnesses {w x y z : List (List Op)}
    (hw : w.length = numFieldConnectorsBatch1) (hx : x.length = numFieldConnectorsBatch2)
    (hy : y.length = numHashConnectorsBatch1) (hz : z.length = numHashConnectorsBatch2) :
    (parseAssertionWitnesses wenv w x y z).IsPanic ↔ wenv.GetPanics ∧
      FirstBreaksOff (chainCounts.zip ((w ++ x ++ y ++ z).map wenv.finalStack)) := by
  rw [chainCounts, map_append, map_append, map_append, zip_append,
    zip_append, zip_append, zip_replicate_map _ hw, zip_replicate_map _ hx,
    zip_replicate_map _ hy, zip_replicate_map _ hz, append_assoc, append_assoc,
    ← append_nil (z.map _), parseAssertionWitnesses]
  · simp only [traverse_parseWots256, traverse_parseWotsHash]
    refine isPanic_bind_parse fun w' hw' => isPanic_bind_parse fun x' hx' =>
      isPanic_bind_parse fun y' hy' => isPanic_bind_parse fun z' hz' => ?_
    -- all signatures are there, so the conversions to arrays return
    have h256 : (w'.flatten ++ x'.flatten).length = 15 := by
      rw [length_append, length_of_traverse_parse hw', length_of_traverse_parse hx', hw]
      rfl
    have hHash : (y'.flatten ++ z'.flatten).length = numHash := by
      rw [length_append, length_of_traverse_parse hy', length_of_traverse_parse hz', hy, hz]
      rfl
    obtain ⟨publicParams, hpublicParams⟩ := Wots.exists_sized (n := numPubs)
      (l := (w'.flatten ++ x'.flatten).take 1) (by rw [length_take, h256]; rfl)
    obtain ⟨fieldElems, hfieldElems⟩ := Wots.exists_sized (n := numU256)
      (l := (w'.flatten ++ x'.flatten).drop 1) (by rw [length_drop, h256]; rfl)
    obtain ⟨hashes, hhashes⟩ := Wots.exists_sized hHash
    simp only [hpublicParams, hfieldElems, hhashes, Outcome.isPanic_ok, false_iff, not_and]
    rintro - ⟨l₁, p, l₂, hnil, -⟩
    simp at hnil
  all_goals simp [hw, hx, hy]

private theorem inputScript_eq {witness : List Bytes}
    (h : wenv.overflowChecks = true → 2 ≤ witness.length) :
    inputScript wenv witness = .ok ((pushedItems witness).map pushItem) := by
  rw [inputScript, pushedItems]
  split
  · rfl
  · next hshort =>
    have hoff : ¬wenv.overflowChecks = true := fun hon => hshort (h hon)
    rw [if_neg hoff, take_of_length_le (by omega)]

private theorem exists_slices {T : Type} {l : List T} {a b c d : ℕ} (h : l.length = a + b + c + d) :
    ∃ w x y z, l = w ++ x ++ y ++ z ∧
      w.length = a ∧ x.length = b ∧ y.length = c ∧ z.length = d := by
  refine ⟨l.take a, (l.drop a).take b, ((l.drop a).drop b).take c, ((l.drop a).drop b).drop c,
    ?_, ?_, ?_, ?_, ?_⟩
  · rw [append_assoc, take_append_drop, append_assoc, take_append_drop, take_append_drop]
  all_goals simp
  all_goals omega

private theorem exists_ok_of_mapM {α β : Type} {f : α → MayPanic β} {l : List α} {bs : List β}
    (h : l.mapM f = .ok bs) {a : α} (ha : a ∈ l) : ∃ b, f a = .ok b := by
  have hall := MayPanic.forall₂_of_mapM h
  clear h
  induction hall with
  | nil => cases ha
  | cons hb _ ih =>
    rcases mem_cons.mp ha with rfl | ha
    · exact ⟨_, hb⟩
    · exact ih ha

/-- **When the parser of the assert-data transactions panics.** -/
theorem isPanic_parseWitnesses_iff (txs : Vector Transaction numAssertDataTx) :
    (parseWitnesses wenv txs).IsPanic ↔ ¬Readable wenv txs := by
  by_cases hlong : wenv.overflowChecks = true → ∀ w ∈ witnesses txs.toList, 2 ≤ w.length
  · have hmapM : (witnesses txs.toList).mapM (inputScript wenv) =
        .ok ((witnesses txs.toList).map fun w => (pushedItems w).map pushItem) :=
      mapM_eq_ok fun w hw => inputScript_eq fun hon => hlong hon w hw
    by_cases hlen : (witnesses txs.toList).length = totalConnectors
    · obtain ⟨w, x, y, z, hsplit, hw, hx, hy, hz⟩ :=
        exists_slices ((length_map fun w => (pushedItems w).map pushItem).trans hlen)
      have hstacks : finalStacks wenv txs = (w ++ x ++ y ++ z).map wenv.finalStack := by
        rw [← hsplit, map_map]
        rfl
      rw [parseWitnesses_eq (hmapM.trans (congrArg _ hsplit)) hw hx hy hz,
        isPanic_parseAssertionWitnesses hw hx hy hz, ← hstacks]
      refine ⟨fun h hreadable => hreadable.2 hlen h.1 h.2, fun h => ?_⟩
      by_contra hnot
      exact h ⟨hlong, fun _ hpanics hbreaks => hnot ⟨hpanics, hbreaks⟩⟩
    · have herr : parseWitnesses wenv txs = .err () "number of witnesses must be 39" := by
        rw [parseWitnesses, hmapM]
        simp only
        rw [if_neg (by rwa [length_map])]
      rw [herr]
      exact ⟨False.elim, fun h => h ⟨hlong, fun h => absurd h hlen⟩⟩
  · refine ⟨fun _ hreadable => hlong hreadable.1, fun _ => ?_⟩
    obtain ⟨hon, w, hw, hshort⟩ : wenv.overflowChecks = true ∧
        ∃ w ∈ witnesses txs.toList, ¬2 ≤ w.length := by
      simpa using hlong
    have herror : inputScript wenv w = .error "attempt to subtract with overflow" := by
      rw [inputScript, if_neg hshort, if_pos hon]
    rw [parseWitnesses]
    cases hmapM : (witnesses txs.toList).mapM (inputScript wenv) with
    | error msg => trivial
    | ok scripts =>
      obtain ⟨script, hscript⟩ := exists_ok_of_mapM hmapM hw
      rw [herror] at hscript
      cases hscript

end Panics

end AssertDataTxBatch

/-- **When parsing returns.** The parser of a claim returns unless the witness of its first input
breaks off; the parser of the assert-data transactions returns exactly on readable ones. The
signature of a finalized claim is read back. -/
theorem parse_returns_iff (wenv : WitnessEnv) :
    (∀ (tx : Transaction) (h : tx.input ≠ []),
      ¬(ClaimTx.parseWitness tx).IsPanic ↔ ¬ClaimTx.BreaksOff (tx.input.head h).witness) ∧
    (∀ txs : Vector Transaction numAssertDataTx,
      ¬(parseWitnesses wenv txs).IsPanic ↔ Readable wenv txs) ∧
    ∀ env : GraphEnv, env.Taproot → wenv.Pushes →
      ∀ (stakeOutpoint : OutPoint) (k : ConnectorK) (c0 : ConnectorC0) (c1 : ConnectorC1)
        (nOfN : ConnectorNOfN) (cpfp : ConnectorCpfp) (claim : ClaimPsbt),
        ClaimTx.new env stakeOutpoint k c0 c1 nOfN cpfp = .ok claim →
        ∀ signature : Wots.Wots256Sig, WotsSize.wots256.Shaped signature.chains →
          ∃ tx, ClaimTx.finalize env wenv claim k signature = .ok tx ∧
            ClaimTx.parseWitness tx = .ok () signature := by
  refine ⟨fun tx h => not_congr (ClaimTx.isPanic_parseWitness_iff h), fun txs => ?_, ?_⟩
  · rw [isPanic_parseWitnesses_iff, not_not]
  · intro env henv hpushes stakeOutpoint k c0 c1 nOfN cpfp claim hnew signature hshape
    exact ClaimTx.parseWitness_finalize henv hpushes hnew hshape

namespace Linear

def withWitness (witness : List Bytes) : Transaction := ⟨3, 0, [⟨⟨⟨0⟩, 0⟩, [], 0, witness⟩], []⟩

/-- A claim without witness is an error, and the signature of a finalized claim is read back. -/
theorem unsigned_claim_returns :
    ¬(ClaimTx.parseWitness (withWitness [])).IsPanic ∧
      ∃ claim tx, ClaimTx.new graphEnv ⟨⟨0⟩, 0⟩ connectors.kickoff connectors.claimOut0
          connectors.claimOut1 connectors.nOfN connectors.connectorCpfp = .ok claim ∧
        ClaimTx.finalize graphEnv witnessEnv claim connectors.kickoff sig256 = .ok tx ∧
        ClaimTx.parseWitness tx = .ok () sig256 := by
  obtain ⟨hclaim, -, hread⟩ := parse_returns_iff witnessEnv
  refine ⟨(hclaim (withWitness []) (by simp [withWitness])).mpr fun h => h.1 rfl, ?_⟩
  obtain ⟨claim, hnew⟩ := ClaimTx.new_returns taproot ⟨⟨0⟩, 0⟩ connectors.kickoff
    connectors.claimOut0 connectors.claimOut1 connectors.nOfN connectors.connectorCpfp
  obtain ⟨tx, hfinalize, hparse⟩ := hread graphEnv taproot pushes _ _ _ _ _ _ claim hnew sig256
    shaped_sig256
  exact ⟨claim, tx, hnew, hfinalize, hparse⟩

/-- A claim with one preimage and nothing else makes the parser panic. So does an assert-data
transaction with a single item, where arithmetic is checked, and one without a signature where it is
not. -/
theorem short_witness_panics :
    (ClaimTx.parseWitness (withWitness [.replicate 20 0])).IsPanic ∧
      (parseWitnesses witnessEnv (.replicate _ (withWitness [[0]]))).IsPanic ∧
      (parseWitnesses { witnessEnv with overflowChecks := false }
        (.replicate _ (withWitness [[0], [0]]))).IsPanic := by
  decide +kernel

end Linear

end StrataBridge
