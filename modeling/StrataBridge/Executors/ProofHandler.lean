import StrataBridge.BridgeProof.Statement
import StrataBridge.Instance.LinearChain
import StrataBridge.Instance.LinearBridge

/-!
# The header chain of a bridge proof

An operator that proves a withdrawal reads the blocks of Bitcoin from the first one that the
checkpoint of the assignment does not cover, until enough blocks stand on the one with the
fulfillment. On the way it takes the first checkpoint that it meets. The proof then starts from the
chain state in that checkpoint, and its headers have to continue from the last block that the chain
state covers.

The first checkpoint from there on need not be the one that made the assignment: a checkpoint is
mined some time after the blocks it covers, and another one may be mined in between or stand before
it in the same block. Everything else about the header chain holds in any case.

Heights and counts are natural numbers here, as they fit the `u32` of the source. A block that is
not there yet is polled for, so that the search does not return on a chain that ends too early.

## Main definitions

* `prepareHeaderChain`: the search for the header chain
* `HeaderChainOf`: what is required of it

## Main results

* `header_chain_connects_iff`: it holds if the first checkpoint is the one wanted

## References

* `crates/duty-tracker/src/executors/proof_handler.rs`, lines 95–213
* `crates/bridge-proof/primitives/src/tx_inclusion_proof.rs`, lines 94–123
-/

namespace StrataBridge

open Rust Linear List MayPanic

variable {tx : Transaction} {i : ℕ} {blocks : List ChainBlock}

/-! ### The code -/

structure BundleEnv extends Env where
  /-- `L1TxProof::generate`. -/
  generateTxProof : List Transaction → ℕ → L1TxInclusionProof
  /-- `L1WtxProof::generate`. -/
  generateWtxProof : List Transaction → ℕ → L1TxInclusionProof

/-- `L1TxWithProofBundle::generate` (`tx_inclusion_proof.rs`, lines 94–123). -/
def L1TxWithProofBundle.generate (env : BundleEnv) (txs : List Transaction) (idx : ℕ) :
    MayPanic L1TxWithProofBundle :=
  match txs[idx]?, txs.head? with
  | some tx, some coinbase =>
    if tx.input.all fun input => input.witness.isEmpty then
      .ok ⟨⟨tx, env.generateTxProof txs idx⟩, none⟩
    else
      .ok ⟨⟨coinbase, env.generateTxProof txs 0⟩, some ⟨tx, env.generateWtxProof txs idx⟩⟩
  | _, _ => .error "index out of bounds"

/-- `ProofHeaderChain` (`proof_handler.rs`, lines 95–99). -/
structure ProofHeaderChain where
  headers : List Header
  withdrawalFulfillmentTx : L1TxWithProofBundle × ℕ
  strataCheckpointTx : L1TxWithProofBundle × ℕ
  deriving DecidableEq, Repr

structure HeaderScan where
  blocks : List ChainBlock
  withdrawalFulfillmentTx : Option (L1TxWithProofBundle × ℕ)
  strataCheckpointTx : Option (L1TxWithProofBundle × ℕ)
  numBlocksAfterFulfillment : ℕ

section Code

variable (env : BundleEnv) (params : RollupParams) (fulfillmentTxid : Txid) (startHeight : ℕ)

/-- The first transaction of a block that passes a test, with its proof and the distance of the
block from the first one (`proof_handler.rs`, lines 125–147 and 152–168). -/
def findTx (test : Transaction → MayPanic Bool) (block : ChainBlock) :
    ℕ → List Transaction → MayPanic (Option (L1TxWithProofBundle × ℕ))
  | _, [] => .ok none
  | idx, tx :: txs => do
    if ← test tx then
      match block.bip34BlockHeight with
      | none => .error "called `Result::unwrap()` on an `Err` value"
      | some height =>
        let bundle ← L1TxWithProofBundle.generate env block.txdata idx
        .ok (some (bundle, height - startHeight))
    else findTx test block (idx + 1) txs

def orFind (found : Option (L1TxWithProofBundle × ℕ)) (test : Transaction → MayPanic Bool)
    (block : ChainBlock) : MayPanic (Option (L1TxWithProofBundle × ℕ)) :=
  match found with
  | some r => .ok (some r)
  | none => findTx env startHeight test block 0 block.txdata

def isCheckpoint (tx : Transaction) : MayPanic Bool :=
  (parseStrataCheckpoint env.toEnv params tx).map Option.isSome

def isFulfillment (tx : Transaction) : MayPanic Bool :=
  .ok (decide (env.computeTxid tx = fulfillmentTxid))

/-- One round of the loop (`proof_handler.rs`, lines 123–176). -/
def scanBlock (st : HeaderScan) (block : ChainBlock) : MayPanic HeaderScan := do
  let strataCheckpointTx ← orFind env startHeight st.strataCheckpointTx (isCheckpoint env params)
    block
  let withdrawalFulfillmentTx ← orFind env startHeight st.withdrawalFulfillmentTx
    (isFulfillment env fulfillmentTxid) block
  .ok
    { blocks := st.blocks ++ [block]
      withdrawalFulfillmentTx := withdrawalFulfillmentTx
      strataCheckpointTx := strataCheckpointTx
      numBlocksAfterFulfillment :=
        if withdrawalFulfillmentTx.isSome then st.numBlocksAfterFulfillment + 1
        else st.numBlocksAfterFulfillment }

/-- The loop (`proof_handler.rs`, lines 117–184), on the blocks that are there; it goes on polling
when they end. -/
def scanBlocks (st : HeaderScan) : List ChainBlock → MayPanic (Option HeaderScan)
  | [] => .ok none
  | block :: rest => do
    let st ← scanBlock env params fulfillmentTxid startHeight st block
    if requiredNumOfHeadersAfterWithdrawalFulfillmentTx < st.numBlocksAfterFulfillment then
      .ok (some st)
    else scanBlocks st rest

/-- `prepare_header_chain` (`proof_handler.rs`, lines 101–213) on a chain, given from its first
block on. -/
def prepareHeaderChain (chain : List ChainBlock) :
    MayPanic (Option (Except String ProofHeaderChain)) := do
  let scan ← scanBlocks env params fulfillmentTxid startHeight ⟨[], none, none, 0⟩
    (chain.drop startHeight)
  .ok (scan.map fun st =>
    match st.withdrawalFulfillmentTx with
    | none => .error "could not find withdrawal fulfillment tx"
    | some withdrawalFulfillmentTx =>
      match st.strataCheckpointTx with
      | none => .error "could not find checkpoint tx"
      | some strataCheckpointTx =>
        .ok ⟨st.blocks.map ChainBlock.header, withdrawalFulfillmentTx, strataCheckpointTx⟩)

end Code

/-! ### The first transaction of a kind -/

theorem L1TxWithProofBundle.transaction_of_generate {env : BundleEnv} {txs : List Transaction}
    {idx : ℕ} {bundle : L1TxWithProofBundle} (h : generate env txs idx = .ok bundle) :
    txs[idx]? = some bundle.transaction := by
  rw [generate] at h
  split at h
  next tx coinbase htx _ =>
    split at h <;> obtain rfl := Except.ok.inj h <;> exact htx
  next => cases h

structure FirstTx (test : Transaction → MayPanic Bool) (blocks : List ChainBlock)
    (tx : Transaction) (i : ℕ) : Prop where
  passes : test tx = .ok true
  inBlock : ∃ b before after, blocks[i]? = some b ∧ b.txdata = before ++ tx :: after ∧
    ∀ t ∈ before, test t ≠ .ok true
  inEarlier : ∀ (j : ℕ) b, j < i → blocks[j]? = some b → ∀ t ∈ b.txdata, test t ≠ .ok true

inductive Found (test : Transaction → MayPanic Bool) (blocks : List ChainBlock) :
    Option (L1TxWithProofBundle × ℕ) → Prop
  | absent (h : ∀ b ∈ blocks, ∀ t ∈ b.txdata, test t ≠ .ok true) : Found test blocks none
  | first {bundle i} (h : FirstTx test blocks bundle.transaction i) :
      Found test blocks (some (bundle, i))

section Found

variable {env : BundleEnv} {startHeight : ℕ} {test : Transaction → MayPanic Bool}
  {block : ChainBlock}

theorem findTx_ok {height : ℕ} (hheight : block.bip34BlockHeight = some height)
    {before txs : List Transaction} (hsplit : block.txdata = before ++ txs)
    (hbefore : ∀ t ∈ before, test t ≠ .ok true) {r : Option (L1TxWithProofBundle × ℕ)}
    (h : findTx env startHeight test block before.length txs = .ok r) :
    (r = none ∧ ∀ t ∈ block.txdata, test t ≠ .ok true) ∨
      ∃ bundle before' after, r = some (bundle, height - startHeight) ∧
        test bundle.transaction = .ok true ∧
        block.txdata = before' ++ bundle.transaction :: after ∧
        ∀ t ∈ before', test t ≠ .ok true := by
  induction txs generalizing before with
  | nil =>
    cases h
    rw [append_nil] at hsplit
    exact .inl ⟨rfl, hsplit ▸ hbefore⟩
  | cons tx txs ih =>
    obtain ⟨passes, htest, h⟩ := bind_eq_ok.mp h
    cases passes with
    | true =>
      simp only [hheight] at h
      obtain ⟨bundle, hbundle, h⟩ := bind_eq_ok.mp h
      cases h
      have htx := L1TxWithProofBundle.transaction_of_generate hbundle
      rw [hsplit, getElem?_append_right (Nat.le_refl _), Nat.sub_self] at htx
      cases htx
      exact .inr ⟨bundle, before, txs, rfl, htest, hsplit, hbefore⟩
    | false =>
      have hlen : before.length + 1 = (before ++ [tx]).length := by simp
      rw [hlen] at h
      refine ih (by simpa using hsplit) (fun t ht => ?_) h
      rcases mem_append.mp ht with ht | ht
      · exact hbefore t ht
      · rw [mem_singleton.mp ht, htest]
        nofun

theorem FirstTx.append (h : FirstTx test blocks tx i) : FirstTx test (blocks ++ [block]) tx i := by
  obtain ⟨b, before, after, hb, hsplit, hbefore⟩ := h.inBlock
  have hi : i < blocks.length := (List.getElem?_eq_some_iff.mp hb).1
  refine ⟨h.passes, ⟨b, before, after, ?_, hsplit, hbefore⟩, fun j b' hj hb' => ?_⟩
  · rw [getElem?_append_left hi, hb]
  · rw [getElem?_append_left (Nat.lt_trans hj hi)] at hb'
    exact h.inEarlier j b' hj hb'

theorem FirstTx.eq_length (habsent : ∀ b ∈ blocks, ∀ t ∈ b.txdata, test t ≠ .ok true)
    (h : FirstTx test (blocks ++ [block]) tx i) : i = blocks.length := by
  obtain ⟨b, before, after, hb, hsplit, -⟩ := h.inBlock
  have hle : i < (blocks ++ [block]).length := (List.getElem?_eq_some_iff.mp hb).1
  rw [length_append, length_singleton] at hle
  rcases Nat.lt_or_ge i blocks.length with hi | hi
  · rw [getElem?_append_left hi] at hb
    exact absurd h.passes (habsent b (mem_of_getElem? hb) tx (by simp [hsplit]))
  · omega

theorem found_of_orFind (hheight : block.bip34BlockHeight = some (startHeight + blocks.length))
    {found found' : Option (L1TxWithProofBundle × ℕ)} (hfound : Found test blocks found)
    (h : orFind env startHeight found test block = .ok found') :
    Found test (blocks ++ [block]) found' := by
  cases hfound with
  | first hfirst =>
    cases h
    exact .first hfirst.append
  | absent hnone =>
    rcases findTx_ok hheight (nil_append _).symm (by simp) h with
      ⟨rfl, hblock⟩ | ⟨bundle, before, after, rfl, hpasses, hsplit, hbefore⟩
    · refine .absent fun b hb => ?_
      rcases mem_append.mp hb with hb | hb
      · exact hnone b hb
      · rw [mem_singleton.mp hb]
        exact hblock
    · rw [Nat.add_sub_cancel_left]
      refine .first ⟨hpasses, ⟨block, before, after, by simp, hsplit, hbefore⟩, fun j b hj hb => ?_⟩
      rw [getElem?_append_left hj] at hb
      exact hnone b (mem_of_getElem? hb)

end Found

/-! ### The search -/

section Scan

variable (env : BundleEnv) (params : RollupParams) (fulfillmentTxid : Txid) (startHeight : ℕ)

structure Scanned (blocks : List ChainBlock) (st : HeaderScan) : Prop where
  blocks_eq : st.blocks = blocks
  checkpoint : Found (isCheckpoint env params) blocks st.strataCheckpointTx
  fulfillment : Found (isFulfillment env fulfillmentTxid) blocks st.withdrawalFulfillmentTx
  count_of_none : st.withdrawalFulfillmentTx = none → st.numBlocksAfterFulfillment = 0
  count_of_some : ∀ bundle i, st.withdrawalFulfillmentTx = some (bundle, i) →
    st.numBlocksAfterFulfillment + i = blocks.length

variable {env params fulfillmentTxid startHeight} {st st' : HeaderScan}

theorem Scanned.scanBlock {block : ChainBlock}
    (hheight : block.bip34BlockHeight = some (startHeight + blocks.length))
    (h : Scanned env params fulfillmentTxid blocks st)
    (hst : scanBlock env params fulfillmentTxid startHeight st block = .ok st') :
    Scanned env params fulfillmentTxid (blocks ++ [block]) st' ∧
      st'.numBlocksAfterFulfillment ≤ st.numBlocksAfterFulfillment + 1 := by
  obtain ⟨checkpoint, hcheckpoint, hst⟩ := bind_eq_ok.mp hst
  obtain ⟨fulfillment, hfulfillment, hst⟩ := bind_eq_ok.mp hst
  cases hst
  have hfound := found_of_orFind hheight h.fulfillment hfulfillment
  refine ⟨⟨congrArg (· ++ [block]) h.blocks_eq, found_of_orFind hheight h.checkpoint hcheckpoint,
    hfound, ?_, ?_⟩, ?_⟩
  · rintro rfl
    cases hbefore : st.withdrawalFulfillmentTx with
    | none => exact h.count_of_none hbefore
    | some r =>
      rw [hbefore] at hfulfillment
      cases hfulfillment
  · rintro bundle i rfl
    simp only [Option.isSome_some, if_true, length_append, length_singleton]
    cases hbefore : st.withdrawalFulfillmentTx with
    | none =>
      have habsent := h.fulfillment
      rw [hbefore] at habsent
      cases habsent with | absent habsent =>
      cases hfound with | first hfirst =>
      rw [h.count_of_none hbefore, hfirst.eq_length habsent, Nat.add_comm]
    | some r =>
      rw [hbefore] at hfulfillment
      cases hfulfillment
      have hcount := h.count_of_some bundle i hbefore
      omega
  · dsimp only
    split <;> omega

/-- The whole loop: it reads blocks until one more than the required number stand from the
fulfillment on. -/
theorem Scanned.scanBlocks {rest : List ChainBlock}
    (hheight : ∀ (j : ℕ) b, rest[j]? = some b →
      b.bip34BlockHeight = some (startHeight + (blocks.length + j)))
    (h : Scanned env params fulfillmentTxid blocks st)
    (hcount : st.numBlocksAfterFulfillment ≤ requiredNumOfHeadersAfterWithdrawalFulfillmentTx)
    (hst : scanBlocks env params fulfillmentTxid startHeight st rest = .ok (some st')) :
    ∃ more, more <+: rest ∧ Scanned env params fulfillmentTxid (blocks ++ more) st' ∧
      st'.numBlocksAfterFulfillment = requiredNumOfHeadersAfterWithdrawalFulfillmentTx + 1 := by
  induction rest generalizing blocks st with
  | nil => cases hst
  | cons block rest ih =>
    obtain ⟨next, hnext, hst⟩ := bind_eq_ok.mp hst
    obtain ⟨hscanned, hle⟩ := h.scanBlock (hheight 0 block rfl) hnext
    split at hst
    next henough =>
      cases hst
      exact ⟨[block], by simp, hscanned, by omega⟩
    next hfew =>
      have hheight' : ∀ (j : ℕ) b, rest[j]? = some b →
          b.bip34BlockHeight = some (startHeight + ((blocks ++ [block]).length + j)) := by
        intro j b hb
        rw [length_append, length_singleton, Nat.add_assoc, Nat.add_comm 1 j]
        exact hheight (j + 1) b hb
      obtain ⟨more, hmore, hscanned, heq⟩ := ih hheight' hscanned (by omega) hst
      refine ⟨block :: more, prefix_cons_inj block |>.mpr hmore, ?_, heq⟩
      simpa using hscanned

theorem Scanned.nil : Scanned env params fulfillmentTxid [] ⟨[], none, none, 0⟩ :=
  ⟨rfl, .absent (by simp), .absent (by simp), fun _ => rfl, nofun⟩

end Scan

def CarryHeights (chain : List ChainBlock) (startHeight : ℕ) : Prop :=
  ∀ (h : ℕ) b, startHeight ≤ h → chain[h]? = some b → b.bip34BlockHeight = some h

instance (chain : List ChainBlock) (startHeight : ℕ) : Decidable (CarryHeights chain startHeight) :=
  decidable_of_iff (∀ p ∈ chain.zipIdx, startHeight ≤ p.2 → p.1.bip34BlockHeight = some p.2) <| by
    simp only [CarryHeights, mem_zipIdx_iff_getElem?, Prod.forall]
    exact ⟨fun h i b hi hb => h b i hb hi, fun h b i hb hi => h i b hi hb⟩

def MinedFrom (env : Env) (chain : List ChainBlock) (txid : Txid) (height : ℕ) : Prop :=
  ∀ (h : ℕ) b t, chain[h]? = some b → t ∈ b.txdata → env.computeTxid t = txid → height ≤ h

instance (env : Env) (chain : List ChainBlock) (txid : Txid) (height : ℕ) :
    Decidable (MinedFrom env chain txid height) :=
  decidable_of_iff
    (∀ p ∈ chain.zipIdx, ∀ t ∈ p.1.txdata, env.computeTxid t = txid → height ≤ p.2) <| by
    simp only [MinedFrom, mem_zipIdx_iff_getElem?, Prod.forall]
    exact ⟨fun h i b t hb => h b i hb t, fun h b i hb t => h i b t hb⟩

section Prepare

variable {env : BundleEnv} {params : RollupParams} {fulfillmentTxid : Txid} {startHeight : ℕ}
  {chain : List ChainBlock} {r : ProofHeaderChain}

/-- **The first checkpoint and the first fulfillment are taken**, and the headers are those of the
blocks from the start to the required number after the fulfillment. -/
theorem prepareHeaderChain_spec (hheights : CarryHeights chain startHeight)
    (hr : prepareHeaderChain env params fulfillmentTxid startHeight chain = .ok (some (.ok r))) :
    ∃ blocks, blocks <+: chain.drop startHeight ∧ r.headers = blocks.map ChainBlock.header ∧
      FirstTx (isCheckpoint env params) blocks r.strataCheckpointTx.1.transaction
        r.strataCheckpointTx.2 ∧
      FirstTx (isFulfillment env fulfillmentTxid) blocks r.withdrawalFulfillmentTx.1.transaction
        r.withdrawalFulfillmentTx.2 ∧
      blocks.length = r.withdrawalFulfillmentTx.2 + 1 +
        requiredNumOfHeadersAfterWithdrawalFulfillmentTx := by
  obtain ⟨scan, hscan, hr⟩ := bind_eq_ok.mp hr
  obtain ⟨st, rfl, hst⟩ := Option.map_eq_some_iff.mp (Except.ok.inj hr)
  have hheight : ∀ (j : ℕ) b, (chain.drop startHeight)[j]? = some b →
      b.bip34BlockHeight = some (startHeight + (([] : List ChainBlock).length + j)) := by
    intro j b hb
    rw [getElem?_drop] at hb
    rw [length_nil, Nat.zero_add]
    exact hheights _ b (Nat.le_add_right _ _) hb
  obtain ⟨blocks, hblocks, hscanned, hcount⟩ :=
    Scanned.nil.scanBlocks hheight (Nat.zero_le _) hscan
  rw [nil_append] at hscanned
  split at hst
  next => cases hst
  next fulfillment hfulfillment =>
    split at hst
    next => cases hst
    next checkpoint hcheckpoint =>
      cases hst
      have hfound := hscanned.fulfillment
      have hfound' := hscanned.checkpoint
      rw [hfulfillment] at hfound
      rw [hcheckpoint] at hfound'
      cases hfound with | first hfirst =>
      cases hfound' with | first hfirst' =>
      have hlength := hscanned.count_of_some _ _ hfulfillment
      refine ⟨blocks, hblocks, congrArg _ hscanned.blocks_eq, hfirst', hfirst, ?_⟩
      dsimp only
      omega

/-- A header chain is what the proof of a fulfillment from a given checkpoint needs: it is about
that checkpoint, the fulfillment is not before it, and the required number of headers stand on the
one of its block. -/
structure HeaderChainOf (env : BundleEnv) (chain : List ChainBlock) (fulfillmentTxid : Txid)
    (startHeight : ℕ) (checkpointTx : Transaction) (checkpointHeight : ℕ) (r : ProofHeaderChain) :
    Prop where
  checkpoint_eq : r.strataCheckpointTx.1.transaction = checkpointTx
  checkpoint_height : startHeight + r.strataCheckpointTx.2 = checkpointHeight
  index_le : r.strataCheckpointTx.2 ≤ r.withdrawalFulfillmentTx.2
  fulfillment : ∃ b, chain[startHeight + r.withdrawalFulfillmentTx.2]? = some b ∧
    r.headers[r.withdrawalFulfillmentTx.2]? = some b.header ∧
    r.withdrawalFulfillmentTx.1.transaction ∈ b.txdata ∧
    env.computeTxid r.withdrawalFulfillmentTx.1.transaction = fulfillmentTxid
  headers_length : r.headers.length =
    r.withdrawalFulfillmentTx.2 + 1 + requiredNumOfHeadersAfterWithdrawalFulfillmentTx

structure FirstCheckpoint (env : BundleEnv) (params : RollupParams) (chain : List ChainBlock)
    (startHeight : ℕ) (checkpointTx : Transaction) (checkpointHeight : ℕ) : Prop where
  start_le : startHeight ≤ checkpointHeight
  inEarlier : ∀ (h : ℕ) b, startHeight ≤ h → h < checkpointHeight → chain[h]? = some b →
    ∀ t ∈ b.txdata, isCheckpoint env params t ≠ .ok true
  inBlock : ∀ b, chain[checkpointHeight]? = some b →
    ∀ t ∈ b.txdata.takeWhile (· ≠ checkpointTx), isCheckpoint env params t ≠ .ok true

theorem getElem?_of_read (h : blocks <+: chain.drop startHeight) {j : ℕ}
    (hj : j < blocks.length) : blocks[j]? = chain[startHeight + j]? := by
  rw [← getElem?_drop, prefix_iff_getElem?.mp h j hj, getElem?_eq_getElem hj]

private theorem mem_of_mem_takeWhile_ne {α : Type} [DecidableEq α] {a t : α} {before after : List α}
    (h : t ∈ (before ++ a :: after).takeWhile (· ≠ a)) : t ∈ before := by
  rw [takeWhile_append] at h
  split at h
  · simpa using h
  · exact (List.takeWhile_prefix _).subset h

private theorem mem_takeWhile_ne {α : Type} [DecidableEq α] {a t : α} {before after : List α}
    (hbefore : a ∉ before) (hne : t ≠ a) : t ∈ (before ++ t :: after).takeWhile (· ≠ a) := by
  have hall : ∀ x ∈ before, decide (x ≠ a) = true := fun x hx =>
    decide_eq_true fun heq => hbefore (heq ▸ hx)
  rw [takeWhile_append_of_pos hall]
  simp [hne]

section Connects

variable {checkpointTx : Transaction} {checkpoint : Checkpoint} {checkpointHeight : ℕ}
  {checkpointBlock : ChainBlock}

theorem isCheckpoint_of_parse
    (h : parseStrataCheckpoint env.toEnv params checkpointTx = .ok (some checkpoint)) :
    isCheckpoint env params checkpointTx = .ok true := by
  rw [isCheckpoint, h]
  rfl

theorem FirstCheckpoint.taken
    (h : FirstCheckpoint env params chain startHeight checkpointTx checkpointHeight)
    (hblock : chain[checkpointHeight]? = some checkpointBlock)
    (hmem : checkpointTx ∈ checkpointBlock.txdata)
    (hpasses : isCheckpoint env params checkpointTx = .ok true)
    (hread : blocks <+: chain.drop startHeight)
    (hfirst : FirstTx (isCheckpoint env params) blocks tx i) :
    tx = checkpointTx ∧ startHeight + i = checkpointHeight := by
  obtain ⟨b, before, after, hb, hsplit, hbefore⟩ := hfirst.inBlock
  have hi : i < blocks.length := (List.getElem?_eq_some_iff.mp hb).1
  have hb' := getElem?_of_read hread hi ▸ hb
  have hstart := h.start_le
  -- An earlier block has no checkpoint, and a later one is not reached.
  have hheight : startHeight + i = checkpointHeight := by
    rcases Nat.lt_trichotomy (startHeight + i) checkpointHeight with hlt | heq | hgt
    · exact absurd hfirst.passes
        (h.inEarlier _ b (Nat.le_add_right _ _) hlt hb' tx (by simp [hsplit]))
    · exact heq
    · have hj : checkpointHeight - startHeight < i := by omega
      have hread' := getElem?_of_read hread (Nat.lt_trans hj hi)
      rw [Nat.add_sub_of_le hstart, hblock] at hread'
      exact absurd hpasses (hfirst.inEarlier _ _ hj hread' _ hmem)
  rw [hheight] at hb'
  obtain rfl := Option.some.inj (hblock.symm.trans hb')
  refine ⟨Classical.byContradiction fun hne => ?_, hheight⟩
  have hnot : checkpointTx ∉ before := fun hin => hbefore _ hin hpasses
  have hin : tx ∈ (before ++ tx :: after).takeWhile (· ≠ checkpointTx) :=
    mem_takeWhile_ne hnot hne
  rw [← hsplit] at hin
  exact h.inBlock _ hblock tx hin hfirst.passes

theorem FirstTx.firstCheckpoint (hfirst : FirstTx (isCheckpoint env params) blocks checkpointTx i)
    (hread : blocks <+: chain.drop startHeight) :
    FirstCheckpoint env params chain startHeight checkpointTx (startHeight + i) := by
  obtain ⟨b, before, after, hb, hsplit, hbefore⟩ := hfirst.inBlock
  have hi : i < blocks.length := (List.getElem?_eq_some_iff.mp hb).1
  refine ⟨Nat.le_add_right _ _, fun h b' hle hlt hb' => ?_, fun b' hb' t ht => ?_⟩
  · have hj : h - startHeight < i := by omega
    have hread' := getElem?_of_read hread (Nat.lt_trans hj hi)
    rw [Nat.add_sub_of_le hle, hb'] at hread'
    exact hfirst.inEarlier _ b' hj hread'
  · rw [← getElem?_of_read hread hi, hb] at hb'
    cases hb'
    rw [hsplit] at ht
    exact hbefore t (mem_of_mem_takeWhile_ne ht)

/-- **The header chain is one of a given checkpoint exactly if that checkpoint is the first one in
the blocks that it does not cover.** The fulfillment may stand anywhere from the block of the
checkpoint on. -/
theorem header_chain_connects_iff (hblock : chain[checkpointHeight]? = some checkpointBlock)
    (hmem : checkpointTx ∈ checkpointBlock.txdata)
    (hparse : parseStrataCheckpoint env.toEnv params checkpointTx = .ok (some checkpoint))
    (hheights : CarryHeights chain (checkpoint.l1EndHeight + 1))
    (hlater : MinedFrom env.toEnv chain fulfillmentTxid checkpointHeight)
    (hr : prepareHeaderChain env params fulfillmentTxid (checkpoint.l1EndHeight + 1) chain =
      .ok (some (.ok r))) :
    HeaderChainOf env chain fulfillmentTxid (checkpoint.l1EndHeight + 1) checkpointTx
        checkpointHeight r ↔
      FirstCheckpoint env params chain (checkpoint.l1EndHeight + 1) checkpointTx
        checkpointHeight := by
  obtain ⟨blocks, hread, hheaders, hcheckpoint, hfulfillment, hlength⟩ :=
    prepareHeaderChain_spec hheights hr
  constructor
  · intro h
    rw [h.checkpoint_eq] at hcheckpoint
    rw [← h.checkpoint_height]
    exact hcheckpoint.firstCheckpoint hread
  · intro h
    obtain ⟨heq, hheight⟩ := h.taken hblock hmem (isCheckpoint_of_parse hparse) hread hcheckpoint
    obtain ⟨b, before, after, hb, hsplit, -⟩ := hfulfillment.inBlock
    have hi : r.withdrawalFulfillmentTx.2 < blocks.length := (List.getElem?_eq_some_iff.mp hb).1
    have hb' := getElem?_of_read hread hi ▸ hb
    have htx : r.withdrawalFulfillmentTx.1.transaction ∈ b.txdata := by simp [hsplit]
    have htxid := of_decide_eq_true (Except.ok.inj hfulfillment.passes)
    have hle := hlater _ b _ hb' htx htxid
    refine ⟨heq, hheight, by omega, ⟨b, hb', ?_, htx, htxid⟩, ?_⟩
    · rw [hheaders, getElem?_map, hb]
      rfl
    · rw [hheaders, length_map, hlength]

end Connects

end Prepare

/-! ### Two chains -/

namespace Linear

def bundleEnv : BundleEnv where
  toEnv := plain
  generateTxProof _ idx := ⟨idx⟩
  generateWtxProof _ idx := ⟨idx⟩

def payout : Transaction := txSpending [⟨stakeTxid 9, 0⟩] [[1]]

/-- The transactions of the block at a height of a chain with two checkpoints, at the given
heights, and a fulfillment at height 103. -/
def minedAt (first second : ℕ) (height : ℕ) : List Transaction :=
  if height = first then [checkpointTx 1]
  else if height = second then [checkpointTx 2]
  else if height = 103 then [payout]
  else []

/-- A chain with two checkpoints and a fulfillment, long enough for a proof. -/
def chainWith (first second : ℕ) : List ChainBlock :=
  (range 114).map fun h => chainBlock h (h + 1) h (minedAt first second h)

end Linear

theorem exists_returned {result : MayPanic (Option (Except String ProofHeaderChain))}
    {test : ProofHeaderChain → Bool}
    (h : (match result with | .ok (some (.ok r)) => test r | _ => false) = true) :
    ∃ r, result = .ok (some (.ok r)) ∧ test r = true := by
  split at h
  · exact ⟨_, rfl, h⟩
  · cases h

theorem first_checkpoint_connects :
    ∃ r, prepareHeaderChain bundleEnv ⟨20, 0⟩ (computeTxid payout) 101
        (chainWith 102 105) = .ok (some (.ok r)) ∧
      HeaderChainOf bundleEnv (chainWith 102 105)
        (computeTxid payout) 101 (checkpointTx 1) 102 r := by
  obtain ⟨r, hr, -⟩ : ∃ r, prepareHeaderChain bundleEnv ⟨20, 0⟩
      (computeTxid payout) 101 (chainWith 102 105) = .ok (some (.ok r)) ∧
      true = true := exists_returned (by decide +kernel)
  have hblock : (chainWith 102 105)[102]? =
      some (chainBlock 102 103 102 [checkpointTx 1]) := by decide +kernel
  have hempty : (chainWith 102 105)[101]? = some (emptyBlock 101) := by
    decide +kernel
  have hparse : parseStrataCheckpoint bundleEnv.toEnv ⟨20, 0⟩ (checkpointTx 1) =
      .ok (some ⟨[], ⟨0⟩, ⟨1⟩, 100⟩) := by decide +kernel
  have hfirst : FirstCheckpoint bundleEnv ⟨20, 0⟩ (chainWith 102 105) 101 (checkpointTx 1) 102 := by
    refine ⟨by decide, fun h b hle hlt hb t ht => ?_, fun b hb t ht => ?_⟩
    · obtain rfl : h = 101 := by omega
      obtain rfl := Option.some.inj (hempty.symm.trans hb)
      cases ht
    · obtain rfl := Option.some.inj (hblock.symm.trans hb)
      have hnil : [checkpointTx 1].takeWhile (· ≠ checkpointTx 1) = [] := by
        decide +kernel
      exact absurd (hnil ▸ ht) not_mem_nil
  have hheights : CarryHeights (chainWith 102 105) 101 := by decide +kernel
  have hlater : MinedFrom bundleEnv.toEnv (chainWith 102 105)
      (computeTxid payout) 102 := by decide +kernel
  have hiff := header_chain_connects_iff hblock (mem_singleton_self _) hparse hheights hlater hr
  exact ⟨r, hr, hiff.mpr hfirst⟩

/-- **Another checkpoint is taken** when it is mined between the blocks that a checkpoint covers and
that checkpoint itself. The proof then starts from a chain state other than the one that made the
assignment. -/
theorem other_checkpoint_taken :
    CarryHeights (chainWith 101 102) 101 ∧
      MinedFrom plain (chainWith 101 102) (computeTxid payout) 102 ∧
      (∃ b, (chainWith 101 102)[102]? = some b ∧ checkpointTx 2 ∈ b.txdata) ∧
      parseStrataCheckpoint plain ⟨20, 0⟩ (checkpointTx 2) = .ok (some ⟨[], ⟨0⟩, ⟨1⟩, 100⟩) ∧
      ∃ r, prepareHeaderChain bundleEnv ⟨20, 0⟩ (computeTxid payout) 101
          (chainWith 101 102) = .ok (some (.ok r)) ∧
        r.strataCheckpointTx.1.transaction = checkpointTx 1 ∧
        ¬HeaderChainOf bundleEnv (chainWith 101 102)
          (computeTxid payout) 101 (checkpointTx 2) 102 r := by
  have hblock : (chainWith 101 102)[102]? =
      some (chainBlock 102 103 102 [checkpointTx 2]) := by decide +kernel
  refine ⟨by decide +kernel, by decide +kernel, ⟨_, hblock, mem_singleton_self _⟩,
    by decide +kernel, ?_⟩
  obtain ⟨r, hr, htaken⟩ : ∃ r, prepareHeaderChain bundleEnv ⟨20, 0⟩
      (computeTxid payout) 101 (chainWith 101 102) = .ok (some (.ok r)) ∧
      decide (r.strataCheckpointTx.1.transaction = checkpointTx 1) = true :=
    exists_returned (by decide +kernel)
  have htaken := of_decide_eq_true htaken
  refine ⟨r, hr, htaken, fun h => ?_⟩
  have hsame : checkpointTx 1 = checkpointTx 2 := htaken.symm.trans h.checkpoint_eq
  exact absurd hsame (by decide +kernel)

end StrataBridge
