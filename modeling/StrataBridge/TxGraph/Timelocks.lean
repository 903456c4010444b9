import StrataBridge.Instance.LinearGraph
import StrataBridge.Script.Bytes
import StrataBridge.StakeChain.StakeChain
import StrataBridge.TxGraph.Generated

/-!
# Relative timelocks of the graph

Four kinds of transactions have an input that waits: a payout, an optimistic payout, a pre-assert
and a later stake transaction. The leaf script that such an input spends pushes the whole timelock
and checks it with `OP_CSV`, while the sequence number of the input is made from the lowest 16 bits
of the timelock. The two agree exactly on timelocks that fit in 16 bits. For the stake chain,
whose timelock is either a number of blocks or a time, they agree exactly on numbers of blocks: the
bit that marks a time is not among the lowest 16.

## Main definitions

* `WaitsFor`: an input waits for the timelock of its leaf

## Main results

* `timelocks_wait_iff`: when all of them do
* `long_payout_opens_early`: a payout that does not

## References

* `crates/tx-graph/src/transactions/payout.rs`, lines 89–97,
  `crates/tx-graph/src/transactions/payout_optimistic.rs`, line 108,
  `crates/tx-graph/src/transactions/pre_assert.rs`, line 157,
  `crates/stake-chain/src/transactions/stake.rs`, lines 222 and 484
* `crates/primitives/src/scripts/general.rs`, lines 43–53,
  `crates/connectors/src/connector_s.rs`, lines 111–133
-/

namespace StrataBridge

open Rust Script Linear

variable {ctx : Spending} {key : XOnlyPublicKey} {timelock index : ℕ} {tx : Transaction}
  {input : TxIn} {controlBlock : Bytes} {cpfp : ConnectorCpfp}

/-! ### Leaf scripts -/

structure LeafBytes where
  /-- `XOnlyPublicKey::serialize`. -/
  serialize : XOnlyPublicKey → Vector UInt8 32
  /-- `sha256::Hash::to_byte_array`. -/
  toByteArray : Sha256Hash → Vector UInt8 32

variable (bytes : LeafBytes)

/-- `n_of_n_with_timelock` (`general.rs`, lines 45–53). -/
def nOfNWithTimelock (aggregatedPubkey : XOnlyPublicKey) (timelock : ℕ) : List Op :=
  [.int timelock, .checkSequenceVerify, .drop, .push (bytes.serialize aggregatedPubkey).toList,
    .checkSig]

/-- `ConnectorStake::generate_script` (`connector_s.rs`, lines 111–133). A timelock of zero blocks
is no timelock. -/
def ConnectorStake.generateScript (c : ConnectorStake) : List Op :=
  [.push (bytes.serialize c.operatorPubkey).toList, .checkSigVerify, .size, .int 0x20,
    .equalVerify, .sha256, .push (bytes.toByteArray c.stakeHash).toList, .equalVerify] ++
    if c.delta ≠ 0 then [.int c.delta, .checkSequenceVerify] else [.int 1]

def GraphEnv.withLeafScripts (env : GraphEnv) : GraphEnv :=
  { env with
    nOfNWithTimelock := fun key timelock =>
      compile (StrataBridge.nOfNWithTimelock bytes key timelock)
    connectorStakeSpendInfo := fun agg operator hash delta network =>
      (compile (ConnectorStake.generateScript bytes ⟨agg, operator, hash, delta, network⟩),
        (env.connectorStakeSpendInfo agg operator hash delta network).2) }

/-! ### Lock times -/

/-- `relative::LockTime`: a number of blocks, or of intervals of 512 seconds. -/
inductive LockTime where
  | blocks (height : UInt16)
  | time (intervals : UInt16)
  deriving DecidableEq, Repr

namespace LockTime

/-- `LockTime::to_consensus_u32`: bit 22 marks a time. -/
def toConsensusU32 : LockTime → ℕ
  | .blocks height => height.toNat
  | .time intervals => 2 ^ 22 + intervals.toNat

def lock : LockTime → RelativeLock
  | .blocks height => .blocks height.toNat
  | .time intervals => .time intervals.toNat

end LockTime

/-! ### Inputs that wait -/

/-- An input of a transaction waits for a lock: by its sequence number it waits exactly that long,
and every witness that unlocks the leaf it spends, but for the timelock, satisfies the leaf. -/
def WaitsFor (tx : Transaction) (index : ℕ) (spend : TaprootWitness)
    (unlocks : Spending → List Bytes → Prop) (lock : RelativeLock) : Prop :=
  ∃ input leaf controlBlock, tx.input[index]? = some input ∧ spend = .script leaf controlBlock ∧
    2 ≤ tx.version ∧ RelativeLock.ofSequence input.sequence = some lock ∧
    ∀ ctx witness, ctx.version = tx.version → ctx.sequence = input.sequence →
      unlocks ctx witness → Accepts ctx leaf witness

def SignedBy (key : XOnlyPublicKey) (ctx : Spending) (witness : List Bytes) : Prop :=
  ∃ signature, witness = [signature] ∧ signature ≠ [] ∧
    ctx.verifies (bytes.serialize key).toList signature = true

def RevealedBy (key : XOnlyPublicKey) (hash : Sha256Hash) (ctx : Spending)
    (witness : List Bytes) : Prop :=
  ∃ signature preimage, witness = [signature, preimage] ∧ signature ≠ [] ∧
    ctx.verifies (bytes.serialize key).toList signature = true ∧ preimage.length = 32 ∧
    ctx.sha256 preimage = (bytes.toByteArray hash).toList

/-! ### Sequence numbers -/

section Sequences

variable {bytes}

theorem ofSequence_sequenceFromHeight (blocks : ℕ) :
    RelativeLock.ofSequence (sequenceFromHeight blocks) =
      some (.blocks (sequenceFromHeight blocks)) := by
  have hlt : sequenceFromHeight blocks < 2 ^ 16 := Nat.mod_lt _ (by decide)
  rw [RelativeLock.ofSequence_of_lt (hlt.trans (by decide)), Nat.mod_eq_of_lt hlt]

theorem sequenceFromHeight_eq_iff {blocks : ℕ} : sequenceFromHeight blocks = blocks ↔
    blocks < 2 ^ 16 :=
  Nat.mod_eq_iff_lt (by decide)

theorem checkSequence_sequenceFromHeight {n : ℕ} (hversion : 2 ≤ ctx.version)
    (hsequence : ctx.sequence = sequenceFromHeight n) (hn : n < 2 ^ 22) :
    ctx.checkSequence n = true := by
  rw [Spending.checkSequence, hsequence, ofSequence_sequenceFromHeight,
    RelativeLock.ofSequence_of_lt hn]
  simp [RelativeLock.le, hversion, sequenceFromHeight]

theorem exec_checkSequenceVerify {n : ℕ} (hn : n < 2 ^ 39) (hcheck : ctx.checkSequence n = true)
    (st alt : List Bytes) :
    Op.exec ctx .checkSequenceVerify (.top (scriptInt n :: st) alt) =
      some (.top (scriptInt n :: st) alt) := by
  have hread := readScriptInt_scriptInt (j := 5) (by decide) (by decide) hn
  simp [Op.exec, Op.execActive, hread, hcheck]

theorem signatureValid_of_verifies {key : Vector UInt8 32} {signature : Bytes}
    (hne : signature ≠ []) (hverifies : ctx.verifies key.toList signature = true) :
    Op.signatureValid ctx key.toList signature = some true := by
  have hkey : key.toList ≠ [] := fun h => by simpa [h] using key.length_toList
  simp [Op.signatureValid, hne, hverifies]

theorem writable_vector (v : Vector UInt8 32) : (Op.push v.toList).Writable := by
  rw [Op.Writable, Vector.length_toList]
  decide

theorem accepts_nOfNWithTimelock {witness : List Bytes} (htimelock : timelock < 2 ^ 39)
    (hcheck : ctx.checkSequence timelock = true) (hsigned : SignedBy bytes key ctx witness) :
    Accepts ctx (compile (nOfNWithTimelock bytes key timelock)) witness := by
  obtain ⟨signature, rfl, hne, hverifies⟩ := hsigned
  have hwritable : ∀ op ∈ nOfNWithTimelock bytes key timelock, op.Writable := by
    simp only [nOfNWithTimelock, List.forall_mem_cons]
    exact ⟨writable_int _, trivial, trivial, writable_vector _, trivial, by simp⟩
  refine (accepts_compile hwritable _).mpr ⟨ofBool true, [], ?_, rfl⟩
  rw [nOfNWithTimelock, run_cons, exec_int, Option.bind_some, run_cons,
    exec_checkSequenceVerify htimelock hcheck]
  simp [Op.exec, Op.execActive, signatureValid_of_verifies hne hverifies]

theorem accepts_generateScript {c : ConnectorStake} {witness : List Bytes}
    (hdelta : c.delta < 2 ^ 39) (hcheck : ctx.checkSequence c.delta = true)
    (hrevealed : RevealedBy bytes c.operatorPubkey c.stakeHash ctx witness) :
    Accepts ctx (compile (c.generateScript bytes)) witness := by
  obtain ⟨signature, preimage, rfl, hne, hverifies, hlen, hhash⟩ := hrevealed
  have hwritable : ∀ op ∈ c.generateScript bytes, op.Writable := by
    simp only [ConnectorStake.generateScript, List.forall_mem_append, List.forall_mem_cons]
    refine ⟨⟨writable_vector _, trivial, trivial, writable_int _, trivial, trivial,
      writable_vector _, trivial, by simp⟩, ?_⟩
    split_ifs
    · simp only [List.forall_mem_cons]
      exact ⟨writable_int _, trivial, by simp⟩
    · simp only [List.forall_mem_cons]
      exact ⟨writable_int _, by simp⟩
  -- what is left once the signature and the preimage are checked
  have hchecked : run (Op.exec ctx)
      [.push (bytes.serialize c.operatorPubkey).toList, .checkSigVerify, .size, .int 0x20,
        .equalVerify, .sha256, .push (bytes.toByteArray c.stakeHash).toList, .equalVerify]
      (.top [signature, preimage] []) = some (.top [] []) := by
    simp [Op.exec, Op.execActive, Op.int, signatureValid_of_verifies hne hverifies, hlen, hhash]
  rw [accepts_compile hwritable, ConnectorStake.generateScript, run_append_of hchecked]
  by_cases hzero : c.delta = 0
  · exact ⟨scriptInt 1, [], by rw [if_neg (not_not.mpr hzero)]; rfl, rfl⟩
  · refine ⟨scriptInt c.delta, [], ?_, ?_⟩
    · rw [if_pos hzero, run_cons, exec_int, Option.bind_some, run_cons,
        exec_checkSequenceVerify hdelta hcheck]
      rfl
    · exact castToBool_of_readScriptInt
        (readScriptInt_scriptInt (j := 5) (by decide) (by decide) hdelta) (by exact_mod_cast hzero)

end Sequences

/-! ### The inputs of the transactions -/

section Inputs

variable {bytes}

/-- An input with the sequence number of a timelock, whose leaf pushes that timelock, waits for
what is left of the timelock when it is cut to 16 bits. -/
theorem waitsFor_sequenceFromHeight (hversion : tx.version = 3)
    (hinput : tx.input[index]? = some input)
    (hsequence : input.sequence = sequenceFromHeight timelock) (hlt : timelock < 2 ^ 22) :
    WaitsFor tx index (.script (compile (nOfNWithTimelock bytes key timelock)) controlBlock)
      (SignedBy bytes key) (.blocks (sequenceFromHeight timelock)) := by
  refine ⟨input, _, controlBlock, hinput, rfl, by rw [hversion]; decide, ?_, ?_⟩
  · rw [hsequence, ofSequence_sequenceFromHeight]
  · intro ctx witness hctx hseq hsigned
    refine accepts_nOfNWithTimelock (hlt.trans (by decide)) ?_ hsigned
    exact checkSequence_sequenceFromHeight (by rw [hctx, hversion]; decide) (hseq.trans hsequence)
      hlt

theorem waitsFor_nOfN_iff (hversion : tx.version = 3) (hinput : tx.input[index]? = some input)
    (hsequence : input.sequence = sequenceFromHeight timelock) :
    WaitsFor tx index (.script (compile (nOfNWithTimelock bytes key timelock)) controlBlock)
      (SignedBy bytes key) (.blocks timelock) ↔ timelock < 2 ^ 16 := by
  constructor
  · rintro ⟨input', leaf, cb, hinput', -, -, hlock, -⟩
    obtain rfl : input = input' := Option.some.inj (hinput.symm.trans hinput')
    rw [hsequence, ofSequence_sequenceFromHeight, Option.some.injEq,
      RelativeLock.blocks.injEq] at hlock
    exact sequenceFromHeight_eq_iff.mp hlock
  · intro hlt
    have hwaits : WaitsFor tx index
        (.script (compile (nOfNWithTimelock bytes key timelock)) controlBlock)
        (SignedBy bytes key) (.blocks (sequenceFromHeight timelock)) :=
      waitsFor_sequenceFromHeight hversion hinput hsequence (hlt.trans (by decide))
    rwa [sequenceFromHeight_eq_iff.mpr hlt] at hwaits

/-- An input with the lowest 16 bits of a lock time as its sequence number, whose leaf pushes the
lock time, waits as it should exactly where the lock time is a number of blocks. -/
theorem waitsFor_stake_iff {delta : LockTime} {c : ConnectorStake} (hversion : tx.version = 3)
    (hinput : tx.input[index]? = some input) (hdelta : c.delta = delta.toConsensusU32)
    (hsequence : input.sequence = sequenceFromHeight c.delta) :
    WaitsFor tx index (.script (compile (c.generateScript bytes)) controlBlock)
      (RevealedBy bytes c.operatorPubkey c.stakeHash) delta.lock ↔
        ∃ height, delta = .blocks height := by
  have hread : RelativeLock.ofSequence input.sequence =
      some (.blocks (sequenceFromHeight c.delta)) := by
    rw [hsequence, ofSequence_sequenceFromHeight]
  cases delta with
  | time intervals =>
    refine ⟨?_, fun ⟨height, h⟩ => by cases h⟩
    rintro ⟨input', leaf, cb, hinput', -, -, hlock, -⟩
    obtain rfl : input = input' := Option.some.inj (hinput.symm.trans hinput')
    rw [hread] at hlock
    cases hlock
  | blocks height =>
    refine ⟨fun _ => ⟨height, rfl⟩, fun _ => ?_⟩
    have hlt : c.delta < 2 ^ 16 := hdelta ▸ height.toNat_lt
    refine ⟨input, _, controlBlock, hinput, rfl, by rw [hversion]; decide, ?_, ?_⟩
    · rw [hread, sequenceFromHeight_eq_iff.mpr hlt, hdelta]
      rfl
    · intro ctx witness hctx hseq hrevealed
      refine accepts_generateScript (hlt.trans (by decide)) ?_ hrevealed
      exact checkSequence_sequenceFromHeight (by rw [hctx, hversion]; decide)
        (hseq.trans hsequence) (hlt.trans (by decide))

variable (env : GraphEnv)

theorem PayoutTx.waits_iff {data : PayoutData} {a3 : ConnectorA3} {nOfN : ConnectorNOfN}
    {p : ConnectorP} {tx : CovenantTx numPayoutInputs}
    (h : PayoutTx.new (env.withLeafScripts bytes) data a3 nOfN p cpfp = .ok tx) :
    WaitsFor tx.unsignedTx 1 (tx.witnesses.get ⟨1, by decide⟩) (SignedBy bytes a3.nOfNAggPubkey)
      (.blocks a3.payoutTimelock) ↔ a3.payoutTimelock < 2 ^ 16 := by
  obtain ⟨txOuts, -, h⟩ := MayPanic.bind_eq_ok.mp h
  cases h
  exact waitsFor_nOfN_iff rfl rfl rfl

theorem PayoutOptimisticTx.waits_iff {data : PayoutOptimisticData} {c0 : ConnectorC0}
    {c1 : ConnectorC1} {nOfN : ConnectorNOfN} {p : ConnectorP}
    {tx : CovenantTx numPayoutOptimisticInputs}
    (h : PayoutOptimisticTx.new (env.withLeafScripts bytes) data c0 c1 nOfN p cpfp = .ok tx) :
    WaitsFor tx.unsignedTx 2 (tx.witnesses.get ⟨2, by decide⟩) (SignedBy bytes c1.nOfNAggPubkey)
      (.blocks c1.payoutOptimisticTimelock) ↔ c1.payoutOptimisticTimelock < 2 ^ 16 := by
  obtain ⟨txOuts, -, h⟩ := MayPanic.bind_eq_ok.mp h
  cases h
  exact waitsFor_nOfN_iff rfl rfl rfl

theorem PreAssertTx.waits_iff {claimTxid : Txid} {c0 : ConnectorC0} {a256 : ConnectorA256Factory}
    {aHash : ConnectorAHashFactory} {tx : CovenantTx 1}
    (h : PreAssertTx.new (env.withLeafScripts bytes) claimTxid c0 cpfp a256 aHash = .ok tx) :
    WaitsFor tx.unsignedTx 0 (tx.witnesses.get ⟨0, by decide⟩) (SignedBy bytes c0.nOfNAggPubkey)
      (.blocks c0.preAssertTimelock) ↔ c0.preAssertTimelock < 2 ^ 16 := by
  obtain ⟨netStake, -, h⟩ := MayPanic.bind_eq_ok.mp h
  cases h
  exact waitsFor_nOfN_iff rfl rfl rfl

theorem StakeTx.waits_iff (ctx : TxBuildContext) {params : StakeChainParams} {delta : LockTime}
    (hdelta : params.delta = delta.toConsensusU32) (input : StakeTxData) (prevHash : Sha256Hash)
    (prevStake : OutPoint) :
    let tx := StakeTx.newTail (env.withLeafScripts bytes).toEnv ctx params input prevHash prevStake
    WaitsFor tx.unsignedTx 1 tx.witnesses.2 (RevealedBy bytes input.operatorPubkey prevHash)
      delta.lock ↔ ∃ height, delta = .blocks height :=
  waitsFor_stake_iff (c := ⟨_, input.operatorPubkey, prevHash, params.delta, _⟩) rfl rfl hdelta rfl

end Inputs

/-- **The inputs with a timelock wait as they should exactly where the timelock fits.** For a
payout, an optimistic payout and a pre-assert this is a timelock below `2 ^ 16`; a longer one is
cut, and the leaf, which compares 16 bits, accepts the shorter wait or nothing at all. For a later
stake transaction it is a timelock in blocks; a time loses the bit that marks it. -/
theorem timelocks_wait_iff (env : GraphEnv) :
    (∀ data a3 nOfN p cpfp tx,
      PayoutTx.new (env.withLeafScripts bytes) data a3 nOfN p cpfp = .ok tx →
      (WaitsFor tx.unsignedTx 1 (tx.witnesses.get ⟨1, by decide⟩)
        (SignedBy bytes a3.nOfNAggPubkey) (.blocks a3.payoutTimelock) ↔
          a3.payoutTimelock < 2 ^ 16)) ∧
    (∀ data c0 c1 nOfN p cpfp tx,
      PayoutOptimisticTx.new (env.withLeafScripts bytes) data c0 c1 nOfN p cpfp = .ok tx →
      (WaitsFor tx.unsignedTx 2 (tx.witnesses.get ⟨2, by decide⟩)
        (SignedBy bytes c1.nOfNAggPubkey) (.blocks c1.payoutOptimisticTimelock) ↔
          c1.payoutOptimisticTimelock < 2 ^ 16)) ∧
    (∀ claimTxid c0 cpfp a256 aHash tx,
      PreAssertTx.new (env.withLeafScripts bytes) claimTxid c0 cpfp a256 aHash = .ok tx →
      (WaitsFor tx.unsignedTx 0 (tx.witnesses.get ⟨0, by decide⟩)
        (SignedBy bytes c0.nOfNAggPubkey) (.blocks c0.preAssertTimelock) ↔
          c0.preAssertTimelock < 2 ^ 16)) ∧
    ∀ (ctx : TxBuildContext) (params : StakeChainParams) (delta : LockTime) (input : StakeTxData),
      params.delta = delta.toConsensusU32 →
      (∀ prevHash prevStake,
        let tx := StakeTx.newTail (env.withLeafScripts bytes).toEnv ctx params input prevHash
          prevStake
        WaitsFor tx.unsignedTx 1 tx.witnesses.2
          (RevealedBy bytes input.operatorPubkey prevHash) delta.lock ↔
            ∃ height, delta = .blocks height) ∧
      ∀ prev : StakeTx,
        let tx := prev.advance (env.withLeafScripts bytes).toEnv ctx params input
        WaitsFor tx.unsignedTx 1 tx.witnesses.2
          (RevealedBy bytes input.operatorPubkey prev.hash) delta.lock ↔
            ∃ height, delta = .blocks height := by
  refine ⟨fun _ _ _ _ _ _ h => PayoutTx.waits_iff env h,
    fun _ _ _ _ _ _ _ h => PayoutOptimisticTx.waits_iff env h,
    fun _ _ _ _ _ _ h => PreAssertTx.waits_iff env h, ?_⟩
  intro ctx params delta input hdelta
  refine ⟨fun prevHash prevStake => StakeTx.waits_iff env ctx hdelta input prevHash prevStake, ?_⟩
  intro prev
  exact StakeTx.waits_iff env ctx hdelta input prev.hash _

namespace Linear

def leafBytes : LeafBytes where
  serialize key := .ofFn fun i => UInt8.ofNat (key.code / 256 ^ (31 - i.val))
  toByteArray hash := .ofFn fun i => UInt8.ofNat (hash.code / 256 ^ (31 - i.val))

theorem leafScripts_taproot : (graphEnv.withLeafScripts leafBytes).Taproot :=
  ⟨taproot.taproot, taproot.tweaked, taproot.nonDust⟩

def payoutWith (timelock : ℕ) : MayPanic (CovenantTx numPayoutInputs) :=
  PayoutTx.new (graphEnv.withLeafScripts leafBytes)
    ⟨⟨1⟩, ⟨2⟩, ⟨⟨3⟩, 0⟩, ⟨⟨4⟩, 1⟩, 1000, ⟨30⟩, .regtest⟩
    ⟨.regtest, ⟨2⟩, ⟨7⟩, wotsKeys 0, timelock⟩ ⟨⟨7⟩, .regtest⟩ ⟨⟨7⟩, ⟨40⟩, .regtest⟩
    ⟨⟨30⟩, .regtest⟩

theorem exists_payoutWith (timelock : ℕ) : ∃ tx, payoutWith timelock = .ok tx :=
  PayoutTx.new_returns leafScripts_taproot _ _ _ _ _

end Linear

/-- The default payout timelock fits. -/
theorem week_long_payout_waits : ∃ tx, payoutWith 1008 = .ok tx ∧
    WaitsFor tx.unsignedTx 1 (tx.witnesses.get ⟨1, by decide⟩) (SignedBy leafBytes ⟨7⟩)
      (.blocks 1008) := by
  obtain ⟨tx, htx⟩ := exists_payoutWith 1008
  exact ⟨tx, htx, ((timelocks_wait_iff leafBytes graphEnv).1 _ _ _ _ _ tx htx).mpr (by decide)⟩

/-- With a payout timelock of `65541` blocks the payout does not wait for them: it can be made after
five. A stake chain with a timelock of ten intervals of time does not wait for them either. -/
theorem long_payout_opens_early :
    (∃ tx, payoutWith 65541 = .ok tx ∧
      ¬ WaitsFor tx.unsignedTx 1 (tx.witnesses.get ⟨1, by decide⟩) (SignedBy leafBytes ⟨7⟩)
        (.blocks 65541) ∧
      WaitsFor tx.unsignedTx 1 (tx.witnesses.get ⟨1, by decide⟩) (SignedBy leafBytes ⟨7⟩)
        (.blocks 5)) ∧
    let tx := StakeTx.newTail (graphEnv.withLeafScripts leafBytes).toEnv
      graphCtx { slashParams with delta := (LockTime.time 10).toConsensusU32 }
      ⟨⟨⟨79⟩, 0⟩, ⟨41⟩, ⟨0⟩, ⟨30⟩⟩ ⟨40⟩ ⟨⟨78⟩, stakeVout⟩
    ¬ WaitsFor tx.unsignedTx 1 tx.witnesses.2 (RevealedBy leafBytes ⟨30⟩ ⟨40⟩)
      (LockTime.time 10).lock := by
  constructor
  · obtain ⟨tx, htx⟩ := exists_payoutWith 65541
    have hiff := PayoutTx.waits_iff graphEnv htx
    refine ⟨tx, htx, fun h => absurd (hiff.mp h) (by decide), ?_⟩
    cases htx
    exact waitsFor_sequenceFromHeight rfl rfl rfl (by decide)
  · intro tx h
    obtain ⟨height, hheight⟩ := (StakeTx.waits_iff graphEnv _ rfl _ _ _).mp h
    cases hheight

end StrataBridge
