import StrataBridge.BtcNotify.Placeholders

/-!
# Lifecycles and the queue

The state machine of the ZMQ client keeps two things that change independently of each other: the
queue of blocks that are not buried, and the lifecycles of transactions. A lifecycle that is bound
to a block is useful only as long as the queue still has the block. It does, in every run in which
blocks extend the tip and only the tip is disconnected, while filters come and go. From that follows
that the disconnection of a block takes back exactly what its connection has done.

## References

* `crates/btc-notify/src/state_machine.rs`, lines 119–397
-/

namespace StrataBridge

open Rust Transition Linear BTreeMap List

variable {block : ChainBlock}

def HashLinked (queue : List ChainBlock) : Prop :=
  queue.IsChain fun newer older => newer.prevBlockhash = older.blockHash

instance (queue : List ChainBlock) : Decidable (HashLinked queue) :=
  inferInstanceAs (Decidable (List.IsChain _ queue))

namespace BtcZmqSM

inductive Input where
  | message (msg : ZmqMessage)
  | addFilter (pred : TxPredicate)
  | rmFilter (position : ℕ)

def serve (env : Env) (sm : BtcZmqSM) : Input → Option (BtcZmqSM × List TxEvent)
  | .message msg =>
    match sm.process env msg with
    | .ok (sm', txEvents, _) => some (sm', txEvents)
    | .error _ => none
  | .addFilter pred => some (sm.addFilter pred, [])
  | .rmFilter position => some (sm.rmFilter position, [])

def ExtendsTip (sm : BtcZmqSM) (block : ChainBlock) : Prop :=
  ∀ tip ∈ sm.unburiedBlocks.head?, block.prevBlockhash = tip.blockHash

def ChainConsistent (sm : BtcZmqSM) : Input → Prop
  | .message (.block block) => sm.ExtendsTip block
  | .message (.sequence (.blockDisconnect blockhash)) =>
    ∃ tip ∈ sm.unburiedBlocks.head?, tip.blockHash = blockhash
  | _ => True

instance (sm : BtcZmqSM) (block : ChainBlock) : Decidable (sm.ExtendsTip block) :=
  inferInstanceAs (Decidable (∀ tip ∈ sm.unburiedBlocks.head?, block.prevBlockhash = tip.blockHash))

instance (sm : BtcZmqSM) : (i : Input) → Decidable (sm.ChainConsistent i)
  | .message (.block block) => inferInstanceAs (Decidable (sm.ExtendsTip block))
  | .message (.sequence (.blockDisconnect blockhash)) =>
    inferInstanceAs (Decidable (∃ tip ∈ sm.unburiedBlocks.head?, tip.blockHash = blockhash))
  | .message (.sequence (.blockConnect _)) | .message (.sequence (.mempoolAcceptance _))
  | .message (.sequence (.mempoolRemoval _)) | .message (.hashBlock _) | .message (.hashTx _)
  | .message (.tx _) | .addFilter _ | .rmFilter _ => .isTrue trivial

def HasPlace (env : Env) (queue : List ChainBlock) (txid : Txid)
    (place : BitcoinBlockHeight × BlockHash) : Prop :=
  ∃ b ∈ queue, (b.height, b.blockHash) = place ∧ txid ∈ b.txdata.map env.computeTxid

/-- **The machine is coherent**: its queue is linked and not too long, a lifecycle is kept under the
identifier of its transaction, and if it is bound to a block, then to one of the queue that contains
the transaction. -/
structure Coherent (env : Env) (depth bound : ℕ) (sm : BtcZmqSM) : Prop where
  buryDepth : sm.buryDepth = depth
  linked : HashLinked sm.unburiedBlocks
  short : sm.unburiedBlocks.length ≤ max depth bound
  keyed : ∀ (txid : Txid) lifecycle, sm.txLifecycles[txid]? = some (some lifecycle) →
    env.computeTxid lifecycle.raw = txid
  placed : ∀ (txid : Txid) raw place, sm.txLifecycles[txid]? = some (some ⟨raw, some place⟩) →
    HasPlace env sm.unburiedBlocks txid place

variable {env : Env} {depth bound : ℕ} {sm sm' : BtcZmqSM} {queue : List ChainBlock}

theorem HasPlace.mono {queue' : List ChainBlock} {txid : Txid}
    {place : BitcoinBlockHeight × BlockHash} (h : HasPlace env queue txid place)
    (hsub : ∀ b ∈ queue, txid ∈ b.txdata.map env.computeTxid → (b.height, b.blockHash) = place →
      b ∈ queue') : HasPlace env queue' txid place := by
  obtain ⟨b, hb, hplace, htxid⟩ := h
  exact ⟨b, hsub b hb htxid hplace, hplace, htxid⟩

namespace Coherent

theorem of_entries (h : Coherent env depth bound sm) (hdepth : sm'.buryDepth = sm.buryDepth)
    (hqueue : sm'.unburiedBlocks = sm.unburiedBlocks)
    (hentries : ∀ (txid : Txid) lifecycle, sm'.txLifecycles[txid]? = some (some lifecycle) →
      sm.txLifecycles[txid]? = some (some lifecycle) ∨
        lifecycle.block = none ∧ env.computeTxid lifecycle.raw = txid) :
    Coherent env depth bound sm' where
  buryDepth := hdepth.trans h.buryDepth
  linked := hqueue ▸ h.linked
  short := hqueue ▸ h.short
  keyed txid lifecycle hget := (hentries txid lifecycle hget).elim (h.keyed txid lifecycle) (·.2)
  placed txid raw place hget := by
    rcases hentries txid _ hget with hold | ⟨hnone, -⟩
    · exact hqueue ▸ h.placed txid raw place hold
    · cases hnone

theorem processTx (h : Coherent env depth bound sm) (tx : Transaction) :
    Coherent env depth bound (sm.processTx env tx).1 := by
  have hinsert (txid : Txid) (lifecycle : TxLifecycle)
      (hget : (sm.txLifecycles.insert (env.computeTxid tx) (some ⟨tx, none⟩))[txid]? =
        some (some lifecycle)) : sm.txLifecycles[txid]? = some (some lifecycle) ∨
        lifecycle.block = none ∧ env.computeTxid lifecycle.raw = txid := by
    rw [get_insert] at hget
    split at hget
    next heq =>
      cases hget
      exact .inr ⟨rfl, heq⟩
    next => exact .inl hget
  rw [BtcZmqSM.processTx]
  split
  · split
    · exact h.of_entries rfl rfl hinsert
    · exact h.of_entries rfl rfl hinsert
    · exact h
  · exact h

theorem processBlock (h : Coherent env depth bound sm) (hext : sm.ExtendsTip block) :
    Coherent env depth bound (sm.processBlock env block).1 := by
  obtain ⟨hdepth, -, hqueue⟩ := queue_processBlock env hext
  have hlinked : HashLinked (block :: sm.unburiedBlocks) :=
    isChain_cons.mpr ⟨fun tip htip => hext tip htip, h.linked⟩
  have hshort := h.short
  refine ⟨hdepth.trans h.buryDepth, ?_, ?_, fun txid lifecycle hget => ?_,
    fun txid raw place hget => ?_⟩
  · rw [hqueue]
    split
    · exact hlinked.prefix (List.dropLast_prefix _)
    · exact hlinked
  · rw [hqueue, h.buryDepth]
    split
    · simpa using hshort
    next hroom =>
      omega
  · rcases get_processBlock env hext txid with
      ⟨-, hnone⟩ | ⟨-, ⟨-, raw, hsome, hraw⟩ | ⟨-, hsame⟩⟩
    · rw [hnone] at hget
      cases hget
    · obtain rfl := Option.some.inj (Option.some.inj (hsome.symm.trans hget))
      rcases hraw with hraw | ⟨place, hold⟩
      · exact hraw
      · exact h.keyed txid ⟨raw, place⟩ hold
    · exact h.keyed txid lifecycle (hsame.symm.trans hget)
  · -- the block that falls out of the queue does not contain the transaction
    have hstays : HasPlace env (block :: sm.unburiedBlocks) txid place →
        txid ∉ (Feed.buriedTxs sm.buryDepth (block :: sm.unburiedBlocks)).map env.computeTxid →
          HasPlace env (sm.processBlock env block).1.unburiedBlocks txid place := by
      intro hplace hburied
      refine hplace.mono fun b hb htxid _ => ?_
      rw [hqueue]
      rw [Feed.buriedTxs] at hburied
      split at hburied
      next hfull =>
        rw [if_pos hfull]
        rw [← dropLast_append_getLast (cons_ne_nil block sm.unburiedBlocks)] at hb
        rcases mem_append.mp hb with hb | hb
        · exact hb
        · rw [mem_singleton.mp hb] at htxid
          exact absurd htxid hburied
      next hroom =>
        rw [if_neg hroom]
        exact hb
    rcases get_processBlock env hext txid with
      ⟨-, hnone⟩ | ⟨hburied, ⟨hasked, raw', hsome, -⟩ | ⟨-, hsame⟩⟩
    · rw [hnone] at hget
      cases hget
    · rw [hsome] at hget
      obtain ⟨-, hplace⟩ := TxLifecycle.mk.inj (Option.some.inj (Option.some.inj hget))
      obtain ⟨tx, htx, -, htxid⟩ := Feed.mem_asked.mp hasked
      exact hstays ⟨block, mem_cons_self, Option.some.inj hplace,
        mem_map.mpr ⟨tx, htx, htxid⟩⟩ hburied
    · refine hstays ?_ hburied
      exact (h.placed txid raw place (hsame.symm.trans hget)).mono
        fun b hb _ _ => mem_cons_of_mem _ hb

end Coherent

/-! ### The tip is disconnected -/

theorem processSequence_tip {tip : ChainBlock} {rest : List ChainBlock}
    (hqueue : sm.unburiedBlocks = tip :: rest) :
    sm.processSequence (.blockDisconnect tip.blockHash) =
      .ok ({ sm with
          txLifecycles := sm.txLifecycles.filter fun _ v => (unbound tip.blockHash v).isNone
          unburiedBlocks := rest },
        sm.txLifecycles.toList.filterMap fun e => unbound tip.blockHash e.2,
        some ⟨tip, .uncled⟩) := by
  rw [processSequence, hqueue, popTip, if_pos rfl]
  rfl

theorem get_filter_unbound (lifecycles : BTreeMap Txid (Option TxLifecycle))
    (blockhash : BlockHash) (txid : Txid) :
    (lifecycles.filter fun _ v => (unbound blockhash v).isNone)[txid]? =
      lifecycles[txid]?.filter fun v => (unbound blockhash v).isNone :=
  Std.ExtTreeMap.getElem?_filter'

theorem unbound_eq_some {blockhash : BlockHash} {v : Option TxLifecycle} {e : TxEvent} :
    unbound blockhash v = some e ↔
      ∃ raw height, v = some ⟨raw, some (height, blockhash)⟩ ∧ e = ⟨raw, .unknown⟩ := by
  constructor
  · intro h
    match v, h with
    | some ⟨raw, some (height, blk)⟩, h =>
      rw [unbound] at h
      split at h
      next hblk => exact ⟨raw, height, by rw [hblk], (Option.some.inj h).symm⟩
      next => cases h
  · rintro ⟨raw, height, rfl, rfl⟩
    exact if_pos rfl

theorem Coherent.disconnect (h : Coherent env depth bound sm) {tip : ChainBlock}
    {rest : List ChainBlock} (hqueue : sm.unburiedBlocks = tip :: rest) :
    Coherent env depth bound
      { sm with
        txLifecycles := sm.txLifecycles.filter fun _ v => (unbound tip.blockHash v).isNone
        unburiedBlocks := rest } := by
  have hlinked := h.linked
  have hshort := h.short
  rw [hqueue] at hlinked hshort
  refine ⟨h.buryDepth, hlinked.tail, Nat.le_trans (Nat.le_succ _) hshort,
    fun txid lifecycle hget => ?_, fun txid raw place hget => ?_⟩
  · rw [get_filter_unbound] at hget
    exact h.keyed txid lifecycle (Option.filter_eq_some_iff.mp hget).1
  · rw [get_filter_unbound] at hget
    obtain ⟨hold, hbound⟩ := Option.filter_eq_some_iff.mp hget
    refine (h.placed txid raw place hold).mono fun b hb _ hplace => ?_
    rw [hqueue] at hb
    rcases mem_cons.mp hb with rfl | hb
    · obtain rfl := hplace
      rw [unbound_eq_some.mpr ⟨raw, b.height, rfl, rfl⟩] at hbound
      cases hbound
    · exact hb

/-! ### Runs -/

theorem Coherent.serve (h : Coherent env depth bound sm) {i : Input} {es : List TxEvent}
    (hi : sm.ChainConsistent i) (hs : sm.serve env i = some (sm', es)) :
    Coherent env depth bound sm' := by
  have hsame {lifecycles : BTreeMap Txid (Option TxLifecycle)}
      (hentries : ∀ (txid : Txid) lifecycle, lifecycles[txid]? = some (some lifecycle) →
        sm.txLifecycles[txid]? = some (some lifecycle)) :
      Coherent env depth bound { sm with txLifecycles := lifecycles } :=
    h.of_entries rfl rfl fun txid lifecycle hget => .inl (hentries txid lifecycle hget)
  cases i with
  | addFilter pred =>
    cases hs
    exact ⟨h.buryDepth, h.linked, h.short, h.keyed, h.placed⟩
  | rmFilter position =>
    cases hs
    rw [rmFilter]
    split
    · exact ⟨h.buryDepth, h.linked, h.short, h.keyed, h.placed⟩
    · exact h
  | message msg =>
    cases msg with
    | hashBlock _ | hashTx _ =>
      cases hs
      exact h
    | block block =>
      cases hs
      exact h.processBlock hi
    | tx tx =>
      cases hs
      exact h.processTx tx
    | sequence seq =>
      cases seq with
      | blockConnect _ =>
        cases hs
        exact h
      | blockDisconnect blockhash =>
        obtain ⟨tip, htip, rfl⟩ := hi
        obtain ⟨rest, hqueue⟩ : ∃ rest, sm.unburiedBlocks = tip :: rest :=
          ⟨_, (eq_cons_of_mem_head? htip)⟩
        rw [BtcZmqSM.serve, process, processSequence_tip hqueue] at hs
        cases hs
        exact h.disconnect hqueue
      | mempoolAcceptance txid =>
        rw [BtcZmqSM.serve, process, processSequence] at hs
        rcases hget : sm.txLifecycles[txid]? with _ | _ | ⟨raw, _ | place⟩
        · rw [hget] at hs
          cases hs
          refine hsame fun txid' lifecycle hget' => ?_
          rw [get_insert] at hget'
          split at hget'
          · cases hget'
          · exact hget'
        · rw [hget] at hs
          cases hs
        · rw [hget] at hs
          cases hs
          exact h
        · rw [hget] at hs
          cases hs
          exact h
      | mempoolRemoval txid =>
        have hremoved : Coherent env depth bound
            { sm with txLifecycles := sm.txLifecycles.erase txid } := by
          refine hsame fun txid' lifecycle hget' => ?_
          rw [get_erase] at hget'
          split at hget'
          · cases hget'
          · exact hget'
        rw [BtcZmqSM.serve, process, processSequence] at hs
        rcases hget : sm.txLifecycles[txid]? with _ | _ | lifecycle
        all_goals
          rw [hget] at hs
          cases hs
          exact hremoved

/-- **The machine is coherent in every run** in which blocks come and go at the tip. -/
theorem coherent_of_reachable (hlinked : HashLinked queue)
    (hreach : Reachable (serve env) ChainConsistent (init depth queue) sm) :
    Coherent env depth queue.length sm := by
  refine hreach.invariant (I := Coherent env depth queue.length) ?_
    fun _ _ _ _ h hi hs => h.serve hi hs
  refine ⟨rfl, hlinked, Nat.le_max_right depth queue.length, ?_, ?_⟩
  · intro txid lifecycle hget
    simp [init] at hget
  · intro txid raw place hget
    simp [init] at hget

/-! ### Mined transactions -/

def minings (sm : BtcZmqSM) (block : ChainBlock) : List TxEvent :=
  (block.txdata.filter sm.selects).map fun tx => ⟨tx, .mined block.blockHash block.height⟩

theorem filter_isMined_processBlock (hext : sm.ExtendsTip block) :
    (sm.processBlock env block).2.1.filter (fun e => e.status.isMined) = sm.minings block := by
  rw [processBlock, receive_of_extends hext]
  dsimp only
  split
  · rw [snd_recordBuried, snd_recordMined]
    simp [minings, filter_map, TxStatus.isMined]
  · rw [snd_recordMined]
    simp [minings, filter_map, TxStatus.isMined]

/-- **Queue, lifecycles and mined transactions.** In every state that is reached from a linked queue
without lifecycles, by blocks that extend the tip, disconnections of the tip, transactions and news
of the mempool, while filters are added and removed: the queue is linked and has at most as many
blocks as the depth or as it had at the start; every lifecycle that is bound to a block names one of
the queue that contains the transaction; and a block that is connected next is reported with one
event for each of its transactions that a filter then asks for. -/
theorem queue_and_lifecycles (hlinked : HashLinked queue)
    (hreach : Reachable (serve env) ChainConsistent (init depth queue) sm) :
    HashLinked sm.unburiedBlocks ∧ sm.unburiedBlocks.length ≤ max depth queue.length ∧
    (∀ (txid : Txid) raw place, sm.txLifecycles[txid]? = some (some ⟨raw, some place⟩) →
      env.computeTxid raw = txid ∧ HasPlace env sm.unburiedBlocks txid place) ∧
    ∀ block, sm.ExtendsTip block →
      (sm.processBlock env block).2.1.filter (fun e => e.status.isMined) = sm.minings block := by
  have h := coherent_of_reachable hlinked hreach
  refine ⟨h.linked, h.short, fun txid raw place hget => ?_, fun block hext => ?_⟩
  · exact ⟨h.keyed txid _ hget, h.placed txid raw place hget⟩
  · exact filter_isMined_processBlock hext

/-- A payment is mined, its block is disconnected, and it is mined again in another block, while one
filter takes the place of another. -/
theorem queue_and_lifecycles_reorganized : ∃ sm : BtcZmqSM,
    Reachable (serve plain) ChainConsistent (init 2 [chainBlock 20 20 19 []]) sm ∧
    HashLinked sm.unburiedBlocks ∧
    ∃ raw place, sm.txLifecycles[computeTxid (payment 1)]? = some (some ⟨raw, some place⟩) ∧
      HasPlace plain sm.unburiedBlocks (computeTxid (payment 1)) place := by
  obtain ⟨sm, es, hrun, hfound⟩ := exists_run_of_exec (serve plain) ChainConsistent
    (init 2 [chainBlock 20 20 19 []])
    [.addFilter fun tx => tx.lockTime == 2, .addFilter fun tx => tx.lockTime == 1,
      .message (.tx (payment 1)),
      .message (.block (chainBlock 21 21 20 [payment 1])), .rmFilter 0,
      .message (.sequence (.blockDisconnect ⟨21⟩)),
      .message (.block (chainBlock 21 121 20 [payment 2, payment 1]))]
    (fun sm _ => (sm.txLifecycles[computeTxid (payment 1)]?).any fun v =>
      v.any fun lifecycle => lifecycle.block.isSome) (by decide +kernel)
  have hlinked : HashLinked [chainBlock 20 20 19 []] := by decide
  obtain ⟨hqueue, -, hplaced, -⟩ := queue_and_lifecycles hlinked ⟨es, hrun⟩
  obtain ⟨v, hv, hfound⟩ := (Option.any_eq_true _ _).mp hfound
  obtain ⟨⟨raw, block⟩, rfl, hfound⟩ := (Option.any_eq_true _ _).mp hfound
  obtain ⟨place, rfl⟩ := Option.isSome_iff_exists.mp hfound
  exact ⟨sm, ⟨es, hrun⟩, hqueue, raw, place, hv, (hplaced _ raw place hv).2⟩

/-! ### A block that is connected and disconnected -/

theorem map_computeTxid_unbound (env : Env) (blockhash : BlockHash)
    (entries : List (Txid × Option TxLifecycle))
    (hkeyed : ∀ e ∈ entries, ∀ lifecycle, e.2 = some lifecycle →
      env.computeTxid lifecycle.raw = e.1) :
    ((entries.filterMap fun e => unbound blockhash e.2).map fun e => env.computeTxid e.rawtx) =
      (entries.filter fun e => (unbound blockhash e.2).isSome).map Prod.fst := by
  induction entries with
  | nil => rfl
  | cons e entries ih =>
    have ih := ih fun e' he' => hkeyed e' (mem_cons_of_mem e he')
    cases hunbound : unbound blockhash e.2 with
    | none => simp [hunbound, ih]
    | some event =>
      have hid : env.computeTxid event.rawtx = e.1 := by
        obtain ⟨raw, height, hv, rfl⟩ := unbound_eq_some.mp hunbound
        exact hkeyed e mem_cons_self _ hv
      simp [hunbound, ih, hid]

/-- After a block was connected to a queue with room, the lifecycles bound to it are those of its
transactions that a filter asks for; the other entries are as before. -/
theorem get_connected (h : Coherent env depth bound sm) (hext : sm.ExtendsTip block)
    (hroom : sm.unburiedBlocks.length < depth)
    (hfresh : ∀ b ∈ sm.unburiedBlocks, b.blockHash ≠ block.blockHash) (txid : Txid) :
    txid ∈ (block.txdata.filter sm.selects).map env.computeTxid ∧
        (∃ v e, (sm.processBlock env block).1.txLifecycles[txid]? = some v ∧
          unbound block.blockHash v = some e) ∨
      txid ∉ (block.txdata.filter sm.selects).map env.computeTxid ∧
        (sm.processBlock env block).1.txLifecycles[txid]? = sm.txLifecycles[txid]? ∧
        ∀ v, sm.txLifecycles[txid]? = some v → unbound block.blockHash v = none := by
  have hburied : Feed.buriedTxs sm.buryDepth (block :: sm.unburiedBlocks) = [] := by
    rw [Feed.buriedTxs, if_neg]
    rw [h.buryDepth, length_cons]
    omega
  rcases get_processBlock env hext txid with
    ⟨hmem, -⟩ | ⟨-, ⟨hasked, raw, hget, -⟩ | ⟨hasked, hget⟩⟩
  · rw [hburied] at hmem
    cases hmem
  · exact .inl ⟨hasked, _, _, hget, unbound_eq_some.mpr ⟨raw, block.height, rfl, rfl⟩⟩
  · refine .inr ⟨hasked, hget, fun v hv => ?_⟩
    cases hunbound : unbound block.blockHash v with
    | none => rfl
    | some e =>
      obtain ⟨raw, height, rfl, -⟩ := unbound_eq_some.mp hunbound
      obtain ⟨b, hb, hplace, -⟩ := h.placed txid raw _ hv
      exact absurd (congrArg Prod.snd hplace) (hfresh b hb)

/-- **A block that is connected and disconnected again.** In every state reached whose queue has
room, let a block extend the tip, with a hash that no block of the queue has. Its disconnection
takes it from the queue again, and restores the lifecycles of all transactions but those of the
block that a filter asks for. These have none afterwards, and for each of them, so for each
transaction that was reported as mined, there is one event that it is unknown. -/
theorem disconnect_inverts_block (hlinked : HashLinked queue)
    (hreach : Reachable (serve env) ChainConsistent (init depth queue) sm)
    (hext : sm.ExtendsTip block) (hroom : sm.unburiedBlocks.length < depth)
    (hfresh : ∀ b ∈ sm.unburiedBlocks, b.blockHash ≠ block.blockHash) :
    ∃ sm' unknown,
      (sm.processBlock env block).1.processSequence (.blockDisconnect block.blockHash) =
        .ok (sm', unknown, some ⟨block, .uncled⟩) ∧
      sm'.unburiedBlocks = sm.unburiedBlocks ∧
      (∀ txid : Txid, txid ∉ (block.txdata.filter sm.selects).map env.computeTxid →
        sm'.txLifecycles[txid]? = sm.txLifecycles[txid]?) ∧
      (∀ txid ∈ (block.txdata.filter sm.selects).map env.computeTxid,
        sm'.txLifecycles[txid]? = none) ∧
      (∀ e ∈ unknown, e.status = .unknown) ∧
      (unknown.map fun e => env.computeTxid e.rawtx).Nodup ∧
      ∀ txid, txid ∈ (unknown.map fun e => env.computeTxid e.rawtx) ↔
        txid ∈ ((sm.processBlock env block).2.1.filter fun e => e.status.isMined).map fun e =>
          env.computeTxid e.rawtx := by
  have h := coherent_of_reachable hlinked hreach
  have hconnected := h.processBlock hext
  have hqueue : (sm.processBlock env block).1.unburiedBlocks = block :: sm.unburiedBlocks := by
    rw [(queue_processBlock env hext).2.2, if_neg]
    rw [h.buryDepth, length_cons]
    omega
  have hids := map_computeTxid_unbound env block.blockHash
    (sm.processBlock env block).1.txLifecycles.toList fun e he lifecycle hv =>
      hconnected.keyed e.1 lifecycle (hv ▸ mem_toList.mp he)
  refine ⟨_, _, processSequence_tip hqueue, rfl, fun txid htxid => ?_, fun txid htxid => ?_,
    fun e he => ?_, ?_, fun txid => ?_⟩
  · rw [get_filter_unbound]
    rcases get_connected h hext hroom hfresh txid with ⟨hmem, -⟩ | ⟨-, hget, hunbound⟩
    · exact absurd hmem htxid
    · rw [hget]
      cases hold : sm.txLifecycles[txid]? with
      | none => rfl
      | some v => simp [hunbound v hold]
  · rw [get_filter_unbound]
    rcases get_connected h hext hroom hfresh txid with ⟨-, v, e, hget, hunbound⟩ | ⟨hmem, -⟩
    · rw [hget, Option.filter_some, hunbound]
      rfl
    · exact absurd htxid hmem
  · obtain ⟨entry, -, hunbound⟩ := mem_filterMap.mp he
    obtain ⟨raw, height, -, rfl⟩ := unbound_eq_some.mp hunbound
    rfl
  · rw [hids]
    exact (nodup_map_fst_toList _).sublist (filter_sublist.map _)
  · have hmined : ((sm.processBlock env block).2.1.filter fun e => e.status.isMined).map
        (fun e => env.computeTxid e.rawtx) =
          (block.txdata.filter sm.selects).map env.computeTxid := by
      rw [filter_isMined_processBlock hext, minings, map_map]
      rfl
    rw [hids, hmined, mem_map]
    constructor
    · rintro ⟨⟨txid', v⟩, hentry, rfl⟩
      obtain ⟨hentry, hsome⟩ := mem_filter.mp hentry
      have hget := mem_toList.mp hentry
      rcases get_connected h hext hroom hfresh txid' with ⟨hmem, -⟩ | ⟨-, hsame, hunbound⟩
      · exact hmem
      · rw [hunbound v (hsame.symm.trans hget)] at hsome
        cases hsome
    · intro hmem
      rcases get_connected h hext hroom hfresh txid with ⟨-, v, e, hget, hunbound⟩ | ⟨hnot, -⟩
      · refine ⟨(txid, v), mem_filter.mpr ⟨mem_toList.mpr hget, ?_⟩, rfl⟩
        rw [hunbound]
        rfl
      · exact absurd hmem hnot

/-- Payment 1 is in the mempool, payment 2 is not asked for. The block with both of them is
connected and disconnected; nothing is known of payment 1 afterwards. -/
theorem disconnect_inverts_block_payment : ∃ sm sm' unknown,
    Reachable (serve plain) ChainConsistent (init 2 [chainBlock 20 20 19 []]) sm ∧
    (sm.txLifecycles[computeTxid (payment 1)]?).isSome ∧
    (sm.processBlock plain (chainBlock 21 21 20 [payment 1, payment 2])).1.processSequence
      (.blockDisconnect ⟨21⟩) =
        .ok (sm', unknown, some ⟨chainBlock 21 21 20 [payment 1, payment 2], .uncled⟩) ∧
    sm'.unburiedBlocks = sm.unburiedBlocks ∧
    sm'.txLifecycles[computeTxid (payment 1)]? = none := by
  obtain ⟨sm, es, hrun, hfound⟩ := exists_run_of_exec (serve plain) ChainConsistent
    (init 2 [chainBlock 20 20 19 []])
    [.addFilter fun tx => tx.lockTime == 1, .message (.tx (payment 1))]
    (fun sm _ => decide (sm.ExtendsTip (chainBlock 21 21 20 [payment 1, payment 2])) &&
      decide (sm.unburiedBlocks.length < 2) &&
      decide (∀ b ∈ sm.unburiedBlocks, b.blockHash ≠ ⟨21⟩) &&
      (sm.txLifecycles[computeTxid (payment 1)]?).isSome &&
      decide (computeTxid (payment 1) ∈
        ([payment 1, payment 2].filter sm.selects).map plain.computeTxid))
    (by decide +kernel)
  simp only [Bool.and_eq_true, decide_eq_true_eq] at hfound
  obtain ⟨⟨⟨⟨hext, hroom⟩, hfresh⟩, hknown⟩, hasked⟩ := hfound
  have hlinked : HashLinked [chainBlock 20 20 19 []] := by decide
  obtain ⟨sm', unknown, hok, hqueue, -, hnone, -⟩ :=
    disconnect_inverts_block hlinked ⟨es, hrun⟩ hext hroom hfresh
  exact ⟨sm, sm', unknown, ⟨es, hrun⟩, hknown, hok, hqueue, hnone _ hasked⟩

/-! ### A branch that is connected and disconnected -/

def connectBlock (env : Env) (sm : BtcZmqSM) (block : ChainBlock) : BtcZmqSM :=
  (sm.processBlock env block).1

def disconnectBlock (sm : BtcZmqSM) (block : ChainBlock) : MayPanic BtcZmqSM :=
  (sm.processSequence (.blockDisconnect block.blockHash)).map Prod.fst

theorem get_connected_filter (h : Coherent env depth bound sm) (hext : sm.ExtendsTip block)
    (hroom : sm.unburiedBlocks.length < depth)
    (hfresh : ∀ b ∈ sm.unburiedBlocks, b.blockHash ≠ block.blockHash) (txid : Txid) :
    ((sm.connectBlock env block).txLifecycles[txid]?.filter fun v =>
        (unbound block.blockHash v).isNone) =
      if txid ∈ (block.txdata.filter sm.selects).map env.computeTxid then none
      else sm.txLifecycles[txid]? := by
  rw [connectBlock]
  rcases get_connected h hext hroom hfresh txid with
    ⟨hmem, v, e, hget, hunbound⟩ | ⟨hmem, hget, hunbound⟩
  · rw [if_pos hmem, hget, Option.filter_some, hunbound]
    rfl
  · rw [if_neg hmem, hget]
    cases hold : sm.txLifecycles[txid]? with
    | none => rfl
    | some v => simp [hunbound v hold]

/-- **A reorganization leaves nothing of the branch behind.** In every state reached, let the blocks
of a branch be connected one after another, as long as the queue has room, and then disconnected
from the tip down. No message is refused, and the queue is the former one. So are the lifecycles of
all transactions, but those of the branch that a filter asks for, which have none. -/
theorem disconnect_inverts_branch (hlinked : HashLinked queue)
    (hreach : Reachable (serve env) ChainConsistent (init depth queue) sm)
    (branch : List ChainBlock) (hext : HashLinked (branch.reverse ++ sm.unburiedBlocks))
    (hroom : branch.length + sm.unburiedBlocks.length ≤ depth)
    (hfresh : ((branch.reverse ++ sm.unburiedBlocks).map ChainBlock.blockHash).Nodup) :
    ∃ sm', branch.reverse.foldlM disconnectBlock (branch.foldl (connectBlock env) sm) = .ok sm' ∧
      sm'.unburiedBlocks = sm.unburiedBlocks ∧
      ∀ txid : Txid, sm'.txLifecycles[txid]? =
        if txid ∈ (branch.flatMap fun b => b.txdata.filter sm.selects).map env.computeTxid then none
        else sm.txLifecycles[txid]? := by
  have h := coherent_of_reachable hlinked hreach
  clear hreach hlinked
  induction branch generalizing sm with
  | nil => exact ⟨sm, rfl, rfl, fun _ => rfl⟩
  | cons block rest ih =>
    simp only [reverse_cons, append_assoc, singleton_append] at hext hfresh
    rw [length_cons] at hroom
    have hlinked : HashLinked (block :: sm.unburiedBlocks) := (isChain_append.mp hext).2.1
    have hblock : sm.ExtendsTip block := (isChain_cons.mp hlinked).1
    have hnew : ∀ b ∈ sm.unburiedBlocks, b.blockHash ≠ block.blockHash := by
      rw [map_append, map_cons] at hfresh
      intro b hb heq
      exact (nodup_cons.mp (nodup_append.mp hfresh).2.1).1 (heq ▸ mem_map_of_mem hb)
    obtain ⟨-, hfilters, hqueue⟩ := queue_processBlock env hblock
    rw [if_neg (by rw [h.buryDepth, length_cons]; omega), ← connectBlock] at hqueue
    have hselects : (sm.connectBlock env block).selects = sm.selects :=
      congrArg (fun filters tx => filters.any fun f => f tx) hfilters
    have hconnected : Coherent env depth _ (sm.connectBlock env block) := h.processBlock hblock
    obtain ⟨sm₁, hok, hqueue₁, hlife⟩ := ih (hqueue ▸ hext)
      (by rw [hqueue, length_cons]; omega) (hqueue ▸ hfresh) hconnected
    refine ⟨{ sm₁ with
      txLifecycles := sm₁.txLifecycles.filter fun _ v => (unbound block.blockHash v).isNone
      unburiedBlocks := sm.unburiedBlocks }, ?_, rfl, fun txid => ?_⟩
    · rw [reverse_cons, foldlM_append, foldl_cons, hok]
      change (disconnectBlock sm₁ block).bind _ = _
      rw [disconnectBlock, processSequence_tip (hqueue₁.trans hqueue)]
      rfl
    · rw [get_filter_unbound, hlife txid, hselects, flatMap_cons, map_append]
      split_ifs with hrest hall hall
      · rfl
      · exact absurd (mem_append_right _ hrest) hall
      · rw [get_connected_filter h hblock (by omega) hnew txid]
        exact if_pos ((mem_append.mp hall).resolve_right hrest)
      · rw [get_connected_filter h hblock (by omega) hnew txid]
        exact if_neg fun hmem => hall (mem_append_left _ hmem)

/-- Two blocks are connected and disconnected, one of them with a payment that is asked for. -/
theorem disconnect_inverts_two : ∃ sm' : BtcZmqSM,
    [chainBlock 22 22 21 [], chainBlock 21 21 20 [payment 1]].foldlM disconnectBlock
      ([chainBlock 21 21 20 [payment 1], chainBlock 22 22 21 []].foldl (connectBlock plain)
        ((init 3 [chainBlock 20 20 19 []]).addFilter fun tx => tx.lockTime == 1)) = .ok sm' ∧
    sm'.unburiedBlocks = [chainBlock 20 20 19 []] ∧
    sm'.txLifecycles[computeTxid (payment 1)]? = none := by
  have hreach : Reachable (serve plain) ChainConsistent (init 3 [chainBlock 20 20 19 []]) _ :=
    Reachable.refl.snoc (i := Input.addFilter fun tx => tx.lockTime == 1) trivial rfl
  have hlinked : HashLinked [chainBlock 20 20 19 []] := by decide
  obtain ⟨sm', hok, hqueue, hlife⟩ := disconnect_inverts_branch hlinked hreach
    [chainBlock 21 21 20 [payment 1], chainBlock 22 22 21 []] (by decide) (by decide) (by decide)
  exact ⟨sm', hok, hqueue, hlife _⟩

end BtcZmqSM

end StrataBridge
