import StrataBridge.BtcNotify.Burial

/-!
# Acceptances into the mempool

Bitcoin Core tells its client when a transaction is accepted into the mempool and when it is removed
from it; it accepts a transaction again after it was removed, and after a block with it was
connected, as when that block is disconnected. The client keeps a placeholder from the acceptance
until it has the data of the transaction, and takes a second acceptance for an impossibility. But
the data of a transaction that no filter asks for is never kept, so the placeholder stays through
the connection and the disconnection of the block, and the client panics at the next acceptance.

This module follows what the messages say against what the machine holds. The machine survives a
stream of messages if nothing is accepted that still dangles: accepted before, and since then
neither removed, nor seen as a transaction that a filter asks for, nor buried. Where filters do not
tell transactions with one identifier apart, it survives no other stream.

## Main definitions

* `Feed.Clear`: a message accepts nothing that dangles

## Main results

* `Feed.survives_iff`: the machine lives through a stream of such messages
* `Feed.second_acceptance_panics`: it does not live through others

## References

* `crates/btc-notify/src/state_machine.rs`, lines 134–489
-/

namespace StrataBridge

open Rust Linear BTreeMap List BtcZmqSM

/-! ### Messages -/

structure Feed where
  /-- The chain, the newest block first. -/
  chain : List ChainBlock
  /-- What was accepted, and since then neither removed nor in a connected block. -/
  mempool : List Txid
  /-- The newest blocks, as far as the client has not reported them as buried. -/
  window : List ChainBlock
  /-- What was accepted, and since then neither removed, nor seen as a transaction that a filter
  asks for, nor buried. -/
  dangling : List Txid

namespace Feed

def start (queue older : List ChainBlock) : Feed := ⟨queue ++ older, [], queue, []⟩

section Messages

variable (env : Env) (depth : ℕ) (filters : List TxPredicate)

def asked (txs : List Transaction) : List Txid :=
  (txs.filter fun tx => filters.any fun f => f tx).map env.computeTxid

def buriedTxs : List ChainBlock → List Transaction
  | [] => []
  | block :: blocks =>
    if depth < (block :: blocks).length then
      ((block :: blocks).getLast (cons_ne_nil block blocks)).txdata
    else []

def after (f : Feed) : ZmqMessage → Feed
  | .block block =>
    let window := block :: f.window
    { chain := block :: f.chain
      mempool := f.mempool.filter fun txid => txid ∉ block.txdata.map env.computeTxid
      window := if depth < window.length then window.dropLast else window
      dangling := f.dangling.filter fun txid => txid ∉ asked env filters block.txdata ∧
        txid ∉ (buriedTxs depth window).map env.computeTxid }
  | .tx tx => { f with dangling := f.dangling.filter fun txid => txid ∉ asked env filters [tx] }
  | .sequence (.blockDisconnect _) => { f with chain := f.chain.tail, window := f.window.tail }
  | .sequence (.mempoolAcceptance txid) =>
    { f with mempool := txid :: f.mempool, dangling := txid :: f.dangling }
  | .sequence (.mempoolRemoval txid) =>
    { f with
      mempool := f.mempool.filter fun t => t ≠ txid
      dangling := f.dangling.filter fun t => t ≠ txid }
  | .sequence (.blockConnect _) | .hashBlock _ | .hashTx _ => f

def Along (P : Feed → ZmqMessage → Prop) : Feed → List ZmqMessage → Prop
  | _, [] => True
  | f, msg :: ms => P f msg ∧ Along P (f.after env depth filters msg) ms

instance (P : Feed → ZmqMessage → Prop) [∀ f msg, Decidable (P f msg)] :
    (f : Feed) → (ms : List ZmqMessage) → Decidable (Along env depth filters P f ms)
  | _, [] => .isTrue trivial
  | f, msg :: ms =>
    have := instDecidableAlong P (f.after env depth filters msg) ms
    inferInstanceAs (Decidable
      (P f msg ∧ Along env depth filters P (f.after env depth filters msg) ms))

end Messages

/-- The messages that a node can send: blocks connect to the tip and are disconnected from it, and a
transaction is accepted again only after it was removed or in a connected block. -/
def Sends (f : Feed) : ZmqMessage → Prop
  | .block block => ∀ tip ∈ f.chain.head?, block.prevBlockhash = tip.blockHash
  | .sequence (.blockDisconnect blockhash) => ∃ tip ∈ f.chain.head?, tip.blockHash = blockhash
  | .sequence (.mempoolAcceptance txid) => txid ∉ f.mempool
  | _ => True

instance (f : Feed) : (msg : ZmqMessage) → Decidable (f.Sends msg)
  | .block block =>
    inferInstanceAs (Decidable (∀ tip ∈ f.chain.head?, block.prevBlockhash = tip.blockHash))
  | .sequence (.blockDisconnect blockhash) =>
    inferInstanceAs (Decidable (∃ tip ∈ f.chain.head?, tip.blockHash = blockhash))
  | .sequence (.mempoolAcceptance txid) => inferInstanceAs (Decidable (txid ∉ f.mempool))
  | .sequence (.blockConnect _) | .sequence (.mempoolRemoval _) | .hashBlock _ | .hashTx _
  | .tx _ => inferInstanceAs (Decidable True)

def Clear (f : Feed) : ZmqMessage → Prop
  | .sequence (.mempoolAcceptance txid) => txid ∉ f.dangling
  | _ => True

instance (f : Feed) : (msg : ZmqMessage) → Decidable (f.Clear msg)
  | .sequence (.mempoolAcceptance txid) => inferInstanceAs (Decidable (txid ∉ f.dangling))
  | .sequence (.blockConnect _) | .sequence (.blockDisconnect _) | .sequence (.mempoolRemoval _)
  | .hashBlock _ | .hashTx _ | .block _ | .tx _ => inferInstanceAs (Decidable True)

end Feed

/-! ### What a message does to the entries -/

namespace BtcZmqSM

variable (env : Env) {sm : BtcZmqSM}

def processAll : BtcZmqSM → List ZmqMessage → MayPanic BtcZmqSM
  | sm, [] => .ok sm
  | sm, msg :: ms => do
    let (sm', _, _) ← sm.process env msg
    processAll sm' ms

theorem get_processTx (sm : BtcZmqSM) (tx : Transaction) (txid : Txid) :
    txid ∈ Feed.asked env sm.txFilters [tx] ∧
        (∃ lifecycle, (sm.processTx env tx).1.txLifecycles[txid]? = some (some lifecycle)) ∨
      txid ∉ Feed.asked env sm.txFilters [tx] ∧
        (sm.processTx env tx).1.txLifecycles[txid]? = sm.txLifecycles[txid]? := by
  by_cases hsel : sm.selects tx = true
  · have hasked : Feed.asked env sm.txFilters [tx] = [env.computeTxid tx] := by
      have hany : (sm.txFilters.any fun f => f tx) = true := hsel
      simp [Feed.asked, hany]
    have hinsert := get_insert sm.txLifecycles (env.computeTxid tx) txid (some ⟨tx, none⟩)
    rw [hasked, mem_singleton]
    simp only [processTx, if_pos hsel]
    by_cases heq : env.computeTxid tx = txid
    · refine .inl ⟨heq.symm, ?_⟩
      rw [if_pos heq] at hinsert
      subst heq
      split
      next => exact ⟨_, hinsert⟩
      next => exact ⟨_, hinsert⟩
      next lifecycle hget => exact ⟨lifecycle, hget⟩
    · rw [if_neg heq] at hinsert
      refine .inr ⟨Ne.symm heq, ?_⟩
      split
      · exact hinsert
      · exact hinsert
      · rfl
  · have hasked : Feed.asked env sm.txFilters [tx] = [] := by
      have hany : ¬ (sm.txFilters.any fun f => f tx) = true := hsel
      simp only [Feed.asked, filter_cons, if_neg hany, filter_nil, map_nil]
    rw [hasked, processTx, if_neg hsel]
    exact .inr ⟨by simp, rfl⟩

theorem queue_processBlock {block : ChainBlock}
    (hext : ∀ tip ∈ sm.unburiedBlocks.head?, block.prevBlockhash = tip.blockHash) :
    (sm.processBlock env block).1.buryDepth = sm.buryDepth ∧
    (sm.processBlock env block).1.txFilters = sm.txFilters ∧
    (sm.processBlock env block).1.unburiedBlocks =
      if sm.buryDepth < (block :: sm.unburiedBlocks).length then
        (block :: sm.unburiedBlocks).dropLast
      else block :: sm.unburiedBlocks := by
  rw [processBlock, receive_of_extends hext]
  dsimp only
  split <;> exact ⟨rfl, rfl, rfl⟩

/-- **What a block does to the entry of a transaction.** The transactions of the block that falls
out of the queue lose their entries, those of the new block that a filter asks for have one with
their data, bound to the block, and the other entries stay. -/
theorem get_processBlock {block : ChainBlock}
    (hext : ∀ tip ∈ sm.unburiedBlocks.head?, block.prevBlockhash = tip.blockHash) (txid : Txid) :
    txid ∈ (Feed.buriedTxs sm.buryDepth (block :: sm.unburiedBlocks)).map env.computeTxid ∧
        (sm.processBlock env block).1.txLifecycles[txid]? = none ∨
      txid ∉ (Feed.buriedTxs sm.buryDepth (block :: sm.unburiedBlocks)).map env.computeTxid ∧
        (txid ∈ Feed.asked env sm.txFilters block.txdata ∧
            (∃ raw, (sm.processBlock env block).1.txLifecycles[txid]? =
                some (some ⟨raw, some (block.height, block.blockHash)⟩) ∧
              (env.computeTxid raw = txid ∨
                ∃ place, sm.txLifecycles[txid]? = some (some ⟨raw, place⟩))) ∨
          txid ∉ Feed.asked env sm.txFilters block.txdata ∧
            (sm.processBlock env block).1.txLifecycles[txid]? = sm.txLifecycles[txid]?) := by
  have hmined := get_recordMined env block (block.txdata.filter sm.selects)
    (sm.txLifecycles, []) txid
  rw [processBlock, receive_of_extends hext]
  dsimp only [Feed.buriedTxs]
  split
  next hfull =>
    rw [get_recordBuried]
    split
    next hburied => exact .inl ⟨hburied, rfl⟩
    next hburied => exact .inr ⟨hburied, hmined⟩
  next => exact .inr ⟨by simp, hmined⟩

end BtcZmqSM

/-! ### What the machine holds -/

namespace Feed

variable {env : Env} {depth : ℕ} {filters : List TxPredicate} {f : Feed} {sm sm' : BtcZmqSM}

/-- The machine follows the messages: its queue is the window, the newest part of the chain, and
its placeholders dangle. -/
structure Follows (depth : ℕ) (filters : List TxPredicate) (f : Feed) (sm : BtcZmqSM) :
    Prop where
  buryDepth : sm.buryDepth = depth
  txFilters : sm.txFilters = filters
  queue : sm.unburiedBlocks = f.window
  newest : ∃ older, f.chain = f.window ++ older
  placeholders : ∀ txid, sm.txLifecycles[txid]? = some none → txid ∈ f.dangling

variable {msg : ZmqMessage}

theorem Follows.accepts (h : Follows depth filters f sm) (hclear : f.Clear msg) :
    sm.Accepts msg := by
  cases msg with
  | sequence seq =>
    cases seq with
    | mempoolAcceptance txid => exact fun hget => hclear (h.placeholders txid hget)
    | _ => trivial
  | _ => trivial

theorem mem_asked {txs : List Transaction} {txid : Txid} :
    txid ∈ asked env filters txs ↔
      ∃ tx ∈ txs, (filters.any fun f => f tx) = true ∧ env.computeTxid tx = txid := by
  simp [asked, and_assoc]

section

variable (h : Follows depth filters f sm)
include h

private theorem Follows.extends {block : ChainBlock} (hsends : f.Sends (.block block)) :
    ∀ tip ∈ sm.unburiedBlocks.head?, block.prevBlockhash = tip.blockHash := by
  intro tip htip
  rw [h.queue] at htip
  obtain ⟨older, hchain⟩ := h.newest
  refine hsends tip ?_
  rw [hchain, head?_append, htip]
  rfl

private theorem Follows.block {block : ChainBlock} (hsends : f.Sends (.block block)) :
    Follows depth filters (f.after env depth filters (.block block))
      (sm.processBlock env block).1 := by
  have hext := h.extends hsends
  obtain ⟨hdepth, hfilters, hunburied⟩ := queue_processBlock env hext
  obtain ⟨rfl, rfl, hqueue, ⟨older, hchain⟩, hplaceholders⟩ := h
  refine ⟨hdepth, hfilters, ?_, ?_, fun txid hget => ?_⟩
  · rw [hunburied, hqueue]
    rfl
  · have hconnected : block :: f.chain = block :: f.window ++ older := by rw [hchain]; rfl
    rw [after]
    rw [hconnected]
    split
    · refine ⟨(block :: f.window).getLast (cons_ne_nil _ _) :: older, ?_⟩
      rw [append_cons, dropLast_append_getLast]
    · exact ⟨older, rfl⟩
  · rcases get_processBlock env hext txid with
      ⟨-, hnone⟩ | ⟨hburied, ⟨-, raw, hsome, -⟩ | ⟨hasked, hsame⟩⟩
    · rw [hnone] at hget
      cases hget
    · rw [hsome] at hget
      cases hget
    · rw [hqueue] at hburied
      refine mem_filter.mpr ⟨hplaceholders txid (hsame.symm.trans hget), ?_⟩
      exact decide_eq_true ⟨hasked, hburied⟩

private theorem Follows.tx (tx : Transaction) :
    Follows depth filters (f.after env depth filters (.tx tx)) (sm.processTx env tx).1 := by
  obtain ⟨hdepth, hfilters, hqueue⟩ : (sm.processTx env tx).1.buryDepth = sm.buryDepth ∧
      (sm.processTx env tx).1.txFilters = sm.txFilters ∧
      (sm.processTx env tx).1.unburiedBlocks = sm.unburiedBlocks := by
    simp only [processTx]
    repeat' split
    all_goals exact ⟨rfl, rfl, rfl⟩
  refine ⟨hdepth.trans h.buryDepth, hfilters.trans h.txFilters, hqueue.trans h.queue, h.newest,
    fun txid hget => ?_⟩
  rcases get_processTx env sm tx txid with
    ⟨-, lifecycle, hsome⟩ | ⟨hasked, hsame⟩
  · rw [hsome] at hget
    cases hget
  · rw [h.txFilters] at hasked
    exact mem_filter.mpr ⟨h.placeholders txid (hsame.symm.trans hget), decide_eq_true hasked⟩

private theorem Follows.popTip {blockhash : BlockHash}
    (hsends : f.Sends (.sequence (.blockDisconnect blockhash))) :
    ∃ event, popTip blockhash sm.unburiedBlocks = .ok (f.window.tail, event) := by
  obtain ⟨older, hchain⟩ := h.newest
  obtain ⟨tip, htip, hhash⟩ := hsends
  rw [h.queue]
  cases hw : f.window with
  | nil => exact ⟨none, rfl⟩
  | cons block rest =>
    rw [hchain, hw] at htip
    obtain rfl : block = tip := by simpa using htip
    exact ⟨some ⟨block, .uncled⟩, by rw [BtcZmqSM.popTip, if_pos hhash]; rfl⟩

/-- **The machine follows a message** that a node can send and that finds no placeholder. -/
private theorem Follows.step (hsends : f.Sends msg) (haccepts : sm.Accepts msg) :
    ∃ sm' txEvents blockEvents, sm.process env msg = .ok (sm', txEvents, blockEvents) ∧
      Follows depth filters (f.after env depth filters msg) sm' := by
  cases msg with
  | hashBlock _ => exact ⟨_, _, _, rfl, h⟩
  | hashTx _ => exact ⟨_, _, _, rfl, h⟩
  | block block => exact ⟨_, _, _, rfl, h.block hsends⟩
  | tx tx => exact ⟨_, _, _, rfl, h.tx tx⟩
  | sequence seq =>
    cases seq with
    | blockConnect _ => exact ⟨_, _, _, rfl, h⟩
    | blockDisconnect blockhash =>
      obtain ⟨event, hpop⟩ := h.popTip hsends
      rw [process, processSequence, hpop]
      refine ⟨_, _, _, rfl, h.buryDepth, h.txFilters, rfl, ?_, fun txid hget => ?_⟩
      · obtain ⟨older, hchain⟩ := h.newest
        cases hw : f.window with
        | nil => exact ⟨f.chain.tail, by simp [after, hw]⟩
        | cons block rest => exact ⟨older, by simp [after, hw, hchain]⟩
      · rw [Std.ExtTreeMap.getElem?_filter'] at hget
        exact h.placeholders txid (Option.filter_eq_some_iff.mp hget).1
    | mempoolAcceptance txid =>
      rw [process, processSequence]
      rcases hget : sm.txLifecycles[txid]? with _ | _ | ⟨raw, _ | place⟩
      · refine ⟨_, _, _, rfl, h.buryDepth, h.txFilters, h.queue, h.newest, fun t ht => ?_⟩
        rw [get_insert] at ht
        by_cases heq : txid = t
        · rw [heq]
          exact mem_cons_self
        · rw [if_neg heq] at ht
          exact mem_cons_of_mem _ (h.placeholders t ht)
      · exact absurd hget haccepts
      all_goals exact ⟨_, _, _, rfl, h.buryDepth, h.txFilters, h.queue, h.newest,
        fun t ht => mem_cons_of_mem _ (h.placeholders t ht)⟩
    | mempoolRemoval txid =>
      have hremoved : Follows depth filters
          (f.after env depth filters (.sequence (.mempoolRemoval txid)))
          { sm with txLifecycles := sm.txLifecycles.erase txid } := by
        refine ⟨h.buryDepth, h.txFilters, h.queue, h.newest, fun t ht => ?_⟩
        rw [get_erase] at ht
        split_ifs at ht with heq
        exact mem_filter.mpr ⟨h.placeholders t ht, decide_eq_true (Ne.symm heq)⟩
      rw [process, processSequence]
      rcases hget : sm.txLifecycles[txid]? with _ | _ | lifecycle
      all_goals exact ⟨_, _, _, rfl, hremoved⟩

end

/-- The machine holds no data that nobody asked for, and of what dangles it holds a placeholder,
unless it holds data since before an acceptance that is still in force. -/
structure Holds (env : Env) (filters : List TxPredicate) (f : Feed) (sm : BtcZmqSM) : Prop where
  data : ∀ txid lifecycle, sm.txLifecycles[txid]? = some (some lifecycle) →
    ∃ tx, (filters.any fun f => f tx) = true ∧ env.computeTxid tx = txid
  dangling : ∀ txid ∈ f.dangling, sm.txLifecycles[txid]? = some none ∨ txid ∈ f.mempool ∧
    ∃ tx, (filters.any fun f => f tx) = true ∧ env.computeTxid tx = txid

/-- The filters ask for all transactions with an identifier or for none. -/
def ById (env : Env) (filters : List TxPredicate) : Prop :=
  ∀ tx tx', env.computeTxid tx = env.computeTxid tx' →
    (filters.any fun f => f tx) = filters.any fun f => f tx'

section

variable (h : Holds env filters f sm)
include h

private theorem Holds.block (hf : Follows depth filters f sm)
    (hid : ById env filters) {block : ChainBlock} (hsends : f.Sends (.block block)) :
    Holds env filters (f.after env depth filters (.block block)) (sm.processBlock env block).1 := by
  have hext := hf.extends hsends
  obtain ⟨rfl, rfl, hqueue, -, -⟩ := hf
  refine ⟨fun txid lifecycle hget => ?_, fun txid htxid => ?_⟩
  · rcases get_processBlock env hext txid with
      ⟨-, hnone⟩ | ⟨-, ⟨hasked, -⟩ | ⟨-, hsame⟩⟩
    · rw [hnone] at hget
      cases hget
    · obtain ⟨tx, -, htx, hid⟩ := mem_asked.mp hasked
      exact ⟨tx, htx, hid⟩
    · exact h.data txid lifecycle (hsame.symm.trans hget)
  · obtain ⟨htxid, hkept⟩ := mem_filter.mp htxid
    obtain ⟨hnotAsked, hnotBuried⟩ := of_decide_eq_true hkept
    rcases get_processBlock env hext txid with
      ⟨hburied, -⟩ | ⟨-, ⟨hasked, -⟩ | ⟨-, hsame⟩⟩
    · rw [hqueue] at hburied
      exact absurd hburied hnotBuried
    · exact absurd hasked hnotAsked
    · rw [hsame]
      rcases h.dangling txid htxid with hget | ⟨hmempool, tx, hany, hcompute⟩
      · exact .inl hget
      · refine .inr ⟨mem_filter.mpr ⟨hmempool, decide_eq_true fun hmined => ?_⟩, tx, hany, hcompute⟩
        -- a transaction of the block with this identifier is asked for as well
        obtain ⟨tx', htx', hcompute'⟩ := mem_map.mp hmined
        refine hnotAsked (mem_asked.mpr ⟨tx', htx', ?_, hcompute'⟩)
        rw [hid tx' tx (hcompute'.trans hcompute.symm), hany]

private theorem Holds.tx (hf : Follows depth filters f sm) (tx : Transaction) :
    Holds env filters (f.after env depth filters (.tx tx)) (sm.processTx env tx).1 := by
  obtain ⟨rfl, rfl, -, -, -⟩ := hf
  refine ⟨fun txid lifecycle hget => ?_, fun txid htxid => ?_⟩
  · rcases get_processTx env sm tx txid with ⟨hasked, -⟩ | ⟨-, hsame⟩
    · obtain ⟨tx', -, htx', hcompute⟩ := mem_asked.mp hasked
      exact ⟨tx', htx', hcompute⟩
    · exact h.data txid lifecycle (hsame.symm.trans hget)
  · obtain ⟨htxid, hkept⟩ := mem_filter.mp htxid
    rcases get_processTx env sm tx txid with ⟨hasked, -⟩ | ⟨-, hsame⟩
    · exact absurd hasked (of_decide_eq_true hkept)
    · rw [hsame]
      exact h.dangling txid htxid

private theorem Holds.step (hf : Follows depth filters f sm)
    (hid : ById env filters) {txEvents : List TxEvent} {blockEvents : List BlockEvent}
    (hsends : f.Sends msg) (hok : sm.process env msg = .ok (sm', txEvents, blockEvents)) :
    Holds env filters (f.after env depth filters msg) sm' := by
  cases msg with
  | hashBlock _ =>
    cases hok
    exact h
  | hashTx _ =>
    cases hok
    exact h
  | block block =>
    cases hok
    exact h.block hf hid hsends
  | tx tx =>
    cases hok
    exact h.tx hf tx
  | sequence seq =>
    cases seq with
    | blockConnect _ =>
      cases hok
      exact h
    | blockDisconnect blockhash =>
      obtain ⟨event, hpop⟩ := hf.popTip hsends
      rw [process, processSequence, hpop] at hok
      cases hok
      refine ⟨fun txid lifecycle hget => ?_, fun txid htxid => ?_⟩
      · rw [Std.ExtTreeMap.getElem?_filter'] at hget
        exact h.data txid lifecycle (Option.filter_eq_some_iff.mp hget).1
      · rw [Std.ExtTreeMap.getElem?_filter']
        rcases h.dangling txid htxid with hget | hmempool
        · rw [hget]
          exact .inl rfl
        · exact .inr hmempool
    | mempoolAcceptance txid =>
      rw [process, processSequence] at hok
      rcases hget : sm.txLifecycles[txid]? with _ | _ | ⟨raw, place⟩
      · rw [hget] at hok
        cases hok
        refine ⟨fun t lifecycle ht => ?_, fun t ht => ?_⟩
        · rw [get_insert] at ht
          split_ifs at ht
          · cases ht
          · exact h.data t lifecycle ht
        · rw [get_insert]
          split_ifs with heq
          · exact .inl rfl
          · have ht := (mem_cons.mp ht).resolve_left (Ne.symm heq)
            exact (h.dangling t ht).imp_right fun hm => ⟨mem_cons_of_mem _ hm.1, hm.2⟩
      · rw [hget] at hok
        cases hok
      · have hsame : sm' = sm := by
          rw [hget] at hok
          cases place with
          | none => exact (Prod.mk.inj (Except.ok.inj hok)).1.symm
          | some place => exact (Prod.mk.inj (Except.ok.inj hok)).1.symm
        rw [hsame]
        refine ⟨h.data, fun t ht => ?_⟩
        rcases mem_cons.mp ht with rfl | ht
        · exact .inr ⟨mem_cons_self, h.data t _ hget⟩
        · exact (h.dangling t ht).imp_right fun hm => ⟨mem_cons_of_mem _ hm.1, hm.2⟩
    | mempoolRemoval txid =>
      have hsm' : sm' = { sm with txLifecycles := sm.txLifecycles.erase txid } := by
        rw [process, processSequence] at hok
        rcases hget : sm.txLifecycles[txid]? with _ | _ | lifecycle
        all_goals
          rw [hget] at hok
          exact (Prod.mk.inj (Except.ok.inj hok)).1.symm
      rw [hsm']
      refine ⟨fun t lifecycle ht => ?_, fun t ht => ?_⟩
      · rw [get_erase] at ht
        split_ifs at ht
        exact h.data t lifecycle ht
      · obtain ⟨ht, hne⟩ := mem_filter.mp ht
        have hne : t ≠ txid := of_decide_eq_true hne
        rw [get_erase, if_neg (Ne.symm hne)]
        exact (h.dangling t ht).imp_right fun hm =>
          ⟨mem_filter.mpr ⟨hm.1, decide_eq_true hne⟩, hm.2⟩

private theorem Holds.clear (hsends : f.Sends msg) (haccepts : sm.Accepts msg) : f.Clear msg := by
  cases msg with
  | sequence seq =>
    cases seq with
    | mempoolAcceptance txid =>
      intro hdangling
      rcases h.dangling txid hdangling with hget | ⟨hmempool, -⟩
      · exact haccepts hget
      · exact hsends hmempool
    | _ => trivial
  | _ => trivial

end

/-! ### Streams -/

private theorem processAll_of_clear (ms : List ZmqMessage) (h : Follows depth filters f sm)
    (hsends : Along env depth filters Sends f ms) (hclear : Along env depth filters Clear f ms) :
    ∃ sm', sm.processAll env ms = .ok sm' := by
  induction ms generalizing f sm with
  | nil => exact ⟨sm, rfl⟩
  | cons msg ms ih =>
    obtain ⟨sm', _, _, hok, hfollows⟩ := h.step hsends.1 (h.accepts hclear.1)
    rw [processAll, hok]
    exact ih hfollows hsends.2 hclear.2

private theorem clear_of_processAll (hid : ById env filters) (ms : List ZmqMessage)
    (hf : Follows depth filters f sm) (h : Holds env filters f sm)
    (hsends : Along env depth filters Sends f ms) (hok : sm.processAll env ms = .ok sm') :
    Along env depth filters Clear f ms := by
  induction ms generalizing f sm with
  | nil => trivial
  | cons msg ms ih =>
    have haccepts : sm.Accepts msg := by
      by_contra haccepts
      obtain ⟨text, herror⟩ := process_of_not_accepts env haccepts
      rw [processAll, herror] at hok
      cases hok
    obtain ⟨sm₁, _, _, hstep, hfollows⟩ := hf.step hsends.1 haccepts
    rw [processAll, hstep] at hok
    exact ⟨h.clear hsends.1 haccepts, ih hfollows (h.step hf hid hsends.1 hstep) hsends.2 hok⟩

def machine (depth : ℕ) (queue : List ChainBlock) (filters : List TxPredicate) : BtcZmqSM :=
  filters.foldl addFilter (.init depth queue)

theorem follows_machine (queue older : List ChainBlock) :
    Follows depth filters (start queue older) (machine depth queue filters) := by
  rw [machine, Watch.foldl_addFilter]
  refine ⟨rfl, nil_append _, rfl, ⟨older, rfl⟩, fun txid hget => ?_⟩
  simp [init] at hget

theorem holds_machine (queue older : List ChainBlock) :
    Holds env filters (start queue older) (machine depth queue filters) := by
  rw [machine, Watch.foldl_addFilter]
  refine ⟨fun txid lifecycle hget => ?_, fun txid htxid => ?_⟩
  · simp [init] at hget
  · simp [start] at htxid

/-- **The streams that the client survives.** Whatever the depth, the filters and the chain at the
start: the machine answers all messages of a stream that a node can send, raw transactions and
reorganizations of any depth among them, if nothing is accepted that dangles. If the filters do not
tell transactions with one identifier apart, it answers all messages of no other stream. -/
theorem survives_iff (env : Env) (depth : ℕ) (filters : List TxPredicate)
    (queue older : List ChainBlock) (ms : List ZmqMessage)
    (hsends : Along env depth filters Sends (start queue older) ms) :
    (Along env depth filters Clear (start queue older) ms →
      ∃ sm, (machine depth queue filters).processAll env ms = .ok sm) ∧
    (ById env filters →
      ((∃ sm, (machine depth queue filters).processAll env ms = .ok sm) ↔
        Along env depth filters Clear (start queue older) ms)) := by
  have hclear (h : Along env depth filters Clear (start queue older) ms) :
      ∃ sm, (machine depth queue filters).processAll env ms = .ok sm :=
    processAll_of_clear ms (follows_machine queue older) hsends h
  refine ⟨hclear, fun hid => ⟨?_, hclear⟩⟩
  rintro ⟨sm, hok⟩
  exact clear_of_processAll hid ms (follows_machine queue older) (holds_machine queue older) hsends
    hok

def reorganization : List ZmqMessage :=
  [.sequence (.mempoolAcceptance (computeTxid (payment 1))),
    .tx (payment 1),
    .block (chainBlock 21 21 20 [payment 1]),
    .sequence (.blockDisconnect ⟨21⟩),
    .tx (payment 1),
    .sequence (.mempoolAcceptance (computeTxid (payment 1)))]

/-- With a filter that asks for payment 1 the reorganization is survived, and without any filter it
is not. -/
theorem reorganization_survived_if_asked :
    (∃ sm, (machine 1 [chainBlock 20 20 19 []] [fun tx => tx.lockTime == 1]).processAll
      plain reorganization = .ok sm) ∧
    ById plain [] ∧
    ¬ ∃ sm, (machine 1 [chainBlock 20 20 19 []] []).processAll plain reorganization = .ok sm := by
  have hid : ById plain [] := fun _ _ _ => rfl
  refine ⟨?_, hid, fun hok => ?_⟩
  · exact (survives_iff plain 1 [fun tx => tx.lockTime == 1]
      [chainBlock 20 20 19 []] [] reorganization (by decide +kernel)).1 (by decide +kernel)
  · have hclear := ((survives_iff plain 1 [] [chainBlock 20 20 19 []] []
      reorganization (by decide +kernel)).2 hid).mp hok
    revert hclear
    decide +kernel

/-- With a filter that asks for payment 2 alone, a node can send the same messages, and the machine
panics at the last of them. -/
theorem second_acceptance_panics :
    Along plain 1 [fun tx => tx.lockTime == 2] Sends
      (start [chainBlock 20 20 19 []] []) reorganization ∧
    (machine 1 [chainBlock 20 20 19 []] [fun tx => tx.lockTime == 2]).processAll
      plain reorganization =
        .error "invariant violated: MempoolAcceptance received before rawtx" := by
  refine ⟨by decide +kernel, ?_⟩
  have h : (match (machine 1 [chainBlock 20 20 19 []]
      [fun tx => tx.lockTime == 2]).processAll plain reorganization with
    | .error text => text == "invariant violated: MempoolAcceptance received before rawtx"
    | .ok _ => false) = true := by decide +kernel
  split at h
  next text htext => rw [htext, eq_of_beq h]
  next => cases h

end Feed

end StrataBridge
