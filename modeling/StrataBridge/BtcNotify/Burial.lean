import StrataBridge.BtcNotify.StateMachine
import StrataBridge.Burial.Window
import StrataBridge.Instance.LinearChain
import StrataBridge.Transition.Runs

/-!
# What the ZMQ client reports as buried

Bitcoin Core connects blocks to its tip and disconnects them, and tells the client of it between
raw transactions and news of the mempool. The state machine of the client follows the chain through
the window of its unburied blocks, so what it reports obeys the burial law: a block is reported as
buried exactly when it gets its last successor, in the order of the chain, at most once in a stay,
and never if it is uncled in that stay; and with it exactly its transactions that a filter asks for.

This needs that the machine lives. An acceptance into the mempool makes it keep a placeholder for a
transaction, and only a raw transaction that a filter asks for replaces it. A second acceptance of a
transaction that no filter asks for, which Bitcoin Core sends when the block with it was
disconnected, finds the placeholder and the machine panics. Its task ends, and nothing is reported
any more.

## Main definitions

* `BurialLaw`: what is reported, and when

## Main results

* `Watch.burial_law_iff`: the law holds in the runs that the machine survives

## References

* `crates/btc-notify/src/state_machine.rs`
* `crates/btc-notify/src/client.rs`, lines 106–206
-/

namespace StrataBridge

open Transition Burial Linear List BtcZmqSM

variable {msg : ZmqMessage}

/-- The chain of Bitcoin Core, and the state machine that is told of it; there is none any more once
its task has panicked. -/
structure Watch where
  sm : Option BtcZmqSM
  chain : Chain ChainBlock

structure WatchEntry where
  before : Chain ChainBlock
  after : Chain ChainBlock
  txEvents : List TxEvent
  blockEvents : List BlockEvent
  deriving DecidableEq, Repr

namespace WatchEntry

def reported (status : BlockStatus) (e : WatchEntry) : List ChainBlock :=
  (e.blockEvents.filter fun ev => ev.status = status).map BlockEvent.block

def toEntry (e : WatchEntry) : Entry ChainBlock :=
  ⟨e.before, e.after, e.reported .buried, e.reported .uncled⟩

end WatchEntry

/-- **The law of the reports.** Blocks are reported as the burial law says, and with the buried ones
exactly their transactions that some filter asks for, each once. -/
structure BurialLaw (depth : ℕ) (filters : List TxPredicate) (trace : List WatchEntry) : Prop where
  blocks : Lawful depth (trace.map WatchEntry.toEntry)
  txs : ∀ e ∈ trace, e.txEvents.filter (fun ev => ev.status.isBuried) =
    (e.reported .buried).flatMap (burials filters)

namespace Watch

def start (depth : ℕ) (queue : List ChainBlock) (filters : List TxPredicate) : Watch where
  sm := some (filters.foldl addFilter (.init depth queue))
  chain := Chain.ofBlocks queue

def queue (w : Watch) : List ChainBlock := (w.sm.map unburiedBlocks).getD []

def moved (w : Watch) : ZmqMessage → Chain ChainBlock
  | .block block => w.chain.connect block
  | .sequence (.blockDisconnect _) => w.chain.disconnect
  | _ => w.chain

/-- The client takes a message. A machine that panicked takes no more messages, while the chain
goes on. -/
def next (env : Env) (w : Watch) (msg : ZmqMessage) : Watch × WatchEntry :=
  match w.sm with
  | none => (⟨none, w.moved msg⟩, ⟨w.chain, w.moved msg, [], []⟩)
  | some sm =>
    match sm.process env msg with
    | .ok (sm', txEvents, blockEvents) =>
      (⟨some sm', w.moved msg⟩, ⟨w.chain, w.moved msg, txEvents, blockEvents⟩)
    | .error _ => (⟨none, w.moved msg⟩, ⟨w.chain, w.moved msg, [], []⟩)

def step (env : Env) (w : Watch) (msg : ZmqMessage) : Option (Watch × List WatchEntry) :=
  some ((w.next env msg).1, [(w.next env msg).2])

/-- Connected blocks extend the tip, and only the tip is disconnected, never deeper than the
queue. -/
def Legal (w : Watch) : ZmqMessage → Prop
  | .block block => ∀ tip ∈ w.chain.stays.head?, block.prevBlockhash = tip.block.blockHash
  | .sequence (.blockDisconnect blockhash) => ∃ tip ∈ w.queue.head?, tip.blockHash = blockhash
  | _ => True

instance (w : Watch) : (msg : ZmqMessage) → Decidable (w.Legal msg)
  | .block block => inferInstanceAs
      (Decidable (∀ tip ∈ w.chain.stays.head?, block.prevBlockhash = tip.block.blockHash))
  | .sequence (.blockDisconnect blockhash) =>
    inferInstanceAs (Decidable (∃ tip ∈ w.queue.head?, tip.blockHash = blockhash))
  | .sequence (.blockConnect _) | .sequence (.mempoolAcceptance _) | .sequence (.mempoolRemoval _)
  | .hashBlock _ | .hashTx _ | .tx _ => inferInstanceAs (Decidable True)

def Accepts (w : Watch) (msg : ZmqMessage) : Prop := ∀ sm ∈ w.sm, sm.Accepts msg

instance (w : Watch) (msg : ZmqMessage) : Decidable (w.Accepts msg) :=
  inferInstanceAs (Decidable (∀ sm ∈ w.sm, sm.Accepts msg))

def Runs (env : Env) (depth : ℕ) (queue : List ChainBlock) (filters : List TxPredicate) :
    List WatchEntry → Watch → Prop :=
  Run (step env) (fun w msg => w.Legal msg ∧ w.Accepts msg) (start depth queue filters)

variable {env : Env} {depth : ℕ} {queue : List ChainBlock} {filters : List TxPredicate}
  {trace : List WatchEntry} {w : Watch}

/-- The machine lives, and its queue is the window through which the chain is followed. -/
structure Follows (depth : ℕ) (queue : List ChainBlock) (filters : List TxPredicate)
    (trace : List WatchEntry) (w : Watch) : Prop where
  history : ∃ sm window buried, w.sm = some sm ∧
    History depth (Chain.ofBlocks queue) (trace.map WatchEntry.toEntry) w.chain window buried ∧
    sm.unburiedBlocks = window.map Stay.block ∧ sm.buryDepth = depth ∧ sm.txFilters = filters
  txs : ∀ e ∈ trace, e.txEvents.filter (fun ev => ev.status.isBuried) =
    (e.reported .buried).flatMap (burials filters)

theorem Follows.law (h : Follows depth queue filters trace w) (hq : queue.length ≤ depth) :
    BurialLaw depth filters trace := by
  obtain ⟨_, _, _, _, hhist, _⟩ := h.history
  exact ⟨hhist.lawful hq, h.txs⟩

theorem foldl_addFilter (filters : List TxPredicate) (sm : BtcZmqSM) :
    filters.foldl addFilter sm = { sm with txFilters := sm.txFilters ++ filters } := by
  induction filters generalizing sm with
  | nil => simp
  | cons f filters ih => simp [ih, addFilter]

theorem follows_start : Follows depth queue filters [] (start depth queue filters) := by
  refine ⟨⟨_, _, [], rfl, .nil, ?_, ?_, ?_⟩, by simp⟩
  · rw [foldl_addFilter]
    exact (Chain.map_block_stays_ofBlocks queue).symm
  · rw [foldl_addFilter]
    rfl
  · rw [foldl_addFilter]
    rfl

private theorem next_of_ok {sm sm' : BtcZmqSM} {txEvents : List TxEvent}
    {blockEvents : List BlockEvent} (hsm : w.sm = some sm)
    (h : sm.process env msg = .ok (sm', txEvents, blockEvents)) :
    w.next env msg = (⟨some sm', w.moved msg⟩, ⟨w.chain, w.moved msg, txEvents, blockEvents⟩) := by
  rw [next, hsm]
  simp only [h]

private theorem Follows.answered (h : Follows depth queue filters trace w) {sm sm' : BtcZmqSM}
    {txEvents buriedTxs : List TxEvent} {blockEvents : List BlockEvent} {queue' : List ChainBlock}
    {window' buried' : List (Stay ChainBlock)} (hsm : w.sm = some sm)
    (hdepth : sm.buryDepth = depth) (hfilters : sm.txFilters = filters)
    (hok : sm.process env msg = .ok (sm', txEvents, blockEvents))
    (hans : sm.Answers sm' txEvents queue' buriedTxs) (hqueue' : queue' = window'.map Stay.block)
    (hhist : History depth (Chain.ofBlocks queue)
      (trace.map WatchEntry.toEntry ++ [WatchEntry.toEntry ⟨w.chain, w.moved msg, txEvents,
        blockEvents⟩]) (w.moved msg) window' buried')
    (htxs : buriedTxs = (WatchEntry.reported .buried ⟨w.chain, w.moved msg, txEvents,
      blockEvents⟩).flatMap (burials filters)) :
    Follows depth queue filters (trace ++ [(w.next env msg).2]) (w.next env msg).1 := by
  rw [next_of_ok hsm hok]
  refine ⟨⟨sm', window', buried', rfl, by simpa using hhist, ?_, ?_, ?_⟩, fun e he => ?_⟩
  · rw [hans.unburiedBlocks, hqueue']
  · rw [hans.buryDepth, hdepth]
  · rw [hans.txFilters, hfilters]
  · rcases mem_append.mp he with he | he
    · exact h.txs e he
    · rw [mem_singleton.mp he, ← htxs]
      exact hans.buried

theorem Follows.step (env : Env) (h : Follows depth queue filters trace w)
    (hq : queue.length ≤ depth) (hlegal : w.Legal msg) (hacc : w.Accepts msg) :
    Follows depth queue filters (trace ++ [(w.next env msg).2]) (w.next env msg).1 := by
  obtain ⟨sm, window, buried, hsm, hhist, hwindow, hdepth, hfilters⟩ := h.history
  obtain ⟨hstays, hlen⟩ := hhist.stays_eq hq
  have hkeep (hk : msg.KeepsTip) (hmoved : w.moved msg = w.chain) :
      Follows depth queue filters (trace ++ [(w.next env msg).2]) (w.next env msg).1 := by
    obtain ⟨sm', txEvents, hok, hans⟩ := process_keep env hk (hacc sm hsm)
    have hnext : History depth (Chain.ofBlocks queue)
        (trace.map WatchEntry.toEntry ++ [WatchEntry.toEntry ⟨w.chain, w.moved msg, txEvents, []⟩])
        (w.moved msg) window buried := by
      rw [hmoved]
      exact hhist.keep
    exact h.answered hsm hdepth hfilters hok hans hwindow hnext rfl
  cases msg with
  | hashBlock _ => exact hkeep trivial rfl
  | hashTx _ => exact hkeep trivial rfl
  | tx _ => exact hkeep trivial rfl
  | block block =>
    have hext : ∀ tip ∈ sm.unburiedBlocks.head?, block.prevBlockhash = tip.blockHash := by
      intro tip htip
      cases hw : window with
      | nil => simp [hwindow, hw] at htip
      | cons s rest =>
        have hhead : w.chain.stays.head? = some s := by rw [hstays, hw]; rfl
        obtain rfl : s.block = tip := by simpa [hwindow, hw] using htip
        exact hlegal s hhead
    have hlensm : sm.unburiedBlocks.length = window.length := by rw [hwindow, length_map]
    rcases Nat.lt_or_eq_of_le hlen with hlt | heq
    · obtain ⟨sm', txEvents, hok, hans⟩ :=
        process_extend env hext (by rw [hlensm, hdepth]; exact hlt)
      refine h.answered hsm hdepth hfilters hok hans ?_ (hhist.extend block hlt) rfl
      rw [hwindow]
      rfl
    · obtain ⟨window', s, hs⟩ : ∃ window' s,
          (⟨w.chain.next, block⟩ : Stay ChainBlock) :: window = window' ++ [s] :=
        ⟨_, _, (dropLast_append_getLast (cons_ne_nil _ window)).symm⟩
      have hblocks : block :: sm.unburiedBlocks = window'.map Stay.block ++ [s.block] := by
        rw [hwindow]
        simpa using congrArg (map Stay.block) hs
      obtain ⟨sm', txEvents, hok, hans⟩ :=
        process_bury env hext (by rw [hlensm, hdepth]; exact heq) hblocks
      refine h.answered hsm hdepth hfilters hok hans rfl (hhist.bury block heq hs) ?_
      rw [hfilters]
      simp [WatchEntry.reported]
  | sequence seq =>
    cases seq with
    | blockConnect _ => exact hkeep trivial rfl
    | mempoolAcceptance _ => exact hkeep trivial rfl
    | mempoolRemoval _ => exact hkeep trivial rfl
    | blockDisconnect blockhash =>
      obtain ⟨tip, htip, rfl⟩ := hlegal
      have hhead : sm.unburiedBlocks.head? = some tip := by simpa [Watch.queue, hsm] using htip
      cases hw : window with
      | nil => simp [hwindow, hw] at hhead
      | cons s rest =>
        rw [hw] at hhist hwindow
        obtain rfl : s.block = tip := by simpa [hwindow] using hhead
        obtain ⟨sm', txEvents, hok, hans⟩ := process_uncle env hwindow
        exact h.answered hsm hdepth hfilters hok hans rfl hhist.uncle rfl

theorem Runs.follows (h : Runs env depth queue filters trace w) (hq : queue.length ≤ depth) :
    Follows depth queue filters trace w := by
  refine h.invariant follows_start fun trace w msg w' trace' ih hG hstep => ?_
  cases hstep
  exact ih.step env hq hG.1 hG.2

private theorem next_of_not_accepts (h : ¬ w.Accepts msg) : (w.next env msg).1.sm = none := by
  cases hsm : w.sm with
  | none => simp [next, hsm]
  | some sm =>
    have hsmacc : ¬ sm.Accepts msg := fun hacc => h fun sm' hsm' => by
      obtain rfl := Option.some.inj (hsm.symm.trans hsm')
      exact hacc
    obtain ⟨text, htext⟩ := process_of_not_accepts env hsmacc
    simp only [next, hsm, htext]

/-- **The burial law of the client.** In every run of connected and disconnected blocks, raw
transactions and news of the mempool, whatever the depth, the blocks at the start and the filters,
the reports obey the burial law as long as no acceptance finds a placeholder. Such an acceptance is
the only message that the machine does not survive. -/
theorem burial_law_iff (env : Env) (hq : queue.length ≤ depth)
    (h : Runs env depth queue filters trace w) :
    BurialLaw depth filters trace ∧
      ∀ msg, w.Legal msg →
        ((w.next env msg).1.sm.isSome = true ∧
            BurialLaw depth filters (trace ++ [(w.next env msg).2]) ↔ w.Accepts msg) := by
  have hfollows := h.follows hq
  refine ⟨hfollows.law hq, fun msg hlegal => ⟨fun hnext => ?_, fun hacc => ?_⟩⟩
  · by_contra hacc
    rw [next_of_not_accepts hacc] at hnext
    exact Bool.false_ne_true hnext.1
  · have hstep := hfollows.step env hq hlegal hacc
    obtain ⟨sm, _, _, hsm, _⟩ := hstep.history
    exact ⟨by rw [hsm]; rfl, hstep.law hq⟩

/-- A filter asks for payment 1. Its block is disconnected and it is mined again in another one,
and it is reported with that. -/
theorem payment_buried_after_reorganization :
    ∃ trace w,
      Runs (Linear.env fun _ => none) 1 [chainBlock 20 20 19 []]
        [fun tx => tx.lockTime == 1] trace w ∧
      trace.flatMap (WatchEntry.reported .buried) =
        [chainBlock 20 20 19 [], chainBlock 21 121 20 [payment 2, payment 1]] ∧
      BurialLaw 1 [fun tx => tx.lockTime == 1] trace := by
  obtain ⟨w, trace, hrun, hp⟩ := exists_run_of_exec (step (Linear.env fun _ => none))
    (fun w msg => w.Legal msg ∧ w.Accepts msg)
    (start 1 [chainBlock 20 20 19 []] [fun tx => tx.lockTime == 1])
    [.sequence (.mempoolAcceptance (computeTxid (payment 1))),
      .tx (payment 1),
      .block (chainBlock 21 21 20 [payment 1]),
      .sequence (.blockDisconnect ⟨21⟩),
      .sequence (.mempoolAcceptance (computeTxid (payment 1))),
      .block (chainBlock 21 121 20 [payment 2, payment 1]),
      .block (chainBlock 22 122 121 [])]
    (fun _ trace => trace.flatMap (WatchEntry.reported .buried) =
      [chainBlock 20 20 19 [], chainBlock 21 121 20 [payment 2, payment 1]])
    (by decide +kernel)
  have hrun : Runs (Linear.env fun _ => none) 1 [chainBlock 20 20 19 []]
      [fun tx => tx.lockTime == 1] trace w := hrun
  exact ⟨trace, w, hrun, by simpa using hp, (burial_law_iff _ (Nat.le_refl 1) hrun).1⟩

private theorem not_law_of_unreported {done : List WatchEntry} {e : WatchEntry}
    {s : Stay ChainBlock} (hs : e.after.FirstDeep depth (e.before :: done.map WatchEntry.before) s)
    (he : e.reported .buried = []) : ¬ BurialLaw depth filters (done ++ [e]) := by
  intro hlaw
  have hexactly := hlaw.blocks.exactly (done.map WatchEntry.toEntry) e.toEntry [] (by simp) s
  have hpast : (done.map WatchEntry.toEntry).map Entry.before = done.map WatchEntry.before := by
    simp [WatchEntry.toEntry]
  rw [hpast] at hexactly
  have hstay := hexactly.mpr hs
  simp only [WatchEntry.toEntry, he] at hstay
  cases hstay

private def unreported (trace : List WatchEntry) : Bool :=
  trace.getLast?.any fun e => e.reported .buried = [] && e.after.stays.any fun s =>
    decide (e.after.FirstDeep 1 (e.before :: trace.dropLast.map WatchEntry.before) s)

/-- No filter asks for payment 1. It is accepted into the mempool, mined in block 21, and accepted
again when that block is disconnected; the machine panics. The other block 21 gets its successor and
is not reported. -/
theorem burial_missed :
    ∃ trace w,
      Run (step (Linear.env fun _ => none)) Legal (start 1 [chainBlock 20 20 19 []] [])
        trace w ∧ ¬ BurialLaw 1 [] trace := by
  obtain ⟨w, trace, hrun, hp⟩ := exists_run_of_exec (step (Linear.env fun _ => none)) Legal
    (start 1 [chainBlock 20 20 19 []] [])
    [.sequence (.mempoolAcceptance (computeTxid (payment 1))),
      .tx (payment 1),
      .block (chainBlock 21 21 20 [payment 1]),
      .sequence (.blockDisconnect ⟨21⟩),
      .sequence (.mempoolAcceptance (computeTxid (payment 1))),
      .block (chainBlock 21 121 20 [payment 1]),
      .block (chainBlock 22 122 121 [])]
    (fun _ trace => unreported trace) (by decide +kernel)
  refine ⟨trace, w, hrun, ?_⟩
  obtain ⟨e, he, hp⟩ := (Option.any_eq_true _ _).mp hp
  obtain ⟨hnone, hdeep⟩ := Bool.and_eq_true _ _ ▸ hp
  obtain ⟨s, -, hs⟩ := any_eq_true.mp hdeep
  rw [← dropLast_append_getLast? e he]
  exact not_law_of_unreported (of_decide_eq_true hs) (of_decide_eq_true hnone)

end Watch

end StrataBridge
