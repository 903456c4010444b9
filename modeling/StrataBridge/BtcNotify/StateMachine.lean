import StrataBridge.Bitcoin.Block
import StrataBridge.TxGraph.PegOutGraph

/-!
# The state machine of the ZMQ client

The client of Bitcoin Core's ZMQ interface is told of raw blocks, raw transactions and of what
happens to the mempool and to the tip. Its state machine keeps the blocks that are not buried yet
and what it knows of the transactions that somebody asked for, and turns every message into events
for the subscribers.

The assertions that a release build leaves out are not modelled. So a block that does not extend the
tip is dropped, and the tip is looked at again in its place.

## References

* `crates/btc-notify/src/state_machine.rs`
* `crates/btc-notify/src/event.rs`
* `crates/btc-notify/src/client.rs`, lines 106–206
-/

namespace StrataBridge

open Rust List

variable {block : ChainBlock}

/-! ### Events and messages -/

/-- `TxStatus` (`event.rs`, lines 7–46). -/
inductive TxStatus where
  | unknown
  | mempool
  | mined (blockhash : BlockHash) (height : BitcoinBlockHeight)
  | buried (blockhash : BlockHash) (height : BitcoinBlockHeight)
  deriving DecidableEq, Repr

/-- `TxStatus::is_mined` (`event.rs`, lines 65–68). -/
def TxStatus.isMined : TxStatus → Bool
  | .mined _ _ => true
  | _ => false

/-- `TxStatus::is_buried` (`event.rs`, lines 70–73). -/
def TxStatus.isBuried : TxStatus → Bool
  | .buried _ _ => true
  | _ => false

/-- `TxEvent` (`event.rs`, lines 81–88). -/
structure TxEvent where
  rawtx : Transaction
  status : TxStatus
  deriving DecidableEq, Repr

/-- `BlockStatus` (`event.rs`, lines 91–101). -/
inductive BlockStatus where
  | uncled
  | mined
  | buried
  deriving DecidableEq, Repr

/-- `BlockEvent` (`event.rs`, lines 104–111). -/
structure BlockEvent where
  block : ChainBlock
  status : BlockStatus
  deriving DecidableEq, Repr

/-- `bitcoincore_zmq::SequenceMessage`, without the sequence numbers of the mempool. -/
inductive SequenceMessage where
  | blockConnect (blockhash : BlockHash)
  | blockDisconnect (blockhash : BlockHash)
  | mempoolAcceptance (txid : Txid)
  | mempoolRemoval (txid : Txid)
  deriving DecidableEq, Repr

/-- `bitcoincore_zmq::Message`. -/
inductive ZmqMessage where
  | hashBlock (blockhash : BlockHash)
  | hashTx (txid : Txid)
  | block (block : ChainBlock)
  | tx (tx : Transaction)
  | sequence (seq : SequenceMessage)
  deriving DecidableEq, Repr

def ZmqMessage.KeepsTip : ZmqMessage → Prop
  | .block _ | .sequence (.blockDisconnect _) => False
  | _ => True

/-! ### The state machine -/

/-- `TxLifecycle` (`state_machine.rs`, lines 29–37). -/
structure TxLifecycle where
  raw : Transaction
  block : Option (BitcoinBlockHeight × BlockHash)
  deriving DecidableEq, Repr

/-- `TxPredicate` (`state_machine.rs`, line 22). -/
abbrev TxPredicate : Type := Transaction → Bool

/-- `BtcZmqSM` (`state_machine.rs`, lines 41–61). The queue holds the newest block first. -/
structure BtcZmqSM where
  buryDepth : ℕ
  txFilters : List TxPredicate
  txLifecycles : BTreeMap Txid (Option TxLifecycle)
  unburiedBlocks : List ChainBlock

namespace BtcZmqSM

/-- `BtcZmqSM::init` (`state_machine.rs`, lines 105–113). -/
def init (buryDepth : ℕ) (unburiedBlocks : List ChainBlock) : BtcZmqSM where
  buryDepth := buryDepth
  txFilters := []
  txLifecycles := ∅
  unburiedBlocks := unburiedBlocks

/-- `BtcZmqSM::add_filter` (`state_machine.rs`, lines 119–122). -/
def addFilter (sm : BtcZmqSM) (pred : TxPredicate) : BtcZmqSM :=
  { sm with txFilters := sm.txFilters ++ [pred] }

/-- `BtcZmqSM::rm_filter` (`state_machine.rs`, lines 125–130). Filters are compared by their
addresses, so the position at which the filter is found is given (one beyond the end, if it is not
found); the last filter takes its place. -/
def rmFilter (sm : BtcZmqSM) (position : ℕ) : BtcZmqSM :=
  if h : position < sm.txFilters.length then
    let last := sm.txFilters.getLast (ne_nil_of_length_pos (Nat.zero_lt_of_lt h))
    { sm with txFilters := (sm.txFilters.set position last).dropLast }
  else sm

def selects (sm : BtcZmqSM) (tx : Transaction) : Bool := sm.txFilters.any fun f => f tx

/-- The tip and the blocks under it once a block came in. A block that does not extend the tip is
dropped (`state_machine.rs`, lines 141–168). -/
def receive (block : ChainBlock) : List ChainBlock → ChainBlock × List ChainBlock
  | [] => (block, [])
  | tip :: rest =>
    if block.prevBlockhash = tip.blockHash then (block, tip :: rest) else (tip, rest)

section Process

variable (env : Env) (sm : BtcZmqSM)

/-- A transaction that a filter asks for is mined (`state_machine.rs`, lines 180–227). -/
def recordMined (block : ChainBlock) (acc : BTreeMap Txid (Option TxLifecycle) × List TxEvent)
    (tx : Transaction) : BTreeMap Txid (Option TxLifecycle) × List TxEvent :=
  let txid := env.computeTxid tx
  let place := some (block.height, block.blockHash)
  let lifecycle : TxLifecycle :=
    match acc.1[txid]? with
    | none | some none => ⟨tx, place⟩
    | some (some lifecycle) => { lifecycle with block := place }
  (acc.1.insert txid (some lifecycle), acc.2 ++ [⟨tx, .mined block.blockHash block.height⟩])

/-- A transaction of a block is buried with it (`state_machine.rs`, lines 244–256). -/
def recordBuried (block : ChainBlock) (acc : BTreeMap Txid (Option TxLifecycle) × List TxEvent)
    (tx : Transaction) : BTreeMap Txid (Option TxLifecycle) × List TxEvent :=
  (acc.1.erase (env.computeTxid tx),
    if sm.selects tx then acc.2 ++ [⟨tx, .buried block.blockHash block.height⟩] else acc.2)

/-- `BtcZmqSM::process_block` (`state_machine.rs`, lines 134–271). -/
def processBlock (block : ChainBlock) : BtcZmqSM × List TxEvent × Option BlockEvent :=
  let (tip, rest) := receive block sm.unburiedBlocks
  let mined := (tip.txdata.filter sm.selects).foldl (recordMined env tip) (sm.txLifecycles, [])
  if sm.buryDepth < (tip :: rest).length then
    let newlyBuried := (tip :: rest).getLast (cons_ne_nil tip rest)
    let buried := newlyBuried.txdata.foldl (recordBuried env sm newlyBuried) mined
    ({ sm with txLifecycles := buried.1, unburiedBlocks := (tip :: rest).dropLast }, buried.2,
      some ⟨newlyBuried, .buried⟩)
  else
    ({ sm with txLifecycles := mined.1, unburiedBlocks := tip :: rest }, mined.2, none)

/-- `BtcZmqSM::process_tx` (`state_machine.rs`, lines 275–328). -/
def processTx (tx : Transaction) : BtcZmqSM × List TxEvent :=
  let txid := env.computeTxid tx
  let tracked := { sm with txLifecycles := sm.txLifecycles.insert txid (some ⟨tx, none⟩) }
  if sm.selects tx then
    match sm.txLifecycles[txid]? with
    | none => (tracked, [])
    | some none => (tracked, [⟨tx, .mempool⟩])
    | some (some _) => (sm, [])
  else
    (sm, [])

end Process

def unbound (blockhash : BlockHash) : Option TxLifecycle → Option TxEvent
  | some ⟨raw, some (_, blk)⟩ => if blk = blockhash then some ⟨raw, .unknown⟩ else none
  | _ => none

/-- The disconnected tip leaves the queue; another block than the tip cannot be disconnected
(`state_machine.rs`, lines 348–371). -/
def popTip (blockhash : BlockHash) :
    List ChainBlock → MayPanic (List ChainBlock × Option BlockEvent)
  | [] => .ok ([], none)
  | tip :: rest =>
    if tip.blockHash = blockhash then .ok (rest, some ⟨tip, .uncled⟩)
    else .error "invariant violated: out of order block disconnect"

section Process

variable (env : Env) (sm : BtcZmqSM)

/-- `BtcZmqSM::process_sequence` (`state_machine.rs`, lines 332–489). -/
def processSequence : SequenceMessage → MayPanic (BtcZmqSM × List TxEvent × Option BlockEvent)
  | .blockConnect _ => .ok (sm, [], none)
  | .blockDisconnect blockhash => do
    let (queue, blkEvt) ← popTip blockhash sm.unburiedBlocks
    let diff := sm.txLifecycles.toList.filterMap fun e => unbound blockhash e.2
    let kept := sm.txLifecycles.filter fun _ v => (unbound blockhash v).isNone
    .ok ({ sm with txLifecycles := kept, unburiedBlocks := queue }, diff, blkEvt)
  | .mempoolAcceptance txid =>
    match sm.txLifecycles[txid]? with
    | some (some ⟨raw, none⟩) => .ok (sm, [⟨raw, .mempool⟩], none)
    | some (some ⟨_, some _⟩) => .ok (sm, [], none)
    | some none => .error "invariant violated: MempoolAcceptance received before rawtx"
    | none => .ok ({ sm with txLifecycles := sm.txLifecycles.insert txid none }, [], none)
  | .mempoolRemoval txid =>
    let removed := { sm with txLifecycles := sm.txLifecycles.erase txid }
    match sm.txLifecycles[txid]? with
    | some (some lifecycle) => .ok (removed, [⟨lifecycle.raw, .unknown⟩], none)
    | some none => .ok (removed, [], none)
    | none => .ok (removed, [], none)

/-- What the client does with a message (`client.rs`, lines 115–181): the new state of the machine,
and the events for the subscribers. A block is announced as mined before the machine is given
it. -/
def process : ZmqMessage → MayPanic (BtcZmqSM × List TxEvent × List BlockEvent)
  | .hashBlock _ => .ok (sm, [], [])
  | .hashTx _ => .ok (sm, [], [])
  | .block block =>
    let (sm', txEvents, blockEvent) := sm.processBlock env block
    .ok (sm', txEvents, ⟨block, .mined⟩ :: blockEvent.toList)
  | .tx tx =>
    let (sm', txEvents) := sm.processTx env tx
    .ok (sm', txEvents, [])
  | .sequence seq => do
    let (sm', txEvents, blockEvent) ← sm.processSequence seq
    .ok (sm', txEvents, blockEvent.toList)

end Process

/-! ### What a message does to the queue -/

def burials (filters : List TxPredicate) (block : ChainBlock) : List TxEvent :=
  (block.txdata.filter fun tx => filters.any fun f => f tx).map fun tx =>
    ⟨tx, .buried block.blockHash block.height⟩

/-- A message was answered: depth and filters stay, the queue and the events of buried transactions
are the given ones. -/
structure Answers (sm sm' : BtcZmqSM) (txEvents : List TxEvent) (queue : List ChainBlock)
    (buried : List TxEvent) : Prop where
  buryDepth : sm'.buryDepth = sm.buryDepth
  txFilters : sm'.txFilters = sm.txFilters
  unburiedBlocks : sm'.unburiedBlocks = queue
  buried : txEvents.filter (fun e => e.status.isBuried) = buried

variable (env : Env) {sm : BtcZmqSM}

theorem receive_of_extends {queue : List ChainBlock}
    (h : ∀ tip ∈ queue.head?, block.prevBlockhash = tip.blockHash) :
    receive block queue = (block, queue) := by
  cases queue with
  | nil => rfl
  | cons tip rest => rw [receive, if_pos (h tip rfl)]

private theorem get_recordMined_one (block : ChainBlock)
    (acc : BTreeMap Txid (Option TxLifecycle) × List TxEvent) (tx : Transaction) (txid : Txid) :
    env.computeTxid tx = txid ∧
        (∃ raw, (recordMined env block acc tx).1[txid]? =
            some (some ⟨raw, some (block.height, block.blockHash)⟩) ∧
          (env.computeTxid raw = txid ∨ ∃ place, acc.1[txid]? = some (some ⟨raw, place⟩))) ∨
      env.computeTxid tx ≠ txid ∧ (recordMined env block acc tx).1[txid]? = acc.1[txid]? := by
  rw [recordMined, BTreeMap.get_insert]
  by_cases heq : env.computeTxid tx = txid
  · refine .inl ⟨heq, ?_⟩
    rw [if_pos heq, heq]
    split
    · exact ⟨tx, rfl, .inl heq⟩
    · exact ⟨tx, rfl, .inl heq⟩
    next lifecycle hget => exact ⟨lifecycle.raw, rfl, .inr ⟨lifecycle.block, hget⟩⟩
  · exact .inr ⟨heq, if_neg heq⟩

theorem get_recordMined (block : ChainBlock) (txs : List Transaction)
    (acc : BTreeMap Txid (Option TxLifecycle) × List TxEvent) (txid : Txid) :
    txid ∈ txs.map env.computeTxid ∧
        (∃ raw, (txs.foldl (recordMined env block) acc).1[txid]? =
            some (some ⟨raw, some (block.height, block.blockHash)⟩) ∧
          (env.computeTxid raw = txid ∨ ∃ place, acc.1[txid]? = some (some ⟨raw, place⟩))) ∨
      txid ∉ txs.map env.computeTxid ∧
        (txs.foldl (recordMined env block) acc).1[txid]? = acc.1[txid]? := by
  induction txs generalizing acc with
  | nil => exact .inr ⟨by simp, rfl⟩
  | cons tx txs ih =>
    rw [map_cons]
    rcases get_recordMined_one env block acc tx txid with ⟨heq, raw₁, hget₁, hraw₁⟩ | ⟨hne, hget₁⟩
    · refine .inl ⟨by simp [heq], ?_⟩
      rcases ih (recordMined env block acc tx) with ⟨-, raw, hget, hraw⟩ | ⟨-, hget⟩
      · refine ⟨raw, hget, hraw.elim .inl ?_⟩
        rintro ⟨place, hplace⟩
        rw [hget₁] at hplace
        obtain ⟨rfl, -⟩ := TxLifecycle.mk.inj (Option.some.inj (Option.some.inj hplace))
        exact hraw₁
      · exact ⟨raw₁, hget.trans hget₁, hraw₁⟩
    · rw [mem_cons, or_iff_right (Ne.symm hne), ← hget₁]
      exact ih (recordMined env block acc tx)

theorem get_recordBuried (block : ChainBlock) (txs : List Transaction)
    (acc : BTreeMap Txid (Option TxLifecycle) × List TxEvent) (txid : Txid) :
    (txs.foldl (recordBuried env sm block) acc).1[txid]? =
      if txid ∈ txs.map env.computeTxid then none else acc.1[txid]? := by
  induction txs generalizing acc with
  | nil => rfl
  | cons tx txs ih =>
    rw [foldl_cons, ih, recordBuried, BTreeMap.get_erase]
    by_cases heq : env.computeTxid tx = txid
    · simp [heq]
    · simp [heq, Ne.symm heq]

theorem snd_recordMined (block : ChainBlock) (txs : List Transaction)
    (acc : BTreeMap Txid (Option TxLifecycle) × List TxEvent) :
    (txs.foldl (recordMined env block) acc).2 =
      acc.2 ++ txs.map fun tx => ⟨tx, .mined block.blockHash block.height⟩ := by
  induction txs generalizing acc with
  | nil => simp
  | cons tx txs ih =>
    rw [foldl_cons, ih, recordMined]
    simp

theorem snd_recordBuried (block : ChainBlock) (txs : List Transaction)
    (acc : BTreeMap Txid (Option TxLifecycle) × List TxEvent) :
    (txs.foldl (recordBuried env sm block) acc).2 =
      acc.2 ++
        (txs.filter sm.selects).map fun tx => ⟨tx, .buried block.blockHash block.height⟩ := by
  induction txs generalizing acc with
  | nil => simp
  | cons tx txs ih =>
    rw [foldl_cons, ih, recordBuried]
    by_cases hsel : sm.selects tx <;> simp [hsel]

theorem filter_recordMined (block : ChainBlock) (txs : List Transaction)
    (lifecycles : BTreeMap Txid (Option TxLifecycle)) :
    (txs.foldl (recordMined env block) (lifecycles, [])).2.filter
      (fun e => e.status.isBuried) = [] := by
  rw [snd_recordMined]
  simp [filter_map, TxStatus.isBuried]

theorem process_extend (h : ∀ tip ∈ sm.unburiedBlocks.head?, block.prevBlockhash = tip.blockHash)
    (hlen : sm.unburiedBlocks.length < sm.buryDepth) :
    ∃ sm' txEvents, sm.process env (.block block) = .ok (sm', txEvents, [⟨block, .mined⟩]) ∧
      sm.Answers sm' txEvents (block :: sm.unburiedBlocks) [] := by
  have hroom : ¬ sm.buryDepth < (block :: sm.unburiedBlocks).length := by
    rw [length_cons]
    omega
  rw [process, processBlock, receive_of_extends h]
  simp only [if_neg hroom]
  exact ⟨_, _, rfl, rfl, rfl, rfl, filter_recordMined env _ _ _⟩

theorem process_bury {oldest : ChainBlock} {queue : List ChainBlock}
    (h : ∀ tip ∈ sm.unburiedBlocks.head?, block.prevBlockhash = tip.blockHash)
    (hlen : sm.unburiedBlocks.length = sm.buryDepth)
    (hqueue : block :: sm.unburiedBlocks = queue ++ [oldest]) :
    ∃ sm' txEvents,
      sm.process env (.block block) = .ok (sm', txEvents, [⟨block, .mined⟩, ⟨oldest, .buried⟩]) ∧
      sm.Answers sm' txEvents queue (burials sm.txFilters oldest) := by
  have hfull : sm.buryDepth < (block :: sm.unburiedBlocks).length := by
    rw [length_cons]
    omega
  have hlast : (block :: sm.unburiedBlocks).getLast (cons_ne_nil _ _) = oldest := by
    simp [hqueue]
  have hinit : (block :: sm.unburiedBlocks).dropLast = queue := by
    rw [hqueue, dropLast_concat]
  rw [process, processBlock, receive_of_extends h]
  simp only [if_pos hfull, hlast, hinit]
  refine ⟨_, _, rfl, rfl, rfl, rfl, ?_⟩
  rw [snd_recordBuried, filter_append, filter_recordMined]
  simp [burials, selects, filter_map, TxStatus.isBuried]

theorem process_uncle {tip : ChainBlock} {rest : List ChainBlock}
    (hqueue : sm.unburiedBlocks = tip :: rest) :
    ∃ sm' txEvents,
      sm.process env (.sequence (.blockDisconnect tip.blockHash)) =
        .ok (sm', txEvents, [⟨tip, .uncled⟩]) ∧
      sm.Answers sm' txEvents rest [] := by
  rw [process, processSequence, hqueue, popTip, if_pos rfl]
  refine ⟨_, _, rfl, rfl, rfl, rfl, filter_eq_nil_iff.mpr fun e he => ?_⟩
  obtain ⟨⟨txid, v⟩, -, hv⟩ := mem_filterMap.mp he
  simp only [unbound] at hv
  split at hv
  · split_ifs at hv
    cases hv
    simp [TxStatus.isBuried]
  · cases hv

/-- No acceptance comes for a transaction that is only known to have been accepted. -/
def Accepts (sm : BtcZmqSM) : ZmqMessage → Prop
  | .sequence (.mempoolAcceptance txid) => sm.txLifecycles[txid]? ≠ some none
  | _ => True

instance (sm : BtcZmqSM) : (msg : ZmqMessage) → Decidable (sm.Accepts msg)
  | .sequence (.mempoolAcceptance txid) =>
    inferInstanceAs (Decidable (sm.txLifecycles[txid]? ≠ some none))
  | .sequence (.blockConnect _) | .sequence (.blockDisconnect _) | .sequence (.mempoolRemoval _)
  | .hashBlock _ | .hashTx _ | .block _ | .tx _ => inferInstanceAs (Decidable True)

private theorem processTx_answers (tx : Transaction) :
    sm.Answers (sm.processTx env tx).1 (sm.processTx env tx).2 sm.unburiedBlocks [] := by
  simp only [processTx]
  split
  · split
    all_goals exact ⟨rfl, rfl, rfl, by simp [TxStatus.isBuried]⟩
  · exact ⟨rfl, rfl, rfl, rfl⟩

theorem process_keep {msg : ZmqMessage} (hkeep : msg.KeepsTip) (hacc : sm.Accepts msg) :
    ∃ sm' txEvents, sm.process env msg = .ok (sm', txEvents, []) ∧
      sm.Answers sm' txEvents sm.unburiedBlocks [] := by
  cases msg with
  | hashBlock _ => exact ⟨_, _, rfl, rfl, rfl, rfl, rfl⟩
  | hashTx _ => exact ⟨_, _, rfl, rfl, rfl, rfl, rfl⟩
  | block _ => exact hkeep.elim
  | tx tx => exact ⟨_, _, rfl, processTx_answers env tx⟩
  | sequence seq =>
    cases seq with
    | blockConnect _ => exact ⟨_, _, rfl, rfl, rfl, rfl, rfl⟩
    | blockDisconnect _ => exact hkeep.elim
    | mempoolAcceptance txid =>
      rw [process, processSequence]
      rcases hget : sm.txLifecycles[txid]? with _ | _ | ⟨raw, _ | place⟩
      · exact ⟨_, _, rfl, rfl, rfl, rfl, rfl⟩
      · exact absurd hget hacc
      · exact ⟨_, _, rfl, rfl, rfl, rfl, rfl⟩
      · exact ⟨_, _, rfl, rfl, rfl, rfl, rfl⟩
    | mempoolRemoval txid =>
      rw [process, processSequence]
      rcases hget : sm.txLifecycles[txid]? with _ | _ | lifecycle
      all_goals exact ⟨_, _, rfl, rfl, rfl, rfl, rfl⟩

/-- The machine panics at a second acceptance of a transaction whose data it never kept. -/
theorem process_of_not_accepts {msg : ZmqMessage} (h : ¬ sm.Accepts msg) :
    ∃ text, sm.process env msg = .error text := by
  cases msg with
  | sequence seq =>
    cases seq with
    | mempoolAcceptance txid =>
      have hget : sm.txLifecycles[txid]? = some none := not_not.mp h
      rw [process, processSequence, hget]
      exact ⟨_, rfl⟩
    | blockConnect _ => exact absurd trivial h
    | blockDisconnect _ => exact absurd trivial h
    | mempoolRemoval _ => exact absurd trivial h
  | hashBlock _ => exact absurd trivial h
  | hashTx _ => exact absurd trivial h
  | block _ => exact absurd trivial h
  | tx _ => exact absurd trivial h

end BtcZmqSM

end StrataBridge
