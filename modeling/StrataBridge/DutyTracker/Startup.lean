import StrataBridge.BtcNotify.StateMachine
import StrataBridge.DutyTracker.ContractSM
import StrataBridge.Transition.Runs

/-!
# The start of a node

A node that starts reads the block count and fetches the blocks that are not buried yet, connects
the ZMQ client with them, restores its contracts, reads the block count again, subscribes to the
blocks of the client, fetches the buried blocks that its contracts have not seen, and then takes
buried blocks from the subscription. Meanwhile blocks arrive, and the client gets to know of them
some time later. The handed out blocks, first fetched and then taken, are those that are given to
`process_block`; what that makes of them is left open, and when it fails the node stops there.

## Main definitions

* `Startup`: chain, client and node
* `Startup.step`: what they do
* `Startup.Quiet`: nothing happens between the counts and the subscription

## References

* `bin/alpen-bridge/src/mode/operator.rs`, lines 169–182
* `crates/btc-notify/src/client.rs`, lines 67–206
* `crates/duty-tracker/src/contract_manager.rs`, lines 158–177, 239–271 and 397–425
-/

namespace StrataBridge

open Rust

/-! ### Blocks between two heights -/

def blocksBetween (chain : List ChainBlock) (low high : ℕ) : List ChainBlock :=
  (chain.take (high + 1)).drop (low + 1)

/-- The blocks of a chain stand at their heights, and name the block before them. -/
structure Linked (chain : List ChainBlock) : Prop where
  nonempty : chain ≠ []
  height_eq : ∀ (n : ℕ) (b : ChainBlock), chain[n]? = some b → b.height = n
  extends_eq : ∀ (n : ℕ) (a b : ChainBlock), chain[n]? = some a → chain[n + 1]? = some b →
    b.prevBlockhash = a.blockHash

/-! ### The node -/

structure ZmqStream where
  sm : BtcZmqSM
  pending : List ChainBlock

/-- The manager once it has subscribed. The height of the newest block that the client had been
given at the subscription is kept for the record. -/
structure BlockFeed where
  restored : ℕ
  current : ℕ
  cursor : ℕ
  inbox : List BlockEvent
  seen : ℕ

inductive StartupPhase where
  | start
  | counted (current : ℕ) (unburiedBlocks : List ChainBlock)
  | connected (client : ZmqStream)
  | recounted (client : ZmqStream) (current : ℕ)
  | subscribed (client : ZmqStream) (feed : BlockFeed)

structure Startup where
  buryDepth : ℕ
  activeContracts : BTreeMap Txid ContractSM
  chain : List ChainBlock
  phase : StartupPhase

inductive StartupAction where
  | arrive (block : ChainBlock)
  | deliver
  | readCount
  | connect
  | recount
  | subscribe
  | sync
  | take
  deriving DecidableEq, Repr

namespace ZmqStream

def announce (client : ZmqStream) (block : ChainBlock) : ZmqStream :=
  { client with pending := client.pending ++ [block] }

def deliver (env : Env) (client : ZmqStream) : Option (ZmqStream × List BlockEvent) :=
  match client.pending with
  | [] => none
  | block :: rest =>
    match client.sm.process env (.block block) with
    | .ok (sm', _, blockEvents) => some (⟨sm', rest⟩, blockEvents)
    | .error _ => none

end ZmqStream

/-- The lowest height that a restored contract has seen (`contract_manager.rs`, lines 173–177). -/
def restoredHeight (activeContracts : BTreeMap Txid ContractSM) : Option ℕ :=
  ((BTreeMap.vals activeContracts).map fun sm => sm.state.blockHeight).min?

def wrappingSub (a b : ℕ) : ℕ := if b ≤ a then a - b else a + 2 ^ 64 - b

namespace Startup

variable (s : Startup)

def blockCount : ℕ := s.chain.length - 1

/-- The blocks that are not buried at a height, the newest first (`operator.rs`, lines 169–177). -/
def unburied (current : ℕ) : List ChainBlock :=
  let buryHeight := current - s.buryDepth
  (List.range' (buryHeight + 1) (current - buryHeight)).foldl
    (fun queue height => s.chain[height]?.toList ++ queue) []

def arrive (block : ChainBlock) : Startup where
  buryDepth := s.buryDepth
  activeContracts := s.activeContracts
  chain := s.chain ++ [block]
  phase :=
    match s.phase with
    | .start => .start
    | .counted current queue => .counted current queue
    | .connected client => .connected (client.announce block)
    | .recounted client current => .recounted (client.announce block) current
    | .subscribed client feed => .subscribed (client.announce block) feed

def deliver (env : Env) : Option Startup :=
  match s.phase with
  | .start | .counted _ _ => none
  | .connected client =>
    (client.deliver env).map fun r => { s with phase := .connected r.1 }
  | .recounted client current =>
    (client.deliver env).map fun r => { s with phase := .recounted r.1 current }
  | .subscribed client feed =>
    (client.deliver env).map fun r =>
      { s with phase := .subscribed r.1 { feed with inbox := feed.inbox ++ r.2 } }

/-- The manager subscribes to the blocks of the client, and finds where to go on
(`contract_manager.rs`, lines 165–177). -/
def subscription (client : ZmqStream) (current : ℕ) : BlockFeed :=
  let cursor := (restoredHeight s.activeContracts).getD current
  { restored := cursor
    current := current
    cursor := cursor
    inbox := []
    seen := s.blockCount - client.pending.length }

def step (env : Env) : StartupAction → Option (Startup × List ChainBlock)
  | .arrive block => some (s.arrive block, [])
  | .deliver => (s.deliver env).map fun s' => (s', [])
  | .readCount =>
    match s.phase with
    | .start => some ({ s with phase := .counted s.blockCount (s.unburied s.blockCount) }, [])
    | _ => none
  | .connect =>
    match s.phase with
    | .counted _ queue => some ({ s with phase := .connected ⟨.init s.buryDepth queue, []⟩ }, [])
    | _ => none
  | .recount =>
    match s.phase with
    | .connected client =>
      some ({ s with phase := .recounted client (wrappingSub s.blockCount s.buryDepth) }, [])
    | _ => none
  | .subscribe =>
    match s.phase with
    | .recounted client current =>
      some ({ s with phase := .subscribed client (s.subscription client current) }, [])
    | _ => none
  | .sync =>
    match s.phase with
    | .subscribed client feed =>
      if feed.cursor < feed.current then
        s.chain[feed.cursor + 1]?.map fun block =>
          ({ s with phase := .subscribed client { feed with cursor := feed.cursor + 1 } }, [block])
      else none
    | _ => none
  | .take =>
    match s.phase with
    | .subscribed client feed =>
      if feed.cursor < feed.current then none
      else
        match feed.inbox with
        | [] => none
        | event :: rest =>
          some ({ s with phase := .subscribed client { feed with inbox := rest } },
            if event.status = .buried then [event.block] else [])
    | _ => none

def init (buryDepth : ℕ) (activeContracts : BTreeMap Txid ContractSM) (chain : List ChainBlock) :
    Startup :=
  ⟨buryDepth, activeContracts, chain, .start⟩

def Extends (block : ChainBlock) : Prop :=
  block.height = s.chain.length ∧ ∀ tip ∈ s.chain.getLast?, block.prevBlockhash = tip.blockHash

instance (block : ChainBlock) : Decidable (s.Extends block) :=
  inferInstanceAs (Decidable (_ ∧ ∀ tip ∈ s.chain.getLast?, _))

/-- Arriving blocks extend the chain, and nothing is asked of the other steps. -/
def Extending : StartupAction → Prop
  | .arrive block => s.Extends block
  | _ => True

instance : (action : StartupAction) → Decidable (s.Extending action)
  | .arrive block => inferInstanceAs (Decidable (s.Extends block))
  | .deliver | .readCount | .connect | .recount | .subscribe | .sync | .take =>
    inferInstanceAs (Decidable True)

def firstCount : Option ℕ :=
  match s.phase with
  | .counted current _ => some current
  | _ => none

/-- What is asked of the steps before the subscription: no block arrives between the first count and
the connection, and at the second count the chain is as long as the bury depth and the contracts
have seen no block that is not buried. Arriving blocks extend the chain. -/
def Quiet : StartupAction → Prop
  | .arrive block => s.Extends block
  | .connect => ∀ current ∈ s.firstCount, s.blockCount = current
  | .recount => s.buryDepth ≤ s.blockCount ∧
      ∀ height ∈ restoredHeight s.activeContracts, height ≤ s.blockCount - s.buryDepth
  | _ => True

instance : (action : StartupAction) → Decidable (s.Quiet action)
  | .arrive block => inferInstanceAs (Decidable (s.Extends block))
  | .connect => inferInstanceAs (Decidable (∀ current ∈ s.firstCount, s.blockCount = current))
  | .recount => inferInstanceAs (Decidable (s.buryDepth ≤ s.blockCount ∧
      ∀ height ∈ restoredHeight s.activeContracts, height ≤ s.blockCount - s.buryDepth))
  | .deliver | .readCount | .subscribe | .sync | .take => inferInstanceAs (Decidable True)

end Startup

end StrataBridge
