import StrataBridge.BtcNotify.Burial

/-!
# The transaction driver

The driver publishes signed transactions and answers the submitter of a job once its condition on
the status of the transaction is met. For a transaction that the node knows already, the driver
makes up the status itself, from the number of confirmations. Otherwise it waits for the events of
the ZMQ client.

The two do not count alike. A block with one confirmation has no successor, and the client buries it
when it has as many successors as the depth says. The driver already takes as many confirmations for
burial, and cuts the depth to 32 bits.

## References

* `crates/duty-tracker/src/tx_driver.rs`, lines 42–255
-/

namespace StrataBridge

open Rust Burial Linear

variable {env : Env} {depth : ℕ} {queue : List ChainBlock} {filters : List TxPredicate}
  {trace : List WatchEntry} {w : Watch}

/-- `TxDriveJob` (lines 42–51) without its transaction: a condition, and the channel on which the
submitter waits. -/
structure Listener where
  condition : TxStatus → Bool
  respondOn : ℕ

/-- `TxJobHeap` (line 67). -/
abbrev TxJobHeap : Type := BTreeMap Txid (List Listener)

/-- `TxJobHeap::merge` (lines 78–89). -/
def TxJobHeap.merge (self other : TxJobHeap) : TxJobHeap :=
  other.toList.foldl
    (fun a e =>
      match a[e.1]? with
      | some responders => a.insert e.1 (responders ++ e.2)
      | none => a.insert e.1 e.2)
    self

/-- `TxJobHeap::from` (lines 102–106): a heap with one job. -/
def TxJobHeap.ofJob (txid : Txid) (listener : Listener) : TxJobHeap :=
  (∅ : TxJobHeap).insert txid [listener]

structure DriveResponse where
  respondOn : ℕ
  result : Except ℕ Unit
  deriving DecidableEq

/-- What the node says of a transaction that it knows (`get_raw_transaction_verbosity_one`). -/
structure RawTransactionInfo where
  confirmations : Option ℕ
  blockhash : Option BlockHash
  deriving DecidableEq, Repr

/-- The answers of the node to the calls for one job: what it says of the transaction, the height of
the block with it, and whether it takes the transaction. -/
structure SubmissionAnswers where
  rawTransaction : Option RawTransactionInfo
  blockHeight : Option BitcoinBlockHeight
  broadcast : Except ℕ Txid

/-- The state of the driver's task (lines 124–125). -/
structure TxDriver where
  activeTxSubs : List Transaction
  activeJobs : TxJobHeap

namespace TxDriver

/-- The status that is made up for a transaction that the node knows (lines 137–159). The depth is
cut to 32 bits. -/
def submissionStatus (buryDepth : ℕ) (info : RawTransactionInfo)
    (blockHeight : Option BitcoinBlockHeight) : MayPanic TxStatus :=
  let numConfirmations := info.confirmations.getD 0
  let height := if info.blockhash.isSome then blockHeight.getD 0 else 0
  if numConfirmations = 0 then .ok .mempool
  else
    match info.blockhash with
    | none => .error "must be present if confirmed"
    | some blockhash =>
      if numConfirmations < buryDepth % 2 ^ 32 then .ok (.mined blockhash height)
      else .ok (.buried blockhash height)

def await (env : Env) (driver : TxDriver) (tx : Transaction) (listener : Listener) : TxDriver where
  activeTxSubs := driver.activeTxSubs ++ [tx]
  activeJobs := driver.activeJobs.merge (.ofJob (env.computeTxid tx) listener)

/-- A job comes in (lines 128–206). -/
def submit (env : Env) (buryDepth : ℕ) (driver : TxDriver) (tx : Transaction)
    (listener : Listener) (answers : SubmissionAnswers) :
    MayPanic (TxDriver × List DriveResponse) :=
  match answers.rawTransaction with
  | some info =>
    (submissionStatus buryDepth info answers.blockHeight).map fun status =>
      if listener.condition status then (driver, [⟨listener.respondOn, .ok ()⟩])
      else (driver.await env tx listener, [])
  | none =>
    match answers.broadcast with
    | .ok _ => .ok (driver.await env tx listener, [])
    | .error e => .ok (driver, [⟨listener.respondOn, .error e⟩])

/-- An event comes in (lines 207–255). An evicted transaction is sent again, which changes nothing
here. -/
def onEvent (env : Env) (driver : TxDriver) (event : TxEvent) : TxDriver × List DriveResponse :=
  match event.status with
  | .unknown => (driver, [])
  | status =>
    let txid := env.computeTxid event.rawtx
    let listeners := driver.activeJobs[txid]?.getD []
    let leftovers := (listeners.filter fun l => !l.condition status).foldl
      (fun heap l => heap.merge (.ofJob txid l)) (∅ : TxJobHeap)
    ({ driver with activeJobs := TxJobHeap.merge (driver.activeJobs.erase txid) leftovers },
      (listeners.filter fun l => l.condition status).map fun l => ⟨l.respondOn, .ok ()⟩)

end TxDriver

/-! ### What the client has reported -/

namespace Watch

def Reported (depth : ℕ) (trace : List WatchEntry) (stay : Stay ChainBlock) : Prop :=
  stay ∈ (trace.map WatchEntry.toEntry).filterMap (Entry.buriedStay depth)

instance (depth : ℕ) (trace : List WatchEntry) (stay : Stay ChainBlock) :
    Decidable (Reported depth trace stay) :=
  inferInstanceAs
    (Decidable (stay ∈ (trace.map WatchEntry.toEntry).filterMap (Entry.buriedStay depth)))

theorem Runs.reported_iff (h : Runs env depth queue filters trace w) (hq : queue.length ≤ depth)
    {i : ℕ} {stay : Stay ChainBlock} (hstay : w.chain.stays[i]? = some stay) :
    Reported depth trace stay ↔ depth ≤ i ∨ ∃ e ∈ trace, e.before.Deep depth stay := by
  obtain ⟨sm, window, buried, -, hhist, -⟩ := (h.follows hq).history
  rw [Reported, hhist.mem_buriedStays hq, List.exists_mem_cons_iff,
    (hhist.numbered hq).deep_iff hstay]
  simp [WatchEntry.toEntry]

end Watch

/-! ### Driver and client -/

namespace TxDriver

def minedInfo (successors : ℕ) (block : ChainBlock) : RawTransactionInfo :=
  ⟨some (successors + 1), some block.blockHash⟩

theorem submissionStatus_minedInfo (depth successors : ℕ) (block : ChainBlock)
    (height : Option BitcoinBlockHeight) :
    submissionStatus depth (minedInfo successors block) height =
      .ok (if successors + 1 < depth % 2 ^ 32 then .mined block.blockHash (height.getD 0)
        else .buried block.blockHash (height.getD 0)) := by
  simp only [submissionStatus, minedInfo, Option.getD_some, Nat.add_one_ne_zero, if_false,
    Option.isSome_some]
  split <;> rfl

/-- **Driver and client agree** on a transaction in a block with the given number of successors: the
status at the submission is that the block is buried exactly when it was reported so, which is when
it has as many successors as the depth says, and otherwise that it is mined. And a job that waits
for the burial is not answered at its submission before the report. -/
structure Agrees (env : Env) (depth : ℕ) (trace : List WatchEntry) (successors : ℕ)
    (stay : Stay ChainBlock) (height : Option BitcoinBlockHeight) : Prop where
  status : ∃ status, submissionStatus depth (minedInfo successors stay.block) height = .ok status ∧
    (status.isBuried = true ↔ Watch.Reported depth trace stay) ∧
    (status.isMined = true ↔ ¬ Watch.Reported depth trace stay)
  reported : Watch.Reported depth trace stay ↔ depth ≤ successors
  answered : ∀ driver tx respondOn broadcast driver',
    submit env depth driver tx ⟨TxStatus.isBuried, respondOn⟩
        ⟨some (minedInfo successors stay.block), height, broadcast⟩ =
      .ok (driver', [⟨respondOn, .ok ()⟩]) → Watch.Reported depth trace stay

/-- **When driver and client agree.** In every run of the client, for every depth and every block on
the chain, they agree exactly if the block has as many successors as the depth says, or if it never
had and has at least two less, where the driver cuts the depth to 32 bits. -/
theorem submission_agrees_iff (hq : queue.length ≤ depth)
    (hrun : Watch.Runs env depth queue filters trace w) {successors : ℕ} {stay : Stay ChainBlock}
    (hstay : w.chain.stays[successors]? = some stay) (height : Option BitcoinBlockHeight) :
    Agrees env depth trace successors stay height ↔
      depth ≤ successors ∨
        successors + 1 < depth % 2 ^ 32 ∧ ∀ e ∈ trace, ¬ e.before.Deep depth stay := by
  have hreported := hrun.reported_iff hq hstay
  have hstatus := submissionStatus_minedInfo depth successors stay.block height
  constructor
  · rintro ⟨⟨status, hok, hburied, hmined⟩, hsuccessors, -⟩
    by_cases hd : depth ≤ successors
    · exact .inl hd
    · have hnot : ¬ Watch.Reported depth trace stay := fun h => hd (hsuccessors.mp h)
      refine .inr ⟨?_, fun e he hdeep => hnot (hreported.mpr (.inr ⟨e, he, hdeep⟩))⟩
      by_contra hge
      rw [hstatus, if_neg hge] at hok
      cases hok
      exact hnot (hburied.mp rfl)
  · intro hcond
    have hiff : successors + 1 < depth % 2 ^ 32 ↔ ¬ depth ≤ successors := by
      omega
    have hsuccessors : Watch.Reported depth trace stay ↔ depth ≤ successors := by
      rw [hreported]
      refine ⟨fun h => ?_, .inl⟩
      rcases hcond with hd | ⟨-, hnever⟩
      · exact hd
      · exact h.resolve_right fun ⟨e, he, hdeep⟩ => hnever e he hdeep
    have hagrees : ∃ status,
        submissionStatus depth (minedInfo successors stay.block) height = .ok status ∧
        (status.isBuried = true ↔ Watch.Reported depth trace stay) ∧
        (status.isMined = true ↔ ¬ Watch.Reported depth trace stay) := by
      refine ⟨_, hstatus, ?_⟩
      rw [hsuccessors]
      by_cases hd : depth ≤ successors
      · rw [if_neg (fun h => hiff.mp h hd)]
        simp [TxStatus.isBuried, TxStatus.isMined, hd]
      · rw [if_pos (hiff.mpr hd)]
        simp [TxStatus.isBuried, TxStatus.isMined, hd]
    refine ⟨hagrees, hsuccessors, fun driver tx respondOn broadcast driver' hsubmit => ?_⟩
    obtain ⟨status, hok, hburied, -⟩ := hagrees
    rw [submit] at hsubmit
    dsimp only at hsubmit
    rw [hok] at hsubmit
    have hsubmit := Except.ok.inj hsubmit
    dsimp only at hsubmit
    split at hsubmit
    next hcondition => exact hburied.mp hcondition
    next => cases (Prod.mk.inj hsubmit).2

/-- Block 20 has the successor that a depth of one asks for, and was reported. -/
theorem submission_agrees_buried : ∃ trace w stay,
    Watch.Runs plain 1 [chainBlock 20 20 19 [payment 1]] [] trace w ∧
    w.chain.stays[1]? = some stay ∧ Watch.Reported 1 trace stay ∧
    Agrees plain 1 trace 1 stay (some 20) := by
  obtain ⟨w, trace, hrun, hfound⟩ := Transition.exists_run_of_exec (Watch.step plain)
    (fun w msg => w.Legal msg ∧ w.Accepts msg)
    (Watch.start 1 [chainBlock 20 20 19 [payment 1]] [])
    [.block (chainBlock 21 21 20 [])]
    (fun w trace => w.chain.stays[1]?.any fun stay => Watch.Reported 1 trace stay)
    (by decide +kernel)
  have hrun : Watch.Runs plain 1 [chainBlock 20 20 19 [payment 1]] [] trace w := hrun
  obtain ⟨stay, hstay, hreported⟩ := (Option.any_eq_true _ _).mp hfound
  exact ⟨trace, w, stay, hrun, hstay, of_decide_eq_true hreported,
    (submission_agrees_iff (Nat.le_refl 1) hrun hstay (some 20)).mpr (.inl (Nat.le_refl 1))⟩

/-- With a depth of two, block 20 is not buried by its first successor. But it has two confirmations
then, and a job for payment 1 that waits for the burial is answered at once. -/
theorem answered_before_burial : ∃ trace w stay,
    Watch.Runs plain 2 [chainBlock 20 20 19 [payment 1]] [] trace w ∧
    w.chain.stays[1]? = some stay ∧ ¬ Watch.Reported 2 trace stay ∧
    ∀ driver, submit plain 2 driver (payment 1) ⟨TxStatus.isBuried, 7⟩
      ⟨some (minedInfo 1 stay.block), some 20, .ok ⟨0⟩⟩ = .ok (driver, [⟨7, .ok ()⟩]) := by
  obtain ⟨w, trace, hrun, hfound⟩ := Transition.exists_run_of_exec (Watch.step plain)
    (fun w msg => w.Legal msg ∧ w.Accepts msg)
    (Watch.start 2 [chainBlock 20 20 19 [payment 1]] [])
    [.block (chainBlock 21 21 20 [])]
    (fun w trace => w.chain.stays[1]?.any fun stay => !decide (Watch.Reported 2 trace stay))
    (by decide +kernel)
  obtain ⟨stay, hstay, hreported⟩ := (Option.any_eq_true _ _).mp hfound
  refine ⟨trace, w, stay, hrun, hstay, by simpa using hreported, fun driver => ?_⟩
  rw [submit]
  dsimp only
  rw [submissionStatus_minedInfo]
  rfl

end TxDriver

end StrataBridge
