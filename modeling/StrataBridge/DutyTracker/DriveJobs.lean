import StrataBridge.DutyTracker.TxDriver

/-!
# Jobs of the transaction driver

Every call of `drive` makes a channel of its own and hands a job to the task of the driver, which
takes jobs and events as they come. Jobs for one transaction share an entry of the heap, which an
event takes out and puts back without the jobs that it answers. A job takes no notice of the others:
what it is told depends on the node's answers at its submission and on the later events for its
transaction only.

## References

* `crates/duty-tracker/src/tx_driver.rs`, lines 68–107, 126–261 and 269–288
-/

namespace StrataBridge

open Rust Transition Linear BTreeMap List

/-! ### Heaps -/

namespace TxJobHeap

variable (heap : TxJobHeap) (e : Txid × List Listener)

def listeners (txid : Txid) : List Listener := heap[txid]?.getD []

theorem listeners_insert (txid t : Txid) (ls : List Listener) :
    listeners (heap.insert txid ls) t = if txid = t then ls else heap.listeners t := by
  rw [listeners, get_insert]
  split <;> rfl

private def extend : TxJobHeap :=
  match heap[e.1]? with
  | some responders => heap.insert e.1 (responders ++ e.2)
  | none => heap.insert e.1 e.2

private theorem listeners_extend (t : Txid) :
    (heap.extend e).listeners t = heap.listeners t ++ if e.1 = t then e.2 else [] := by
  have hextend : heap.extend e = heap.insert e.1 (heap.listeners e.1 ++ e.2) := by
    rw [extend, listeners]
    cases heap[e.1]? <;> rfl
  rw [hextend, listeners_insert]
  split
  next h => rw [h]
  next => rw [append_nil]

private theorem listeners_foldl_extend (es : List (Txid × List Listener)) (heap : TxJobHeap)
    (t : Txid) : (es.foldl extend heap).listeners t =
      heap.listeners t ++ es.flatMap fun e => if e.1 = t then e.2 else [] := by
  induction es generalizing heap with
  | nil => simp
  | cons e es ih => rw [foldl_cons, ih, listeners_extend, flatMap_cons, append_assoc]

/-- **Merging loses no listener**, and keeps their order. -/
theorem listeners_merge (self other : TxJobHeap) (t : Txid) :
    (self.merge other).listeners t = self.listeners t ++ other.listeners t := by
  have hmerge : self.merge other = other.toList.foldl extend self := rfl
  rw [hmerge, listeners_foldl_extend]
  congr 1
  cases hls : other[t]? with
  | none =>
    rw [listeners, hls]
    refine flatMap_eq_nil_iff.mpr fun e he => if_neg ?_
    rintro rfl
    cases hls.symm.trans (mem_toList.mp he)
  | some ls =>
    -- The keys are distinct, so the entry of the transaction is the only one that counts.
    obtain ⟨es₁, es₂, hes⟩ := append_of_mem (mem_toList.mpr hls)
    have hnodup := nodup_map_fst_toList other
    rw [hes, map_append, map_cons, nodup_middle] at hnodup
    have hnil (es : List (Txid × List Listener)) (hsub : es ⊆ es₁ ++ es₂) :
        (es.flatMap fun e => if e.1 = t then e.2 else []) = [] := by
      refine flatMap_eq_nil_iff.mpr fun e he => if_neg ?_
      rintro rfl
      exact (nodup_cons.mp hnodup).1 (by
        rw [← map_append]
        exact mem_map.mpr ⟨e, hsub he, rfl⟩)
    rw [hes, flatMap_append, flatMap_cons, hnil es₁ (by simp), hnil es₂ (by simp),
      if_pos rfl, listeners, hls, append_nil]
    rfl

theorem listeners_ofJob (txid t : Txid) (l : Listener) :
    (ofJob txid l).listeners t = if txid = t then [l] else [] := by
  rw [ofJob, listeners_insert]
  rfl

theorem listeners_foldl_ofJob (txid t : Txid) (ls : List Listener) (heap : TxJobHeap) :
    (ls.foldl (fun heap l => heap.merge (.ofJob txid l)) heap).listeners t =
      heap.listeners t ++ if txid = t then ls else [] := by
  induction ls generalizing heap with
  | nil => simp
  | cons l ls ih =>
    rw [foldl_cons, ih, listeners_merge, listeners_ofJob, append_assoc]
    split <;> rfl

end TxJobHeap

namespace TxDriver

/-! ### Runs -/

inductive Input
  | drive (tx : Transaction) (condition : TxStatus → Bool) (answers : SubmissionAnswers)
  | event (event : TxEvent)

structure Task where
  driver : TxDriver
  channels : ℕ

abbrev LogEntry : Type := Input × List DriveResponse

namespace Task

def start : Task := ⟨⟨[], ∅⟩, 0⟩

/-- One round of the task's loop (lines 126–261), where a job comes with a channel of its own (lines
274–281). A panic ends the task. -/
def serve (env : Env) (buryDepth : ℕ) (s : Task) (i : Input) : Option (Task × List LogEntry) :=
  match i with
  | .drive tx condition answers =>
    match s.driver.submit env buryDepth tx ⟨condition, s.channels⟩ answers with
    | .error _ => none
    | .ok (driver, responses) => some (⟨driver, s.channels + 1⟩, [(i, responses)])
  | .event event =>
    some (⟨(s.driver.onEvent env event).1, s.channels⟩, [(i, (s.driver.onEvent env event).2)])

def listeners (s : Task) (txid : Txid) : List Listener := s.driver.activeJobs.listeners txid

end Task

def jobs (log : List LogEntry) : ℕ := log.countP fun e => e.1 matches .drive ..

def answersOn (respondOn : ℕ) (log : List LogEntry) : List (Except ℕ Unit) :=
  log.flatMap fun e => (e.2.filter fun r => r.respondOn = respondOn).map DriveResponse.result

/-! ### What a job is to be told -/

def refusal (answers : SubmissionAnswers) : Option ℕ :=
  match answers.rawTransaction, answers.broadcast with
  | none, .error e => some e
  | _, _ => none

def foundStatus (buryDepth : ℕ) (answers : SubmissionAnswers) : Option TxStatus :=
  answers.rawTransaction.bind fun info =>
    (submissionStatus buryDepth info answers.blockHeight).toOption

def toldStatus (env : Env) (txid : Txid) : Input → Option TxStatus
  | .drive .. => none
  | .event event =>
    if event.status ≠ .unknown ∧ env.computeTxid event.rawtx = txid then some event.status
    else none

section Verdict

variable (env : Env) (buryDepth : ℕ) (tx : Transaction) (condition : TxStatus → Bool)
  (answers : SubmissionAnswers) (later : List LogEntry)

def statuses : List TxStatus :=
  (foundStatus buryDepth answers).toList ++
    later.filterMap fun e => toldStatus env (env.computeTxid tx) e.1

/-- What a job is to be told: that the node refused its transaction, or that a status has met its
condition. -/
def verdict : Option (Except ℕ Unit) :=
  match refusal answers with
  | some e => some (.error e)
  | none =>
    if (statuses env buryDepth tx answers later).any condition then some (.ok ()) else none

def meets (i : Input) : Bool :=
  (verdict env buryDepth tx condition answers later).isNone &&
    (toldStatus env (env.computeTxid tx) i).any condition

theorem verdict_snoc (e : LogEntry) :
    verdict env buryDepth tx condition answers (later ++ [e]) =
      if meets env buryDepth tx condition answers later e.1 then some (.ok ())
      else verdict env buryDepth tx condition answers later := by
  rw [meets, verdict, verdict, statuses, filterMap_append, ← append_assoc, ← statuses, any_append]
  cases refusal answers <;> cases (statuses env buryDepth tx answers later).any condition <;>
    cases htold : toldStatus env (env.computeTxid tx) e.1 <;> simp [htold]

end Verdict

/-! ### What a step does -/

variable {env : Env} {buryDepth : ℕ} {s s' : Task} {i : Input} {log : List LogEntry}
  {responses : List DriveResponse}

theorem listeners_await (driver : TxDriver) (tx : Transaction) (l : Listener) (t : Txid) :
    (driver.await env tx l).activeJobs.listeners t =
      driver.activeJobs.listeners t ++ if env.computeTxid tx = t then [l] else [] := by
  rw [await, TxJobHeap.listeners_merge, TxJobHeap.listeners_ofJob]

/-- A submission answers the job, or else registers it. -/
theorem submit_spec {driver driver' : TxDriver} {tx : Transaction} {l : Listener}
    {answers : SubmissionAnswers}
    (h : driver.submit env buryDepth tx l answers = .ok (driver', responses)) :
    responses = (verdict env buryDepth tx l.condition answers []).toList.map (⟨l.respondOn, ·⟩) ∧
    ∀ t, driver'.activeJobs.listeners t = driver.activeJobs.listeners t ++
      if verdict env buryDepth tx l.condition answers [] = none ∧ env.computeTxid tx = t then [l]
      else [] := by
  rw [submit] at h
  rw [verdict, refusal, statuses, foundStatus]
  cases hraw : answers.rawTransaction with
  | some info =>
    rw [hraw] at h
    cases hfound : submissionStatus buryDepth info answers.blockHeight with
    | error e => simp [hfound, Except.map] at h
    | ok status =>
      simp only [hfound, Except.map, Except.ok.injEq] at h
      split at h <;> obtain ⟨rfl, rfl⟩ := Prod.mk.inj h <;>
        simp_all [Except.toOption, listeners_await]
  | none =>
    rw [hraw] at h
    cases hsent : answers.broadcast with
    | error e | ok txid =>
      rw [hsent] at h
      cases h
      simp [listeners_await]

/-- An event answers the jobs that it tells of a status that they wait for, and keeps the others. -/
theorem onEvent_spec (env : Env) (driver : TxDriver) (event : TxEvent) :
    (driver.onEvent env event).2 =
      ((driver.activeJobs.listeners (env.computeTxid event.rawtx)).filter fun l =>
        (toldStatus env (env.computeTxid event.rawtx) (.event event)).any l.condition).map
          (fun l => ⟨l.respondOn, .ok ()⟩) ∧
    ∀ t, (driver.onEvent env event).1.activeJobs.listeners t =
      (driver.activeJobs.listeners t).filter fun l =>
        !(toldStatus env t (.event event)).any l.condition := by
  rw [onEvent]
  split
  next hunknown => simp [toldStatus, hunknown]
  next hstatus =>
    have hstatus : event.status ≠ .unknown := hstatus
    refine ⟨by simp [toldStatus, hstatus, TxJobHeap.listeners], fun t => ?_⟩
    rw [TxJobHeap.listeners_merge, TxJobHeap.listeners_foldl_ofJob, TxJobHeap.listeners, get_erase]
    split
    next h => simp [toldStatus, hstatus, ← h, TxJobHeap.listeners]
    next h => simp [toldStatus, h, TxJobHeap.listeners]

namespace Task

inductive Served (env : Env) (buryDepth : ℕ) (s s' : Task) : Input → List DriveResponse → Prop
  | drive {tx : Transaction} {condition : TxStatus → Bool} {answers : SubmissionAnswers}
      (hchannels : s'.channels = s.channels + 1)
      (hlisteners : ∀ t, s'.listeners t = s.listeners t ++
        if verdict env buryDepth tx condition answers [] = none ∧ env.computeTxid tx = t then
          [⟨condition, s.channels⟩]
        else []) :
      Served env buryDepth s s' (.drive tx condition answers)
        ((verdict env buryDepth tx condition answers []).toList.map (⟨s.channels, ·⟩))
  | event {event : TxEvent} (hchannels : s'.channels = s.channels)
      (hlisteners : ∀ t, s'.listeners t =
        (s.listeners t).filter fun l => !(toldStatus env t (.event event)).any l.condition) :
      Served env buryDepth s s' (.event event)
        (((s.listeners (env.computeTxid event.rawtx)).filter fun l =>
          (toldStatus env (env.computeTxid event.rawtx) (.event event)).any l.condition).map
            fun l => ⟨l.respondOn, .ok ()⟩)

theorem served_of_serve (hs : s.serve env buryDepth i = some (s', log)) :
    ∃ responses, log = [(i, responses)] ∧ Served env buryDepth s s' i responses := by
  cases i with
  | drive tx condition answers =>
    rw [serve] at hs
    split at hs
    next => cases hs
    next driver responses hsubmit =>
      cases hs
      obtain ⟨rfl, hlisteners⟩ := submit_spec hsubmit
      exact ⟨_, rfl, .drive rfl hlisteners⟩
  | event event =>
    obtain ⟨rfl, rfl⟩ := hs
    obtain ⟨hresponses, hlisteners⟩ := onEvent_spec env s.driver event
    refine ⟨_, rfl, ?_⟩
    rw [hresponses]
    exact .event rfl hlisteners

theorem Served.channels_eq (hs : s.Served env buryDepth s' i responses) :
    s'.channels = s.channels + jobs [(i, responses)] := by
  cases hs <;> assumption

/-- The listener of a job is registered once if it waits, for its transaction, and else nowhere. -/
def Registered (s : Task) (txid : Txid) (l : Listener) (waits : Bool) : Prop :=
  ∀ t, (s.listeners t).filter (fun l' => l'.respondOn = l.respondOn) =
    if waits ∧ txid = t then [l] else []

/-- **A step tells a job of the status of its transaction, and of nothing else.** -/
theorem Registered.served {txid : Txid} {l : Listener} {waits : Bool}
    (h : s.Registered txid l waits)
    (hl : l.respondOn < s'.channels → l.respondOn < s.channels)
    (hs : Served env buryDepth s s' i responses) :
    (answersOn l.respondOn [(i, responses)] =
      if waits && (toldStatus env txid i).any l.condition then [.ok ()] else []) ∧
    s'.Registered txid l (waits && !(toldStatus env txid i).any l.condition) := by
  cases hs with
  | @drive tx condition answers hchannels hlisteners =>
    have hne : s.channels ≠ l.respondOn := by omega
    refine ⟨by simp [answersOn, toldStatus, hne], fun t => ?_⟩
    rw [hlisteners, filter_append, h t]
    split <;> split <;> simp_all [toldStatus]
  | @event event hchannels hlisteners =>
    have hswap (c : Listener → Bool) (t : Txid) :
        ((s.listeners t).filter c).filter (fun l' => l'.respondOn = l.respondOn) =
          (if waits ∧ txid = t then [l] else []).filter c := by
      rw [← h t, filter_filter, filter_filter]
      simp only [Bool.and_comm]
    refine ⟨?_, fun t => ?_⟩
    · simp only [answersOn, flatMap_cons, filter_map, Function.comp_def, hswap]
      obtain htxid | htxid := eq_or_ne txid (env.computeTxid event.rawtx)
      · cases waits <;> cases hmet : (toldStatus env txid (.event event)).any l.condition <;>
          simp [← htxid, hmet]
      · simp [toldStatus, htxid, htxid.symm]
    · rw [hlisteners, hswap]
      obtain rfl | htxid := eq_or_ne txid t
      · cases waits <;> cases hmet : (toldStatus env txid (.event event)).any l.condition <;>
          simp [hmet]
      · simp [htxid]

end Task

/-! ### What jobs are told -/

theorem answersOn_append (j : ℕ) (log log' : List LogEntry) :
    answersOn j (log ++ log') = answersOn j log ++ answersOn j log' := flatMap_append

theorem jobs_append (log log' : List LogEntry) : jobs (log ++ log') = jobs log + jobs log' :=
  countP_append

structure Logged (env : Env) (buryDepth : ℕ) (log : List LogEntry) (s : Task) : Prop where
  channels : s.channels = jobs log
  unused : ∀ l : Listener, s.channels ≤ l.respondOn →
    answersOn l.respondOn log = [] ∧ ∀ txid, s.Registered txid l false
  told : ∀ earlier tx condition answers responses later,
    log = earlier ++ (.drive tx condition answers, responses) :: later →
    answersOn (jobs earlier) log = (verdict env buryDepth tx condition answers later).toList ∧
    (∀ later₁ e later₂, later = later₁ ++ e :: later₂ → answersOn (jobs earlier) [e] =
      if meets env buryDepth tx condition answers later₁ e.1 then [.ok ()] else []) ∧
    s.Registered (env.computeTxid tx) ⟨condition, jobs earlier⟩
      (verdict env buryDepth tx condition answers later).isNone

theorem Logged.served (h : Logged env buryDepth log s)
    (hs : s.Served env buryDepth s' i responses) :
    Logged env buryDepth (log ++ [(i, responses)]) s' := by
  have hchannels := hs.channels_eq
  refine ⟨by rw [hchannels, h.channels, jobs_append], fun l hl => ?_, ?_⟩
  · obtain ⟨hanswers, hnowhere⟩ := h.unused l (by omega)
    refine ⟨?_, fun txid => ((hnowhere txid).served (fun hlt => absurd hl hlt.not_ge) hs).2⟩
    rw [answersOn_append, hanswers]
    exact ((hnowhere ⟨0⟩).served (fun hlt => absurd hl hlt.not_ge) hs).1
  · intro earlier tx condition answers responses' later hlog
    obtain rfl | ⟨later, e, rfl⟩ := later.eq_nil_or_concat'
    · -- The job has just been submitted, on a channel that was not used before.
      obtain ⟨rfl, heq⟩ := append_inj' hlog rfl
      obtain ⟨rfl, rfl⟩ := Prod.mk.inj (cons.inj heq).1
      obtain ⟨hanswers, hnowhere⟩ := h.unused ⟨condition, s.channels⟩ le_rfl
      rw [answersOn_append, ← h.channels, hanswers]
      cases hs with
      | drive _ hlisteners =>
        refine ⟨by cases verdict env buryDepth tx condition answers [] <;> simp [answersOn],
          by simp, fun t => ?_⟩
        rw [hlisteners, filter_append, hnowhere ⟨0⟩ t, if_neg (by simp)]
        simp only [Option.isNone_iff_eq_none]
        split <;> simp
    · rw [← cons_append, ← append_assoc] at hlog
      obtain ⟨hlog', heq⟩ := append_inj' hlog rfl
      obtain rfl := (cons.inj heq).1
      obtain ⟨hanswers, hmoments, hregistered⟩ := h.told _ _ _ _ _ _ hlog'
      have hj : jobs earlier < s.channels := by
        rw [h.channels, hlog']
        simp [jobs]
      obtain ⟨hanswer, hregistered⟩ := hregistered.served (fun _ => hj) hs
      refine ⟨?_, fun later₁ e later₂ hlater => ?_, ?_⟩
      · rw [answersOn_append, hanswers, hanswer, verdict_snoc, meets]
        cases verdict env buryDepth tx condition answers later <;>
          cases (toldStatus env (env.computeTxid tx) i).any condition <;> rfl
      · obtain rfl | ⟨later₂, e', rfl⟩ := later₂.eq_nil_or_concat'
        · obtain ⟨rfl, heq⟩ := append_inj' hlater rfl
          obtain rfl := (cons.inj heq).1
          exact hanswer
        · rw [← cons_append, ← append_assoc] at hlater
          exact hmoments _ _ _ (append_inj' hlater rfl).1
      · rw [verdict_snoc, meets]
        cases hv : verdict env buryDepth tx condition answers later <;>
          cases hmet : (toldStatus env (env.computeTxid tx) i).any condition <;>
          simpa [hv, hmet] using hregistered

/-- **Every job is answered at most once.** At the end of every run of the task, whatever jobs and
events it has served, a job was told that the node refused its transaction, or that its condition
is met, if the status at the submission or one that an event has told since meets it, and then by
the first input that does. Until then its listener is registered once, for its transaction. -/
theorem job_answered_once {earlier later : List LogEntry} {tx : Transaction}
    {condition : TxStatus → Bool} {answers : SubmissionAnswers}
    (hrun : Run (Task.serve env buryDepth) (fun _ _ => True) .start
      (earlier ++ (.drive tx condition answers, responses) :: later) s) :
    answersOn (jobs earlier) (earlier ++ (.drive tx condition answers, responses) :: later) =
      (verdict env buryDepth tx condition answers later).toList ∧
    (∀ later₁ e later₂, later = later₁ ++ e :: later₂ → answersOn (jobs earlier) [e] =
      if meets env buryDepth tx condition answers later₁ e.1 then [.ok ()] else []) ∧
    ∀ txid, (s.listeners txid).filter (fun l => l.respondOn = jobs earlier) =
      if verdict env buryDepth tx condition answers later = none ∧ env.computeTxid tx = txid then
        [⟨condition, jobs earlier⟩]
      else [] := by
  have hlogged : Logged env buryDepth _ s := hrun.invariant (I := Logged env buryDepth)
    ⟨rfl, fun l _ => ⟨rfl, fun txid t => by simp [Task.listeners, Task.start,
      TxJobHeap.listeners]⟩, by simp⟩ fun log s i s' os h _ hs => by
      obtain ⟨responses, rfl, hserved⟩ := Task.served_of_serve hs
      exact h.served hserved
  obtain ⟨hanswers, hmoments, hregistered⟩ := hlogged.told _ _ _ _ _ _ rfl
  exact ⟨hanswers, hmoments, fun txid => by simpa using hregistered txid⟩

/-- Two jobs for payment 1, of which the event that it is mined answers one, and the other waits. -/
theorem job_answered_once_mined : ∃ log s,
    Run (Task.serve plain 2) (fun _ _ => True) .start log s ∧
    answersOn 0 log = [.ok ()] ∧ answersOn 1 log = [] ∧
    ((s.listeners (computeTxid (Linear.payment 1))).filter
      fun l => l.respondOn = 1).length = 1 := by
  let answers : SubmissionAnswers := ⟨none, none, .ok ⟨0⟩⟩
  let job₀ : LogEntry := (.drive (Linear.payment 1) TxStatus.isMined answers, [])
  let job₁ : LogEntry := (.drive (Linear.payment 1) TxStatus.isBuried answers, [])
  let mined : Input := .event ⟨Linear.payment 1, .mined ⟨20⟩ 20⟩
  obtain ⟨s, responses, hexec⟩ : ∃ s responses,
      exec (Task.serve plain 2) (fun _ _ => True) .start [job₀.1, job₁.1, mined] =
        some (s, [job₀, job₁, (mined, responses)]) := ⟨_, _, rfl⟩
  have hrun := Run.append_exec _ .nil hexec
  have hrun₀ : Run (Task.serve plain 2) (fun _ _ => True) .start ([] ++ job₀ :: _) s := hrun
  have hrun₁ : Run (Task.serve plain 2) (fun _ _ => True) .start ([job₀] ++ job₁ :: _) s :=
    hrun
  obtain ⟨hanswers, -⟩ := job_answered_once hrun₀
  obtain ⟨hnone, -, hwaits⟩ := job_answered_once hrun₁
  exact ⟨_, s, hrun, hanswers, hnone, congrArg length (hwaits _)⟩

end TxDriver

end StrataBridge
