import StrataBridge.Instance.LinearExecutor

/-!
# Announcing a deposit more than once

The duty to announce a deposit is handed out when the deposit is requested and again whenever
another operator asks for the announcement. Peers keep the first announcement they see, so the
stake hash and the funding output must not change from one to the next. The executor looks them up
in the database and stores them before it sends them. This module lets the database fail, and the
node stop, at every point of an execution, and follows an operator through any number of them.

A row never changes once it is stored, so announcements differ only if one of them is not taken
from the row. The executor treats a lookup that fails like one that finds nothing: it takes a new
output from the wallet, the database ignores the new row, and the new output is announced.

## Main definitions

* `Execution.run`: an execution with its mishaps
* `StakeEvent.ReadsStored`: no stored row is missed

## Main results

* `sent_setups_agree`: then all announcements of a deposit are the same

## References

* `crates/duty-tracker/src/executors/deposit.rs`, lines 77–255
* `crates/db/src/persistent/sqlite.rs`, lines 389–483
* `crates/duty-tracker/src/contract_state_machine.rs`, lines 1661–1669: inputs are never replaced
  once shared with peers
-/

namespace StrataBridge

open Rust Transition

/-! ### One execution -/

/-- What goes wrong in an execution, apart from the services that do not answer. -/
structure Mishaps where
  /-- The error of `get_stake_data`. -/
  read : Option ℕ
  /-- The error of `add_stake_data`. -/
  write : Option ℕ
  /-- The node goes down after the row is stored and before the message is sent. -/
  stops : Bool
  deriving DecidableEq, Repr

def Mishaps.none : Mishaps := ⟨.none, .none, false⟩

inductive SetupFailure where
  | executor (e : ExecutorErr)
  | db (code : ℕ)
  | stopped
  deriving DecidableEq, Repr

/-- An execution of the duty to announce a deposit: its arguments, the services as they answer
this time, and what goes wrong. -/
structure Execution where
  s2 : SecretService
  depositTxid : Txid
  depositIdx : ℕ
  inputs : StakeChainInputs
  fundingUtxo : Except ℕ OutPoint
  mishaps : Mishaps

def SetupFailure.orFail {α : Type} (db : StakeDb) :
    Except ExecutorErr α → Outcome StakeDb SetupFailure α
  | .ok a => .ok db a
  | .error e => .err db (.executor e)

namespace Execution

variable (env : ExecutorEnv) (table : OperatorTable) (x : Execution) (db : StakeDb)

/-- `get_stake_data` (`sqlite.rs`, lines 425–451) on a database that may fail. -/
def getStakeData : Except ℕ (Option StakeTxData) :=
  match x.mishaps.read with
  | some code => .error code
  | .none => .ok (db.getStakeData table.povIdx x.depositIdx)

/-- `add_stake_data` (`sqlite.rs`, lines 389–423) on a database that may fail. A write that fails
did not happen. -/
def addStakeData (data : StakeTxData) : Outcome StakeDb SetupFailure Unit :=
  match x.mishaps.write with
  | some code => .err db (.db code)
  | .none => .ok (db.addStakeData table.povIdx x.depositIdx data) ()

/-- The part of `handle_publish_deposit_setup` for a deposit that was not found in the database
(`deposit.rs`, lines 124–255): new data are stored and sent. -/
def publishNew (operatorPk : XOnlyPublicKey) (wotsPks : WotsPublicKeys) :
    Outcome StakeDb SetupFailure (List DepositSetup) :=
  (SetupFailure.orFail db (ask (x.s2.getPreimg x.inputs.preStakeOutpoint.txid
    x.inputs.preStakeOutpoint.vout x.depositIdx))).bind fun db preimg =>
  (SetupFailure.orFail db (x.fundingUtxo.mapError .wallet)).bind fun db fundingUtxo =>
  let hash := env.sha256 preimg
  (x.addStakeData table db
    ⟨fundingUtxo, hash, wotsPks.withdrawalFulfillment, operatorPk⟩).bind fun db _ =>
  if x.mishaps.stops then .err db .stopped
  else .ok db [⟨x.depositIdx, hash, fundingUtxo, operatorPk, wotsPks⟩]

/-- `handle_publish_deposit_setup` (`deposit.rs`, lines 77–255), with the messages it sends. A
lookup that fails is handled like one that finds nothing (line 105). -/
def run : Outcome StakeDb SetupFailure (List DepositSetup) :=
  (SetupFailure.orFail db (ask x.s2.generalPubkey)).bind fun db operatorPk =>
  (SetupFailure.orFail db (ask (getWotsPks x.s2.wots x.depositTxid))).bind fun db wotsPks =>
  match x.getStakeData table db with
  | .ok (some data) =>
    .ok db [⟨x.depositIdx, data.hash, data.operatorFunds, operatorPk, wotsPks⟩]
  | _ => x.publishNew env table db operatorPk wotsPks

end Execution

section Execution

variable {env : ExecutorEnv} {table : OperatorTable} {x : Execution} {db db' : StakeDb}

/-- **An execution in which nothing fails** is the executor without failures. -/
theorem Execution.run_eq (h : x.mishaps = .none) :
    x.run env table db =
      match handlePublishDepositSetup env table x.s2 db x.depositTxid x.depositIdx x.inputs
        x.fundingUtxo with
      | .ok (db', setup) => .ok db' [setup]
      | .error e => .err db (.executor e) := by
  have hread : x.getStakeData table db = .ok (db.getStakeData table.povIdx x.depositIdx) := by
    rw [Execution.getStakeData, h, Mishaps.none]
  have hwrite (data : StakeTxData) :
      x.addStakeData table db data = .ok (db.addStakeData table.povIdx x.depositIdx data) () := by
    rw [Execution.addStakeData, h, Mishaps.none]
  have hstops : x.mishaps.stops = false := by rw [h, Mishaps.none]
  rw [Execution.run, handlePublishDepositSetup]
  cases ask x.s2.generalPubkey with
  | error e => rfl
  | ok operatorPk =>
    cases ask (getWotsPks x.s2.wots x.depositTxid) with
    | error e => rfl
    | ok wotsPks =>
      simp only [SetupFailure.orFail, Outcome.bind_ok, hread]
      cases db.getStakeData table.povIdx x.depositIdx with
      | some data => simp only [bind, Except.bind, pure, Except.pure]
      | none =>
        simp only [Execution.publishNew, bind, Except.bind, pure, Except.pure]
        cases ask (x.s2.getPreimg x.inputs.preStakeOutpoint.txid x.inputs.preStakeOutpoint.vout
          x.depositIdx) with
        | error e => rfl
        | ok preimg =>
          cases x.fundingUtxo.mapError ExecutorErr.wallet with
          | error e => rfl
          | ok fundingUtxo =>
            simp [SetupFailure.orFail, hwrite, hstops]

/-! ### What an execution sends -/

/-- The hash and the funding output of a message are those of the operator's row. -/
def SentFrom (table : OperatorTable) (db : StakeDb) (m : DepositSetup) : Prop :=
  ∃ data, db.getStakeData table.povIdx m.index = some data ∧ data.hash = m.hash ∧
    data.operatorFunds = m.fundingOutpoint

theorem SentFrom.extends {m : DepositSetup} (h : SentFrom table db m) (hext : db.Extends db') :
    SentFrom table db' m := by
  obtain ⟨data, hdata, hhash, hfunds⟩ := h
  exact ⟨data, hext.stakeData _ _ hdata, hhash, hfunds⟩

/-- What a step leaves and sends: no row is lost, and the messages are those of the rows. -/
private def KeepsAndSends (table : OperatorTable) (db db' : StakeDb) (sent : List DepositSetup) :
    Prop :=
  db.Extends db' ∧ ∀ m ∈ sent, SentFrom table db' m

private theorem KeepsAndSends.nil (hext : db.Extends db') : KeepsAndSends table db db' [] :=
  ⟨hext, by simp⟩

theorem yields_orFail {α : Type} {Q : StakeDb → List DepositSetup → Prop}
    {r : Except ExecutorErr α} {f : StakeDb → α → Outcome StakeDb SetupFailure (List DepositSetup)}
    (hnil : Q db []) (hf : ∀ a, (f db a).Yields Q) :
    ((SetupFailure.orFail db r).bind f).Yields Q := by
  cases r with
  | error e => exact hnil
  | ok a => exact hf a

theorem Execution.yields_publishNew {operatorPk : XOnlyPublicKey}
    {wotsPks : WotsPublicKeys} (hrow : db.getStakeData table.povIdx x.depositIdx = none) :
    (x.publishNew env table db operatorPk wotsPks).Yields (KeepsAndSends table db) := by
  refine yields_orFail (.nil (.refl db)) fun preimg => ?_
  refine yields_orFail (.nil (.refl db)) fun fundingUtxo => ?_
  simp only [Execution.addStakeData]
  cases x.mishaps.write with
  | some code => exact .nil (.refl db)
  | none =>
    have hext := db.extends_addStakeData table.povIdx x.depositIdx
      ⟨fundingUtxo, env.sha256 preimg, wotsPks.withdrawalFulfillment, operatorPk⟩
    rw [Outcome.bind_ok]
    split
    · exact .nil hext
    · refine ⟨hext, fun m hm => ?_⟩
      obtain rfl := List.mem_singleton.mp hm
      exact ⟨_, StakeDb.getStakeData_addStakeData hrow, rfl, rfl⟩

/-- **An execution sends what is stored**, unless it could not read a row that is there. -/
theorem Execution.yields_run
    (hread : x.mishaps.read ≠ none → db.getStakeData table.povIdx x.depositIdx = none) :
    (x.run env table db).Yields fun db' sent =>
      db.Extends db' ∧ ∀ m ∈ sent, SentFrom table db' m := by
  change (x.run env table db).Yields (KeepsAndSends table db)
  refine yields_orFail (.nil (.refl db)) fun operatorPk => ?_
  refine yields_orFail (.nil (.refl db)) fun wotsPks => ?_
  rw [Execution.getStakeData]
  cases hfails : x.mishaps.read with
  | some code => exact Execution.yields_publishNew (hread (by simp [hfails]))
  | none =>
    cases hrow : db.getStakeData table.povIdx x.depositIdx with
    | none => exact Execution.yields_publishNew hrow
    | some data =>
      refine ⟨.refl db, fun m hm => ?_⟩
      obtain rfl := List.mem_singleton.mp hm
      exact ⟨data, hrow, rfl, rfl⟩

end Execution

/-! ### Any number of executions -/

inductive StakeEvent where
  /-- The operator executes the duty to announce a deposit. -/
  | execute (x : Execution)
  /-- The rows of announcements that were received are committed (`add_all_stake_data`); the
  transaction is rolled back on an error. -/
  | commit (rows : List ((OperatorIdx × ℕ) × StakeTxData)) (fails : Option ℕ)
  /-- The node is restarted. An execution starts from the database alone. -/
  | restart

def stakeStep (env : ExecutorEnv) (table : OperatorTable) (db : StakeDb) :
    StakeEvent → Option (StakeDb × List DepositSetup)
  | .execute x => (x.run env table db).next
  | .commit rows .none => some (db.addAllStakeData rows, [])
  | .commit _ (some _) => some (db, [])
  | .restart => some (db, [])

/-- The lookup of an execution fails only if the operator has no row for the deposit yet. -/
def StakeEvent.ReadsStored (table : OperatorTable) (db : StakeDb) : StakeEvent → Prop
  | .execute x => x.mishaps.read ≠ none → db.getStakeData table.povIdx x.depositIdx = none
  | .commit _ _ | .restart => True

variable {env : ExecutorEnv} {table : OperatorTable} {db db' : StakeDb} {sent : List DepositSetup}

theorem stakeStep_sends {e : StakeEvent} (hreads : e.ReadsStored table db)
    (h : stakeStep env table db e = some (db', sent)) :
    db.Extends db' ∧ ∀ m ∈ sent, SentFrom table db' m := by
  match e, h with
  | .execute x, h => exact (Execution.yields_run hreads).of_next h
  | .commit rows .none, h =>
    cases h
    exact ⟨db.extends_addAllStakeData rows, by simp⟩
  | .commit _ (some _), h | .restart, h =>
    cases h
    exact ⟨.refl db, by simp⟩

theorem sentFrom_of_run {db₀ : StakeDb}
    (h : Run (stakeStep env table) (StakeEvent.ReadsStored table) db₀ sent db) :
    ∀ m ∈ sent, SentFrom table db m := by
  refine h.invariant (I := fun sent db => ∀ m ∈ sent, SentFrom table db m) (by simp) ?_
  intro sent db e db' sent' ih hreads hstep m hm
  obtain ⟨hext, hsends⟩ := stakeStep_sends hreads hstep
  rcases List.mem_append.mp hm with hm | hm
  · exact (ih m hm).extends hext
  · exact hsends m hm

/-- **Announcements are never replaced** where no lookup of a stored row fails: from any database,
through any executions, failures and restarts, all announcements of a deposit carry one stake hash
and one funding output. -/
theorem sent_setups_agree {db₀ : StakeDb}
    (h : Run (stakeStep env table) (StakeEvent.ReadsStored table) db₀ sent db)
    (m m' : DepositSetup) (hm : m ∈ sent) (hm' : m' ∈ sent) (hidx : m.index = m'.index) :
    m.hash = m'.hash ∧ m.fundingOutpoint = m'.fundingOutpoint := by
  obtain ⟨data, hdata, hhash, hfunds⟩ := sentFrom_of_run h m hm
  obtain ⟨data', hdata', hhash', hfunds'⟩ := sentFrom_of_run h m' hm'
  obtain rfl : data = data' := Option.some.inj (by rw [← hdata, ← hdata', hidx])
  exact ⟨hhash.symm.trans hhash', hfunds.symm.trans hfunds'⟩

namespace Linear

def execution (funding : OutPoint) (mishaps : Mishaps) : Execution :=
  ⟨secretService, ⟨1⟩, 0, ⟨∅, ⟨⟨78⟩, 0⟩⟩, .ok funding, mishaps⟩

def announcement (funding : OutPoint) : DepositSetup := ⟨0, ⟨40⟩, funding, ⟨30⟩, publishedPks⟩

theorem run_execution (db : StakeDb) (funding : OutPoint) (mishaps : Mishaps) :
    (execution funding mishaps).run executorEnv twoOperators db =
      match (execution funding mishaps).getStakeData twoOperators db with
      | .ok (some data) => .ok db [⟨0, data.hash, data.operatorFunds, ⟨30⟩, publishedPks⟩]
      | _ => (execution funding mishaps).publishNew executorEnv twoOperators db ⟨30⟩
          publishedPks := by
  rw [Execution.run, execution, getWotsPks_secretService]
  rfl

private theorem run_execution_startedDb (funding : OutPoint) :
    (execution funding .none).run executorEnv twoOperators startedDb =
      .ok (startedDb.addStakeData 0 0 (announcement funding).stakeTxData)
        [announcement funding] := by
  rw [run_execution]
  rfl

private theorem run_execution_of_read_failed (db : StakeDb) (funding : OutPoint) (code : ℕ) :
    (execution funding ⟨some code, none, false⟩).run executorEnv twoOperators db =
      .ok (db.addStakeData 0 0 (announcement funding).stakeTxData) [announcement funding] := by
  rw [run_execution]
  rfl

private theorem run_execution_of_stored {first : OutPoint} (funding : OutPoint)
    (h : db.getStakeData 0 0 = some (announcement first).stakeTxData) :
    (execution funding .none).run executorEnv twoOperators db = .ok db [announcement first] := by
  have hread : (execution funding .none).getStakeData twoOperators db =
      .ok (some (announcement first).stakeTxData) := congrArg Except.ok h
  rw [run_execution, hread]
  rfl

private def announcedDb (first : OutPoint) : StakeDb :=
  startedDb.addStakeData 0 0 (announcement first).stakeTxData

theorem readsStored_of_no_mishaps (db : StakeDb) (funding : OutPoint) :
    (StakeEvent.execute (execution funding .none)).ReadsStored twoOperators db :=
  fun h => absurd rfl h

theorem run_announced (first : OutPoint) :
    Run (stakeStep executorEnv twoOperators) (StakeEvent.ReadsStored twoOperators) startedDb
      [announcement first] (announcedDb first) := by
  have hstep : stakeStep executorEnv twoOperators startedDb (.execute (execution first .none)) =
      some (announcedDb first, [announcement first]) := by
    rw [stakeStep, run_execution_startedDb]
    rfl
  exact Run.nil.snoc (readsStored_of_no_mishaps startedDb first) hstep

/-- A deposit announced twice, with a restart in between: the second time the wallet has another
output, and the first one is announced again. -/
theorem sent_setups_agree_after_restart : ∃ sent db,
    Run (stakeStep executorEnv twoOperators) (StakeEvent.ReadsStored twoOperators) startedDb sent
      db ∧ sent.length = 2 ∧
      ∀ m ∈ sent, ∀ m' ∈ sent, m.hash = m'.hash ∧ m.fundingOutpoint = m'.fundingOutpoint := by
  have hrestart : stakeStep executorEnv twoOperators (announcedDb ⟨⟨79⟩, 0⟩) .restart =
      some (announcedDb ⟨⟨79⟩, 0⟩, []) := rfl
  have hrepeat : stakeStep executorEnv twoOperators (announcedDb ⟨⟨79⟩, 0⟩)
      (.execute (execution ⟨⟨80⟩, 0⟩ .none)) =
        some (announcedDb ⟨⟨79⟩, 0⟩, [announcement ⟨⟨79⟩, 0⟩]) := by
    have hstored : (announcedDb ⟨⟨79⟩, 0⟩).getStakeData 0 0 =
        some (announcement ⟨⟨79⟩, 0⟩).stakeTxData := rfl
    rw [stakeStep, run_execution_of_stored ⟨⟨80⟩, 0⟩ hstored]
    rfl
  have hreads : StakeEvent.restart.ReadsStored twoOperators (announcedDb ⟨⟨79⟩, 0⟩) := trivial
  have hagain := ((run_announced ⟨⟨79⟩, 0⟩).snoc hreads hrestart).snoc
    (readsStored_of_no_mishaps _ _) hrepeat
  refine ⟨_, _, hagain, rfl, fun m hm m' hm' => sent_setups_agree hagain m m' hm hm' ?_⟩
  have hidx : ∀ m ∈ [announcement ⟨⟨79⟩, 0⟩, announcement ⟨⟨79⟩, 0⟩], m.index = 0 := by
    simp [announcement]
  exact (hidx m hm).trans (hidx m' hm').symm

/-- **A lookup that fails replaces an announcement.** The first execution stores and announces an
output. The lookup of the second fails, its row is ignored, and it announces another output. -/
theorem setup_replaced_after_failed_read : ∃ m m' db,
    Run (stakeStep executorEnv twoOperators) (fun _ _ => True) startedDb [m, m'] db ∧
      m.index = m'.index ∧ m.fundingOutpoint ≠ m'.fundingOutpoint ∧
      db.getStakeData twoOperators.povIdx 0 = some m.stakeTxData := by
  have hstep : stakeStep executorEnv twoOperators (announcedDb ⟨⟨79⟩, 0⟩)
      (.execute (execution ⟨⟨80⟩, 0⟩ ⟨some 5, none, false⟩)) =
        some ((announcedDb ⟨⟨79⟩, 0⟩).addStakeData 0 0 (announcement ⟨⟨80⟩, 0⟩).stakeTxData,
          [announcement ⟨⟨80⟩, 0⟩]) := by
    rw [stakeStep, run_execution_of_read_failed]
    rfl
  have hrun := ((run_announced ⟨⟨79⟩, 0⟩).mono fun _ _ _ => trivial).snoc trivial hstep
  exact ⟨announcement ⟨⟨79⟩, 0⟩, announcement ⟨⟨80⟩, 0⟩, _, hrun, rfl, by decide, rfl⟩

end Linear

end StrataBridge
