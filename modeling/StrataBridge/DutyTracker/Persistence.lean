import StrataBridge.DutyTracker.Duties
import StrataBridge.DutyTracker.ManagerSteps
import StrataBridge.Instance.LinearBridge

/-!
# What is on disk

A contract should be found on disk under the txid of its deposit, as it was last committed. The
deposits of the active contracts and their indices determine each other, so commits of contracts
under their own deposits replace nothing but their own rows. The commit that follows the last
partial signatures of a contract goes by the claim instead, and takes the row of the deposit away
until the next block.
-/

namespace StrataBridge

open Rust Transition Linear BTreeMap List

variable {es : List Emission}

/-! ### Reading back -/

namespace ContractPersister

variable {env : Env} {p : ContractPersister}

def lastCommit (env : Env) (p : ContractPersister) (deposit : Txid) : Option StoredContract :=
  (p.log.reverse.find? fun row => row.depositTx.tx.computeTxid env = deposit).map
    ContractRow.toStoredContract

structure Faithful (env : Env) (p : ContractPersister) : Prop where
  keyed : ∀ row ∈ p.table.rows, row.depositTxid = row.depositTx.tx.computeTxid env
  load_eq : ∀ deposit, p.load deposit = p.lastCommit env deposit

/-- **Commits that go by the deposit.** If every commit goes by the deposit, and deposits and
indices determine each other, no commit takes another contract's row away. -/
theorem Faithful.of_log (hkey : ∀ row ∈ p.log, row.depositTxid = row.depositTx.tx.computeTxid env)
    (hidx : ∀ a ∈ p.log, ∀ b ∈ p.log, a.depositTxid = b.depositTxid ↔ a.depositIdx = b.depositIdx) :
    p.Faithful env := by
  refine ⟨fun row hrow => hkey row (Sql.UniqueTable.mem_of_mem_replay hrow), fun deposit => ?_⟩
  rw [load, lastCommit, table, Sql.UniqueTable.select_replay hidx]
  have hfilter : p.log.reverse.filter (fun row => row.depositTxid = deposit) =
      p.log.reverse.filter fun row => row.depositTx.tx.computeTxid env = deposit :=
    filter_congr fun row hrow => by rw [hkey row (mem_reverse.mp hrow)]
  rw [← head?_filter, ← head?_filter, hfilter]

end ContractPersister

/-! ### The last missing partial signatures -/

namespace ContractSM

variable {env : Env}

/-- The partial signatures of an operator for a claim are new, and with them every graph has
those of all operators. -/
def completesGraphs (sm : ContractSM) (signer : P2POperatorPubKey) (claim : Txid)
    (signatures : List PartialSignature) : Bool :=
  match sm.state.state, PogMusigF.unpack signatures with
  | .requested r, some partials =>
    match r.graphPartials[claim]? with
    | some session => signer ∉ session &&
        Requested.haveAll sm.cfg.operatorTable.cardinality (vals r.claimTxids)
          (r.insertPartials claim session signer partials).graphPartials
    | none => false
  | _, _ => false

theorem graphSigs_emits (env : Env) (sm : ContractSM) (signer : P2POperatorPubKey) (claim : Txid)
    (signatures : List PartialSignature) :
    (sm.processContractEvent env (.graphSigs signer claim signatures)).Emits fun _ =>
      sm.completesGraphs signer claim signatures = true := by
  refine sm.of_reaction env fun o ho => ?_
  cases ho with
  | requested hs ho =>
    cases Requested.reaction ho with
    | lastPartials hsession hnew _ hr' hall hunpack =>
      subst hr'
      simp only [completesGraphs, hs, hunpack, hsession]
      exact fun _ _ => Bool.and_eq_true_iff.mpr ⟨decide_eq_true hnew, hall⟩
    | _ => simp
  | _ => simp

end ContractSM

/-! ### The manager -/

namespace ContractManagerCtx

variable {env : Env} {G : ContractEvent → Prop} {ctx ctx' : ContractManagerCtx}

/-- Contracts go by their deposits, deposits and indices determine each other, and what is on
disk belongs to these contracts. -/
structure Filed (env : Env) (ctx : ContractManagerCtx) : Prop where
  keyed : ∀ (k : Txid) sm, ctx.activeContracts[k]? = some sm → sm.depositTxid env = k
  indexed : ∀ (k k' : Txid) sm sm', ctx.activeContracts[k]? = some sm →
    ctx.activeContracts[k']? = some sm' → sm.cfg.depositIdx = sm'.cfg.depositIdx → k = k'
  rows : ∀ row ∈ ctx.contractPersister.log, ∃ sm, ctx.activeContracts[row.depositTxid]? = some sm ∧
    sm.cfg.depositTx = row.depositTx ∧ sm.cfg.depositIdx = row.depositIdx

theorem Filed.faithful (h : Filed env ctx) : ctx.contractPersister.Faithful env := by
  refine .of_log (fun row hrow => ?_) fun a ha b hb => ?_
  · obtain ⟨sm, hsm, htx, -⟩ := h.rows row hrow
    rw [← h.keyed _ sm hsm, ← htx]
    rfl
  · obtain ⟨sm, hsm, -, hidx⟩ := h.rows a ha
    obtain ⟨sm', hsm', -, hidx'⟩ := h.rows b hb
    constructor
    · intro heq
      rw [heq] at hsm
      obtain rfl := Option.some.inj (hsm.symm.trans hsm')
      exact hidx.symm.trans hidx'
    · intro heq
      exact h.indexed _ _ sm sm' hsm hsm' (hidx.trans (heq.trans hidx'.symm))

/-- The rows that are written are those of active contracts, under their own deposits. -/
def Commits (ctx ctx' : ContractManagerCtx) : Prop :=
  ∀ row ∈ ctx'.contractPersister.log, row ∈ ctx.contractPersister.log ∨
    ∃ k sm, ctx'.activeContracts[k]? = some sm ∧ row = ⟨.of sm, k⟩

theorem Commits.of_eq (h : ctx'.contractPersister = ctx.contractPersister) : Commits ctx ctx' := by
  intro row hrow
  rw [h] at hrow
  exact .inl hrow

theorem Commits.trans_commit (h : ctx'.contractPersister = ctx.contractPersister) (k : Txid) :
    Commits ctx (ctx'.commit k k) := by
  rw [commit]
  split
  · exact .of_eq h
  next sm hsm =>
    intro row hrow
    rcases mem_append.mp hrow with hrow | hrow
    · rw [h] at hrow
      exact .inl hrow
    · exact .inr ⟨k, sm, hsm, mem_singleton.mp hrow⟩

theorem commits_commitAll (ctx : ContractManagerCtx) : Commits ctx ctx.commitAll := by
  intro row hrow
  rcases mem_append.mp hrow with hrow | hrow
  · exact .inl hrow
  · obtain ⟨⟨k, sm⟩, he, rfl⟩ := mem_map.mp hrow
    exact .inr ⟨k, sm, mem_toList.mp he, rfl⟩

theorem Filed.of_moves (h : Filed env ctx) (hmoves : Moves env G ctx ctx')
    (hcommits : Commits ctx ctx') : Filed env ctx' := by
  refine ⟨fun k sm' hsm' => ?_, fun k k' sm₁ sm₂ h₁ h₂ hidx => ?_, fun row hrow => ?_⟩
  · obtain ⟨sm, hsm, hr⟩ := hmoves.exists_of_get hsm'
    rw [ContractSM.depositTxid, hr.cfg]
    exact h.keyed k sm hsm
  · obtain ⟨sm₁', h₁', hr₁⟩ := hmoves.exists_of_get h₁
    obtain ⟨sm₂', h₂', hr₂⟩ := hmoves.exists_of_get h₂
    rw [hr₁.cfg, hr₂.cfg] at hidx
    exact h.indexed k k' _ _ h₁' h₂' hidx
  · rcases hcommits row hrow with hold | ⟨k, sm, hsm, rfl⟩
    · obtain ⟨sm, hsm, htx, hidx⟩ := h.rows row hold
      obtain ⟨sm', hsm', hr⟩ := hmoves.exists_get_of hsm
      exact ⟨sm', hsm', by rw [hr.cfg, htx], by rw [hr.cfg, hidx]⟩
    · exact ⟨sm, hsm, rfl, rfl⟩

theorem Filed.addContracts {height : BitcoinBlockHeight} {sms : List ContractSM}
    (h : Filed env ctx') (hevolves : EvolvesByChain env ctx ctx')
    (hnew : NewContracts env ctx height sms) : Filed env (ctx'.addContracts env sms) := by
  have hkept {k : Txid} (hk : k ∈ ctx'.activeContracts) :
      (ctx'.addContracts env sms).activeContracts[k]? = ctx'.activeContracts[k]? := by
    refine get_addContracts_of_ne ?_
    rintro sm hsm rfl
    exact hnew.depositTxid_notMem hsm ((hevolves.mem_iff _).mp hk)
  have hlt {k : Txid} {sm : ContractSM} (hk : ctx'.activeContracts[k]? = some sm) :
      sm.cfg.depositIdx < ctx.depositIdxOffset := by
    obtain ⟨sm', hsm', hr⟩ := hevolves.exists_of_get hk
    rw [hr.cfg]
    exact lt_depositIdxOffset hsm'
  refine ⟨fun k sm hsm => ?_, fun k k' sm sm' hsm hsm' hidx => ?_, fun row hrow => ?_⟩
  · rcases get_addContracts hsm with ⟨-, hk⟩ | hk
    · exact hk
    · exact h.keyed k sm hk
  · rcases get_addContracts hsm with ⟨hmem, rfl⟩ | hk <;>
      rcases get_addContracts hsm' with ⟨hmem', rfl⟩ | hk'
    · -- two new contracts with one index are one contract
      obtain ⟨i, hi, _, rfl, -⟩ := hnew.exists_of_mem hmem
      obtain ⟨j, hj, _, rfl, -⟩ := hnew.exists_of_mem hmem'
      obtain rfl : i = j := Nat.add_left_cancel hidx
      rw [Option.some.inj (hi.symm.trans hj)]
    · obtain ⟨i, -, _, rfl, -⟩ := hnew.exists_of_mem hmem
      exact absurd (hlt hk') (by rw [← hidx]; exact Nat.not_lt.mpr (Nat.le_add_right _ i))
    · obtain ⟨i, -, _, rfl, -⟩ := hnew.exists_of_mem hmem'
      exact absurd (hlt hk) (by rw [hidx]; exact Nat.not_lt.mpr (Nat.le_add_right _ i))
    · exact h.indexed k k' sm sm' hk hk' hidx
  · rw [addContracts_eq] at hrow
    obtain ⟨sm, hsm, hrest⟩ := h.rows row hrow
    exact ⟨sm, (hkept (mem_iff_exists.mpr ⟨sm, hsm⟩)).trans hsm, hrest⟩

theorem Filed.processBlock {b : Block} (h : Filed env ctx)
    (hs : (ctx.processBlock env b).next = some (ctx', es)) : Filed env ctx' := by
  rcases processBlock_cases hs with hevolves | ⟨ctx₁, sms, hevolves, hnew, rfl⟩
  · exact h.of_moves hevolves.toMoves (.of_eq hevolves.contractPersister)
  · have h₁ := h.of_moves hevolves.toMoves (.of_eq hevolves.contractPersister)
    exact (h₁.addContracts hevolves hnew).of_moves
      (.of_eq (G := ContractEvent.IsChain) rfl rfl) (commits_commitAll _)

/-- A message brings the last missing partial signatures of a contract. -/
def completesGraphs (ctx : ContractManagerCtx) : Input → Bool
  | .message key (.musig2SignaturesExchange sessionId signatures) =>
    (ctx.findByClaim sessionId).any fun e => e.2.completesGraphs key sessionId signatures
  | _ => false

theorem deliver_commits {k : Txid} {sm : ContractSM} {ev : ContractEvent}
    (hk : ctx.activeContracts[k]? = some sm) : (ctx.deliver env k sm ev).Leaves fun ctx' =>
      ctx'.contractPersister = ctx.contractPersister :=
  (deliver_evolves (G := fun _ => True) (.refl ctx) hk trivial).mono fun _ h => h.contractPersister

private theorem setupContract_commits (ctx : ContractManagerCtx) (key : P2POperatorPubKey)
    {scope : Txid} {sm : ContractSM} (setup : DepositSetup)
    (hsm : ctx.activeContracts[scope]? = some sm) :
    (ctx.setupContract env key scope sm setup).Leaves (Commits ctx) := by
  rw [setupContract]
  split
  · exact .of_eq rfl
  · exact .of_eq rfl
  split
  · exact .of_eq rfl
  refine (deliver_commits hsm).bind (fun _ h => .of_eq h) fun ctx' duties h => ?_
  split
  · exact .of_eq h
  · have hindex : (ctx'.indexClaims scope duties).contractPersister = ctx.contractPersister := h
    exact Commits.trans_commit hindex scope

private theorem processDepositSetup_commits (key : P2POperatorPubKey) (scope : Txid)
    (setup : DepositSetup) :
    (ctx.processDepositSetup env key scope setup).Leaves (Commits ctx) := by
  rw [processDepositSetup]
  split
  · exact .of_eq rfl
  next sm hsm =>
  split
  · trivial
  · exact .of_eq rfl
  · exact .of_eq rfl
  next stakeChains _ _ =>
    exact setupContract_commits { ctx with stakeChains } key setup hsm

private theorem processNonces_commits (key : P2POperatorPubKey) (sessionId : Txid)
    (nonces : List PubNonce) :
    (ctx.processNonces env key sessionId nonces).Leaves (Commits ctx) := by
  rw [processNonces]
  split
  next hfind => exact (deliver_commits (findByClaim_eq_some hfind)).mono fun _ h => .of_eq h
  split
  · exact .of_eq rfl
  next hfind =>
  split
  · exact .of_eq rfl
  split
  · exact (deliver_commits (findByRequest_eq_some hfind)).mono fun _ h => .of_eq h
  · exact .of_eq rfl

private theorem processSignatures_commits {key : P2POperatorPubKey} {sessionId : Txid}
    {signatures : List PartialSignature}
    (h : ctx.completesGraphs (.message key (.musig2SignaturesExchange sessionId signatures)) =
      false) : (ctx.processSignatures env key sessionId signatures).Leaves (Commits ctx) := by
  rw [processSignatures]
  split
  next deposit sm hfind =>
    simp only [completesGraphs, hfind, Option.any_some] at h
    have hnone := sm.graphSigs_emits env key sessionId signatures
    have hdeliver : (ctx.deliver env deposit sm (.graphSigs key sessionId signatures)).Leaves _ :=
      deliver_commits (findByClaim_eq_some hfind)
    rw [deliver] at hdeliver ⊢
    cases hr : sm.processContractEvent env (.graphSigs key sessionId signatures) with
    | panic msg => trivial
    | err sm' e =>
      rw [hr] at hdeliver
      exact .of_eq hdeliver
    | ok sm' ds =>
      rw [hr] at hdeliver hnone
      obtain rfl : ds = [] := eq_nil_iff_forall_not_mem.mpr fun d hd => by
        simpa [h] using hnone d hd
      exact .of_eq hdeliver
  split
  · exact .of_eq rfl
  next hfind =>
  split
  · exact (deliver_commits (findByRequest_eq_some hfind)).mono fun _ h => .of_eq h
  · exact .of_eq rfl

theorem Filed.processP2pMessage {key : P2POperatorPubKey} {msg : UnsignedGossipsubMsg}
    (h : Filed env ctx) (hcomplete : ctx.completesGraphs (.message key msg) = false)
    (hs : (ctx.processP2pMessage env key msg).next = some (ctx', es)) : Filed env ctx' := by
  refine h.of_moves ((processP2pMessage_moves env ctx key msg).of_next hs) ?_
  refine Outcome.Leaves.of_next ?_ hs
  rw [ContractManagerCtx.processP2pMessage]
  split
  · trivial
  cases msg with
  | stakeChainExchange => exact .of_eq rfl
  | depositSetup scope setup => exact processDepositSetup_commits key scope setup
  | musig2NoncesExchange sessionId nonces => exact processNonces_commits key sessionId nonces
  | musig2SignaturesExchange sessionId signatures => exact processSignatures_commits hcomplete

theorem Filed.serve {i : Input} (h : Filed env ctx) (hcomplete : ctx.completesGraphs i = false)
    (hs : ctx.serve env i = some (ctx', es)) : Filed env ctx' := by
  cases i with
  | block b => exact h.processBlock hs
  | message key msg => exact h.processP2pMessage hcomplete hs
  | request req => rwa [serve_request hs]

/-- **What is on disk is what was last committed.** In a run of a manager that starts without
contracts, as long as no message brings the last missing partial signatures of a contract, every
row is found under its deposit, and reading a deposit returns the contract as it was last
committed. -/
theorem contracts_on_disk (hactive : ctx.activeContracts = ∅)
    (hlog : ctx.contractPersister.log = [])
    (hreach : Reachable (serve env) (fun ctx i => ctx.completesGraphs i = false) ctx ctx') :
    ctx'.contractPersister.Faithful env := by
  have hinit : Filed env ctx := by
    refine ⟨?_, ?_, ?_⟩
    · simp [hactive]
    · simp [hactive]
    · simp [hlog]
  exact (hreach.invariant (I := Filed env) hinit fun _ _ _ _ h hG hs => h.serve hG hs).faithful

private def linearSetup : List Input :=
  [exchange 0, block 100 [requestTx oneOperator 5],
    announce 0 (depositTxidOf oneOperator 5 0) 0 40 true]

/-- A contract that is committed twice, with the block and with the announcement. -/
theorem contract_on_disk_after_setup : ∃ ctx,
    Reachable (serve plain) (fun ctx i => ctx.completesGraphs i = false) (manager oneOperator) ctx ∧
    ctx.contractPersister.log.length = 2 ∧ ctx.contractPersister.Faithful plain := by
  obtain ⟨ctx, es, hrun, htwo⟩ := exists_run_of_exec (serve plain)
    (fun ctx i => ctx.completesGraphs i = false) (manager oneOperator) linearSetup
    (fun ctx _ => ctx.contractPersister.log.length = 2) (by decide +kernel)
  exact ⟨ctx, ⟨es, hrun⟩, of_decide_eq_true htwo, contracts_on_disk rfl rfl ⟨es, hrun⟩⟩

private def linearSigning : List Input :=
  let graph := announcedGraph oneOperator 0 (depositTxidOf oneOperator 5 0) 40
  [sendNonces 0 graph 1, sendShares oneOperator [1] 0 graph]

/-- After the last partial signatures the contract is on disk under its claim, and is not found
under its deposit. -/
theorem contract_on_disk_under_claim : ∃ ctx,
    Reachable (serve plain) (fun _ _ => True) (manager oneOperator) ctx ∧
    (∃ row ∈ ctx.contractPersister.table.rows,
      row.depositTxid ≠ row.depositTx.tx.computeTxid plain) ∧
    (ctx.contractPersister.lastCommit plain (depositTxidOf oneOperator 5 0)).isSome ∧
    ctx.contractPersister.load (depositTxidOf oneOperator 5 0) = none := by
  exact exists_reachable_of_decide (linearSetup ++ linearSigning) (by decide +kernel)

end ContractManagerCtx

end StrataBridge
