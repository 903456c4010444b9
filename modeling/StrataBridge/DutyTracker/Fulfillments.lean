import StrataBridge.DutyTracker.Duties
import StrataBridge.DutyTracker.ManagerSteps
import StrataBridge.Instance.LinearBridge

/-!
# Duties to pay for a withdrawal

Every duty to serve a withdrawal makes the assigned operator pay the user once. Checkpoints repeat
all withdrawals that are dispatched, and a contract that is deposited, assigned or aborted answers
every assignment with a duty, whether it is new or not. So the duties for one assignment are
bounded by its occurrences in checkpoints that the contract sees before it is fulfilled.
-/

namespace StrataBridge

open Rust Transition Linear List Emission

variable {G : ContractEvent → Prop} {es : List Emission}

/-- What makes two assignments of a contract the same. -/
structure Assignment where
  depositIdx : ℕ
  assignee : OperatorIdx
  execDeadline : BitcoinBlockHeight
  withdrawalRequestTxid : Buf32
  deriving DecidableEq, Repr

def DepositEntry.assignment (entry : DepositEntry) : Option Assignment :=
  match entry.depositState, entry.withdrawalRequestTxid with
  | .dispatched d, some w => some ⟨entry.idx, d.assignee, d.execDeadline, w⟩
  | _, _ => none

def DepositEntry.assigns (entry : DepositEntry) : Option (Txid × Assignment) :=
  entry.assignment.map (entry.output.txid, ·)

def Emission.fulfills (x : Txid × Assignment) (e : Emission) : Bool :=
  match e.origin, e.duty with
  | .event deposit (.assignment entry ..), .fulfillerDuty (.handleFulfillment ..) =>
    entry.assignment.map (deposit, ·) = some x
  | _, _ => false

/-! ### Contracts -/

def ContractState.unpaid : ContractState → Bool
  | .requested _ | .deposited _ | .assigned _ | .aborted => true
  | _ => false

namespace ContractSM

variable {env : Env} {sm sm' : ContractSM}

theorem unpaid_of_advance {table : OperatorTable} {s s' : ContractState}
    (h : ContractState.Advance env table s s') (hs : s'.unpaid = true) : s.unpaid = true := by
  cases h with
  | stay => exact hs
  | assign a hs' =>
    rcases hs' with rfl | ⟨a', rfl, -⟩ <;> rfl
  | exchange | abort | deposit | fulfill => rfl
  | claim | challenge | preAssert | collect | collected | postAssert | disprove
  | payoutOptimistic | payout => cases hs

theorem ReachableBy.unpaid (h : ReachableBy env G sm sm') (hs : sm'.state.state.unpaid = true) :
    sm.state.state.unpaid = true :=
  Transition.Reachable.invariant
    (I := fun sm' => sm'.state.state.unpaid = true → sm.state.state.unpaid = true) h id
    (fun _ _ _ _ ih _ hstep hs => ih (unpaid_of_advance (advance_of_step hstep) hs)) hs

theorem processAssignment_length (env : Env) (sm : ContractSM) (entry : DepositEntry)
    (stakeTx : StakeTxKind) (height : BitcoinBlockHeight) :
    (sm.processAssignment env entry stakeTx height).Yields fun _ ds =>
      ds.length ≤ sm.state.state.unpaid.toNat := by
  have ho := sm.reaction env (.assignment entry stakeTx height)
  rw [processContractEvent] at ho
  generalize sm.processAssignment env entry stakeTx height = o at ho ⊢
  cases ho with
  | assigns hs => rcases hs with hs | ⟨a, hs, -⟩ <;> rw [hs] <;> exact Nat.le_refl 1
  | assignsStub hs =>
    rw [hs]
    exact Nat.le_refl 1
  | passes hev | requested _ hev => cases hev
  | rejects | passesAssignment => exact Nat.zero_le _

end ContractSM

/-! ### The manager -/

namespace ContractManagerCtx

variable {env : Env} {ctx ctx' : ContractManagerCtx} {x : Txid × Assignment}

/-- The withdrawal of a deposit is not paid yet, as far as its contract knows. -/
def unpaid (ctx : ContractManagerCtx) (deposit : Txid) : Bool :=
  ctx.activeContracts[deposit]?.any fun sm => sm.state.state.unpaid

theorem Evolves.unpaid (h : Evolves env G ctx ctx') {deposit : Txid}
    (hctx' : ctx'.unpaid deposit = true) : ctx.unpaid deposit = true := by
  obtain ⟨sm', hsm', hs'⟩ := (Option.any_eq_true _ _).mp hctx'
  obtain ⟨sm, hsm, hr⟩ := h.exists_of_get hsm'
  exact (Option.any_eq_true _ _).mpr ⟨sm, hsm, hr.unpaid hs'⟩

theorem fulfills_eq_false {e : Emission} {k : Txid} {ev : ContractEvent}
    (he : e.origin = .event k ev)
    (hev : ∀ entry stakeTx height, ev ≠ .assignment entry stakeTx height) :
    e.fulfills x = false := by
  rw [fulfills, he]
  cases ev with
  | assignment entry stakeTx height => exact absurd rfl (hev entry stakeTx height)
  | _ => rfl

private theorem assigns_of_fulfills {e : Emission} {k : Txid} {entry : DepositEntry}
    {stakeTx : StakeTxKind} {height : BitcoinBlockHeight}
    (he : e.origin = .event k (.assignment entry stakeTx height)) (hf : e.fulfills x = true) :
    entry.assignment.map (k, ·) = some x := by
  rw [fulfills, he] at hf
  split at hf
  next horigin _ =>
    obtain ⟨rfl, rfl, -, -⟩ := by simpa using horigin
    exact of_decide_eq_true hf
  · cases hf

theorem countP_fulfills_eq_zero (h : ∀ e ∈ es, e.fulfills x = false) :
    es.countP (fulfills x) = 0 := by
  rw [countP_eq_zero]
  exact fun e he => by simp [h e he]

private theorem Evolves.toNat_unpaid_le (h : Evolves env G ctx ctx') (deposit : Txid) :
    (ctx'.unpaid deposit).toNat ≤ (ctx.unpaid deposit).toNat :=
  Bool.toNat_le_toNat h.unpaid

private theorem assignEntry_fulfills (h : EvolvesByTx env ctx ctx')
    (l1StartHeight : BitcoinBlockHeight) (entry : DepositEntry) :
    (ctx'.assignEntry env l1StartHeight entry).Yields fun ctx'' es =>
      EvolvesByTx env ctx ctx'' ∧ es.countP (Emission.fulfills x) ≤
        (ctx.unpaid x.1).toNat * (decide (entry.assigns = some x)).toNat := by
  rw [assignEntry]
  split
  · trivial
  next sm hsm =>
  split
  next stakeTx _ =>
    have hevolves : (ctx'.deliver env entry.output.txid sm
        (.assignment entry stakeTx l1StartHeight)).Leaves (EvolvesByTx env ctx') :=
      deliver_evolves (.refl ctx') hsm rfl
    have hlength := sm.processAssignment_length env entry stakeTx l1StartHeight
    rw [deliver, ContractSM.processContractEvent] at hevolves ⊢
    cases hr : sm.processAssignment env entry stakeTx l1StartHeight with
    | panic msg => trivial
    | err sm' e =>
      rw [hr] at hevolves
      exact ⟨h.trans hevolves, Nat.zero_le _⟩
    | ok sm' ds =>
      rw [hr] at hevolves hlength
      refine ⟨h.trans hevolves, ?_⟩
      by_cases hx : entry.assigns = some x
      · have hpaid : ctx'.unpaid x.1 = sm.state.state.unpaid := by
          obtain ⟨a, -, rfl⟩ := Option.map_eq_some_iff.mp hx
          simp [ContractManagerCtx.unpaid, hsm]
        calc
          _ ≤ (ds.map (Emission.mk (.event entry.output.txid
              (.assignment entry stakeTx l1StartHeight)))).length := countP_le_length
          _ = ds.length := length_map _
          _ ≤ (ctx'.unpaid x.1).toNat := hpaid ▸ hlength
          _ ≤ (ctx.unpaid x.1).toNat := h.toNat_unpaid_le x.1
          _ = _ := by simp [hx]
      · have hnone : ∀ e ∈ ds.map (Emission.mk (.event entry.output.txid
            (.assignment entry stakeTx l1StartHeight))), e.fulfills x = false := by
          intro e he
          obtain ⟨d, -, rfl⟩ := mem_map.mp he
          exact Bool.eq_false_iff.mpr fun hf => hx (assigns_of_fulfills rfl hf)
        exact (countP_fulfills_eq_zero hnone).trans_le (Nat.zero_le _)
  · exact ⟨h, Nat.zero_le _⟩

def txAssignments (env : Env) (params : RollupParams) (tx : Transaction) :
    List (Txid × Assignment) :=
  (txEntries env params tx).filterMap DepositEntry.assigns

private theorem sum_assigns (entries : List DepositEntry) :
    (entries.map fun entry => (decide (entry.assigns = some x)).toNat).sum =
      (entries.filterMap DepositEntry.assigns).count x := by
  induction entries with
  | nil => rfl
  | cons entry rest ih =>
    rw [map_cons, sum_cons, ih, filterMap_cons]
    cases hentry : entry.assigns with
    | none => simp
    | some y =>
      by_cases hy : y = x
      · simp [hy, Nat.add_comm]
      · simp [hy]

private theorem processAssignments_fulfills (h : EvolvesByTx env ctx ctx') (tx : Transaction) :
    (ctx'.processAssignments env tx).Yields fun ctx'' es =>
      EvolvesByTx env ctx ctx'' ∧ es.countP (fulfills x) ≤
        (ctx.unpaid x.1).toNat * (txAssignments env ctx.cfg.sidesystemParams tx).count x := by
  rw [processAssignments, txAssignments, txEntries, h.cfg]
  rcases parseStrataCheckpoint env ctx.cfg.sidesystemParams tx with msg | _ | checkpoint
  · trivial
  · exact ⟨h, Nat.zero_le _⟩
  dsimp only
  cases env.decodeChainstate checkpoint.sidecar with
  | none => exact ⟨h, Nat.zero_le _⟩
  | some chainstate =>
    rw [← sum_assigns]
    have hloop := Outcome.Yields.forEach_countP (I := EvolvesByTx env ctx)
      (p := fulfills x) (l := chainstate.depositsTable.filter DepositEntry.isDispatched)
      (w := fun entry => (ctx.unpaid x.1).toNat * (decide (entry.assigns = some x)).toNat)
      (f := fun ctx entry => ctx.assignEntry env (checkpoint.l1EndHeight + 1) entry) h
      fun ctx' h entry _ => assignEntry_fulfills h _ entry
    rw [sum_map_mul_left] at hloop
    exact hloop

private theorem processOther_emits (p : BlockProgress) (height : BitcoinBlockHeight)
    (depositIdx : ℕ) (tx : Transaction) :
    (processOther env p height depositIdx tx).Emits fun e => e.fulfills x = false := by
  rw [processOther]
  split
  · trivial
  · rw [createContract]
    split
    · simp
    split
    · simp
    split
    · trivial
    · intro e he
      obtain rfl := mem_singleton.mp he
      rfl
  split
  · rw [confirmDeposit]
    split
    · simp
    next sm _ _ =>
    have hdeliver := p.ctx.deliver_emits env (env.computeTxid tx) sm (.depositConfirmation tx)
    revert hdeliver
    cases p.ctx.deliver env (env.computeTxid tx) sm (.depositConfirmation tx) with
    | ok ctx' duties => exact fun hdeliver e he => fulfills_eq_false (hdeliver e he) (by simp)
    | err => simp
    | panic => simp
  · rw [Outcome.emits_embed]
    refine Outcome.Emits.forEach fun ctx' e _ => ?_
    rw [confirmFor]
    split
    · simp
    split
    · exact (ctx'.deliver_emits env e.1 e.2 _).mono fun _ he => fulfills_eq_false he (by simp)
    · simp

/-- The transactions up to some point of a block: they lead to as many duties as they assign the
withdrawal. -/
private def Bounded (env : Env) (ctx : ContractManagerCtx) (height : BitcoinBlockHeight)
    (x : Txid × Assignment) (n : ℕ) (p : BlockProgress) (es : List Emission) : Prop :=
  Progress env ctx height p ∧ es.countP (fulfills x) ≤ (ctx.unpaid x.1).toNat * n

private theorem processTx_fulfills {height : BitcoinBlockHeight} {p : BlockProgress}
    (h : Progress env ctx height p) (tx : Transaction) :
    (processTx env height ctx.depositIdxOffset p tx).Yields
      (Bounded env ctx height x ((txAssignments env ctx.cfg.sidesystemParams tx).count x)) := by
  have hassign : ((p.ctx.processAssignments env tx).embed (BlockProgress.mk · p.newContracts)
      (id : ContractManagerErr → _)).Yields
        (Bounded env ctx height x ((txAssignments env ctx.cfg.sidesystemParams tx).count x)) :=
    ((processAssignments_fulfills h.evolves tx).mono
      fun ctx' es hes => ⟨⟨hes.1, h.newContracts⟩, hes.2⟩).embed
  refine hassign.bind (fun _ h => h) fun p' duties hp' => ?_
  split
  · refine ((processOther_progress hp'.1 tx).yields
      (processOther_emits (x := x) p' height _ tx)).mono fun p'' es hes => ⟨hes.1, ?_⟩
    exact (countP_fulfills_eq_zero hes.2).trans_le (Nat.zero_le _)
  · exact hp'

def blockAssignments (env : Env) (params : RollupParams) (b : Block) : List (Txid × Assignment) :=
  b.txdata.flatMap (txAssignments env params)

/-- **The duties of a block to serve an assignment.** There are at most as many as the block's
checkpoints make the assignment, and none if the withdrawal is paid before the block. -/
theorem processBlock_fulfills (env : Env) (ctx : ContractManagerCtx) (b : Block)
    (x : Txid × Assignment) :
    (ctx.processBlock env b).Yields fun _ es => es.countP (fulfills x) ≤
      (ctx.unpaid x.1).toNat * (blockAssignments env ctx.cfg.sidesystemParams b).count x := by
  have htxs := Outcome.Yields.forEach_countP (I := Progress env ctx b.height)
    (p := fulfills x) (l := b.txdata)
    (w := fun tx =>
      (ctx.unpaid x.1).toNat * (txAssignments env ctx.cfg.sidesystemParams tx).count x)
    (f := processTx env b.height ctx.depositIdxOffset) (.refl env ctx b.height)
    fun p h tx _ => processTx_fulfills h tx
  rw [sum_map_mul_left] at htxs
  rw [processBlock, blockAssignments, count_flatMap]
  cases hr : Outcome.forEach (processTx env b.height ctx.depositIdxOffset) ⟨ctx, []⟩ b.txdata with
  | panic msg => trivial
  | err p e => exact Nat.zero_le _
  | ok p duties =>
    rw [hr] at htxs
    have hnotify : (p.ctx.notifyContracts env b.height).Emits fun e => e.fulfills x = false :=
      Outcome.Emits.forEach fun ctx' e _ =>
        (ctx'.deliver_emits env e.1 e.2 _).mono fun _ he => fulfills_eq_false he (by simp)
    dsimp only
    cases hn : p.ctx.notifyContracts env b.height with
    | panic msg => trivial
    | err ctx' e => exact Nat.zero_le _
    | ok ctx' blockDuties =>
      rw [hn] at hnotify
      change (duties ++ blockDuties).countP (fulfills x) ≤ _
      rw [countP_append, countP_fulfills_eq_zero hnotify]
      exact htxs.2

/-! ### Runs -/

def Input.assignments (env : Env) (params : RollupParams) : Input → List (Txid × Assignment)
  | .block b => blockAssignments env params b
  | .message .. | .request _ => []

/-- The block that is coming makes no assignment twice, and none that an earlier block has made,
for a withdrawal that is not paid yet. -/
def FreshAssignments (env : Env) (s : List Input × ContractManagerCtx) (i : Input) : Prop :=
  ∀ x ∈ i.assignments env s.2.cfg.sidesystemParams, s.2.unpaid x.1 = true →
    x ∉ s.1.flatMap (Input.assignments env s.2.cfg.sidesystemParams) ∧
      (i.assignments env s.2.cfg.sidesystemParams).count x = 1

instance (env : Env) (s : List Input × ContractManagerCtx) (i : Input) :
    Decidable (FreshAssignments env s i) :=
  inferInstanceAs (Decidable (∀ x ∈ i.assignments env s.2.cfg.sidesystemParams, _ → _ ∧ _))

private theorem processP2pMessage_emits (key : P2POperatorPubKey) (msg : UnsignedGossipsubMsg) :
    (ctx.processP2pMessage env key msg).Emits fun e => e.fulfills x = false := by
  have hdeliver (ctx : ContractManagerCtx) (k : Txid) (sm : ContractSM) {ev : ContractEvent}
      (hev : ev.isSigning = true) :
      (ctx.deliver env k sm ev).Emits fun e => e.fulfills x = false := by
    refine (ctx.deliver_emits env k sm ev).mono fun e he => fulfills_eq_false he ?_
    rintro entry stakeTx height rfl
    cases hev
  rw [processP2pMessage]
  split
  · trivial
  cases msg with
  | stakeChainExchange => simp [processUnsignedGossipMsg]
  | depositSetup scope setup =>
    rw [processUnsignedGossipMsg, processDepositSetup]
    split
    · simp
    split
    · trivial
    · trivial
    · simp
    rw [setupContract]
    split
    · trivial
    · trivial
    split
    · trivial
    · exact (hdeliver _ scope _ rfl).bind fun _ _ h => h
  | musig2NoncesExchange sessionId nonces =>
    rw [processUnsignedGossipMsg, processNonces]
    split
    · exact hdeliver ctx _ _ rfl
    split
    · simp
    split
    · trivial
    split
    · exact hdeliver ctx _ _ rfl
    · trivial
  | musig2SignaturesExchange sessionId signatures =>
    rw [processUnsignedGossipMsg, processSignatures]
    split
    · exact (hdeliver ctx _ _ rfl).bind fun _ _ h => h
    split
    · simp
    split
    · exact hdeliver ctx _ _ rfl
    · trivial

/-- An input leads to at most as many duties for an assignment as it makes the assignment, and to
none if the withdrawal is paid. -/
private theorem serve_fulfills {i : Input} (h : ctx.serve env i = some (ctx', es)) :
    es.countP (fulfills x) ≤
      (ctx.unpaid x.1).toNat * (i.assignments env ctx.cfg.sidesystemParams).count x := by
  cases i with
  | block b => exact (processBlock_fulfills env ctx b x).of_next h
  | message key msg =>
    have hnone := (processP2pMessage_emits (x := x) key msg).of_next h
    exact (countP_fulfills_eq_zero hnone).trans_le (Nat.zero_le _)
  | request req =>
    have hnone : ∀ e ∈ es, e.fulfills x = false := by
      rw [serve] at h
      cases hr : ctx.processP2pRequest env req with
      | ok ctx₁ duty =>
        rw [hr] at h
        cases h
        intro e he
        obtain ⟨d, -, rfl⟩ := mem_map.mp he
        rfl
      | err ctx₁ e =>
        rw [hr] at h
        cases h
        simp
      | panic msg => simp [hr] at h
    exact (countP_fulfills_eq_zero hnone).trans_le (Nat.zero_le _)

/-- An assignment has led to one duty at most, and if to one then an input has made it. -/
private structure ServedOnce (env : Env) (x : Txid × Assignment) (params : RollupParams)
    (es : List Emission) (s : List Input × ContractManagerCtx) : Prop where
  cfg : s.2.cfg.sidesystemParams = params
  le_one : es.countP (fulfills x) ≤ 1
  mem_of_pos : 0 < es.countP (fulfills x) → x ∈ s.1.flatMap (Input.assignments env params)

private theorem ServedOnce.serve {params : RollupParams} {es' : List Emission}
    {history : List Input} {i : Input} (h : ServedOnce env x params es (history, ctx))
    (hfresh : FreshAssignments env (history, ctx) i) (hs : ctx.serve env i = some (ctx', es')) :
    ServedOnce env x params (es ++ es') (history ++ [i], ctx') := by
  have hcount := serve_fulfills (x := x) hs
  obtain rfl := h.cfg
  refine ⟨by rw [serve_cfg hs], ?_, ?_⟩ <;> rw [countP_append]
  · -- a second duty needs an unpaid withdrawal and a repeated assignment
    by_cases hx : ctx.unpaid x.1 = true ∧ x ∈ i.assignments env ctx.cfg.sidesystemParams
    · obtain ⟨hnew, hone⟩ := hfresh x hx.2 hx.1
      have hzero := mt h.mem_of_pos hnew
      rw [hx.1, hone, Bool.toNat_true] at hcount
      omega
    · have hnone : (ctx.unpaid x.1).toNat *
          (i.assignments env ctx.cfg.sidesystemParams).count x = 0 := by
        rw [Nat.mul_eq_zero, count_eq_zero]
        by_cases hunpaid : ctx.unpaid x.1 = true
        · exact .inr fun hmem => hx ⟨hunpaid, hmem⟩
        · exact .inl (by simp [hunpaid])
      have hle := h.le_one
      omega
  · intro hpos
    rw [flatMap_append, mem_append]
    by_cases hold : 0 < es.countP (fulfills x)
    · exact .inl (h.mem_of_pos hold)
    · refine .inr ?_
      rw [flatMap_singleton, ← count_pos_iff]
      refine Nat.pos_of_ne_zero fun hzero => ?_
      rw [hzero] at hcount
      omega

/-- **Every assignment is served at most once.** In a run of the manager under blocks, messages
and requests in which no checkpoint repeats an assignment of a contract that is not fulfilled, at
most one duty is handed out for every assignment of every contract. -/
theorem fulfillment_at_most_once {es : List Emission} {history : List Input}
    (hrun : Run (logged (serve env)) (FreshAssignments env) ([], ctx) es (history, ctx'))
    (x : Txid × Assignment) : es.countP (fulfills x) ≤ 1 := by
  have hinit : ServedOnce env x ctx.cfg.sidesystemParams [] ([], ctx) := ⟨rfl, by simp, by simp⟩
  refine (hrun.invariant (I := ServedOnce env x ctx.cfg.sidesystemParams) hinit ?_).le_one
  rintro es ⟨history, ctx₁⟩ i s' es' hI hG hs
  obtain ⟨⟨ctx₂, es₂⟩, hserve, heq⟩ := Option.map_eq_some_iff.mp hs
  cases heq
  exact hI.serve hG hserve

private def linearAssignment : Txid × Assignment :=
  (depositTxidOf oneOperator 5 0, ⟨0, 0, 2000, ⟨60⟩⟩)

private def linearUntilDeposit : List Input :=
  [exchange 0, block 100 [requestTx oneOperator 5],
    announce 0 (depositTxidOf oneOperator 5 0) 0 40 true,
    block 101 [depositOf oneOperator 5 0]]

/-- One checkpoint after the deposit, and the withdrawal is served once. -/
theorem fulfillment_once_of_one_checkpoint : ∃ es history ctx,
    Run (logged (serve (withCheckpoints (depositTxidOf oneOperator 5 0))))
      (FreshAssignments (withCheckpoints (depositTxidOf oneOperator 5 0)))
      ([], manager oneOperator) es (history, ctx) ∧
    0 < es.countP (fulfills linearAssignment) ∧
    es.countP (fulfills linearAssignment) ≤ 1 := by
  obtain ⟨⟨history, ctx⟩, es, hrun, hpos⟩ := exists_run_of_exec
    (logged (serve (withCheckpoints (depositTxidOf oneOperator 5 0))))
    (FreshAssignments (withCheckpoints (depositTxidOf oneOperator 5 0)))
    ([], manager oneOperator)
    (linearUntilDeposit ++ [block 102 [checkpointTx 1]])
    (fun _ es => 0 < es.countP (fulfills linearAssignment)) (by decide +kernel)
  exact ⟨es, history, ctx, hrun, of_decide_eq_true hpos, fulfillment_at_most_once hrun _⟩

/-- Two checkpoints after the deposit, and the withdrawal is to be served twice. -/
theorem fulfillment_twice_of_two_checkpoints : ∃ es ctx,
    Run (serve (withCheckpoints (depositTxidOf oneOperator 5 0)))
      (fun _ _ => True) (manager oneOperator) es ctx ∧
    es.countP (fulfills linearAssignment) = 2 := by
  exact exists_run_of_decide (linearUntilDeposit ++
    [block 102 [checkpointTx 1], block 103 [checkpointTx 2]])
    (by decide +kernel)

end ContractManagerCtx

end StrataBridge
