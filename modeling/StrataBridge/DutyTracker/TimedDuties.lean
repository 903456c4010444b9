import StrataBridge.DutyTracker.Duties
import StrataBridge.DutyTracker.Recovery

/-!
# Duties that wait for a height

A claim is paid out, defended or aborted by height: the payout of a claim that nobody challenged,
the pre-assert of a challenged one and the payout of a defended one wait for a timelock above a
confirmation, and a request that is not deposited in time is given up at its deadline. The heights
of the confirmations are recorded when they happen, carried through the phases, and compared when
a block comes. This module follows them through whole runs: the confirmation a duty is measured
against is the only one of its kind in the run.

## References

* `crates/duty-tracker/src/contract_state_machine.rs`, lines 2285–2426, 2667–2795, 2959–3036
-/

namespace StrataBridge

open Rust Transition Linear List

variable {ev : ContractEvent} {height : BitcoinBlockHeight} {ds : List OperatorDuty}
  {hist : List (ContractSM × Input)}

variable {s : ContractState} {i : Input}

/-! ### Milestones of a withdrawal -/

/-- A transaction that a timelock starts with: the phase that waits for it, the phases that
remember where it was confirmed, and the phases in which it is still to come. -/
structure Milestone where
  awaited : ContractState → Option Txid
  recorded : ContractState → Option (Txid × BitcoinBlockHeight)
  ahead : ContractState → Bool

namespace Milestone

def claim : Milestone where
  awaited
    | .fulfilled f => some f.activeGraph.2.claimTxid
    | _ => none
  recorded
    | .claimed c | .challenged c => some (c.activeGraph.2.claimTxid, c.claimHeight)
    | _ => none
  ahead
    | .requested _ | .deposited _ | .assigned _ | .fulfilled _ => true
    | _ => false

def postAssert : Milestone where
  awaited
    | .assertDataConfirmed a => some a.activeGraph.2.postAssertTxid
    | _ => none
  recorded
    | .asserted a => some (a.activeGraph.2.postAssertTxid, a.postAssertHeight)
    | _ => none
  ahead
    | .asserted _ | .disproved | .resolved _ | .aborted => false
    | _ => true

/-- A step from `s` to `s'` that takes a confirmation records it, and a step that takes none
leaves what is recorded. -/
structure Kept (m : Milestone) (s s' : ContractState)
    (confirmed : Option (Txid × BitcoinBlockHeight)) : Prop where
  ahead : m.ahead s' = true → m.ahead s = true ∧ confirmed = none
  recorded : ∀ e, m.recorded s' = some e → m.recorded s = some e ∧ confirmed = none ∨
    m.ahead s = true ∧ confirmed = some e

variable {m : Milestone}

theorem kept_refl : m.Kept s s none :=
  ⟨fun h => ⟨h, rfl⟩, fun _ he => .inl ⟨he, rfl⟩⟩

/-- A move from a phase that waits for no confirmation keeps what is recorded. -/
theorem kept_of_advance {env : Env} {table : OperatorTable} {s' : ContractState}
    (hm : m = claim ∨ m = postAssert) (h : s.Advance env table s') (hs : m.awaited s = none) :
    m.Kept s s' none := by
  rcases hm with rfl | rfl <;> cases h with
  | stay => exact kept_refl
  | assign a hd =>
    refine ⟨fun _ => ⟨?_, rfl⟩, nofun⟩
    obtain rfl | ⟨a', rfl, -⟩ := hd <;> rfl
  | preAssert c hc => obtain rfl | rfl := hc <;> exact ⟨by simp [claim, postAssert], nofun⟩
  | _ => constructor <;> simp_all [claim, postAssert]

end Milestone

/-! ### What a run has seen -/

def OperatorDuty.waits : OperatorDuty → Bool
  | .abort | .fulfillerDuty (.publishPayoutOptimistic ..)
  | .fulfillerDuty (.publishPreAssert ..) | .fulfillerDuty (.publishPayout ..) => true
  | _ => false

theorem ContractEvent.eq_block_of_mayEmit {d : OperatorDuty} (h : ev.MayEmit d)
    (hd : d.waits = true) : ∃ height, ev = .block height := by
  unfold ContractEvent.MayEmit at h
  split at h
  all_goals first | exact ⟨_, rfl⟩ | cases hd | cases h

namespace ContractSM

variable {env : Env} {sm sm' : ContractSM}

def confirmation (env : Env) (m : Milestone) (sm : ContractSM) :
    Input → Option (Txid × BitcoinBlockHeight)
  | .event (.pegOutGraphConfirmation tx height) =>
    match sm.processContractEvent env (.pegOutGraphConfirmation tx height) with
    | .ok _ _ =>
      if m.awaited sm.state.state = some (env.computeTxid tx) then
        some (env.computeTxid tx, height)
      else none
    | _ => none
  | _ => none

def heightTaken : ContractSM.Reply → Bool
  | .err _ (.unexpectedBlock _ _) => false
  | _ => true

/-- A contract takes a block unless it answers that it expects another height. -/
def takesBlock (env : Env) (sm : ContractSM) (height : BitcoinBlockHeight) : Bool :=
  heightTaken (sm.processContractEvent env (.block height))

def takenHeight (env : Env) (sm : ContractSM) : Input → Option BitcoinBlockHeight
  | .event (.block height) => if sm.takesBlock env height then some height else none
  | _ => none

abbrev History (env : Env) (sm₀ : ContractSM) : List (ContractSM × Input) → ContractSM → Prop :=
  Run (traced (serve env)) (fun _ _ => True) sm₀

/-- The transactions of a kind that were confirmed in a run, with their heights. -/
def confirmations (env : Env) (m : Milestone) (hist : List (ContractSM × Input)) :
    List (Txid × BitcoinBlockHeight) :=
  hist.filterMap fun e => e.1.confirmation env m e.2

def takenHeights (env : Env) (hist : List (ContractSM × Input)) : List BitcoinBlockHeight :=
  hist.filterMap fun e => e.1.takenHeight env e.2

/-! ### Heights -/

theorem takesBlock_iff : sm.takesBlock env height = true ↔ sm.state.blockHeight + 1 = height := by
  refine sm.of_reaction env (P := fun o => heightTaken o = true ↔ _) fun o ho => ?_
  cases ho with
  | rejects hev => exact absurd rfl (hev height)
  | passes hev | requested _ hev => cases hev
  | rejectsBlock hheight => exact iff_of_false Bool.false_ne_true hheight
  | takes hheight | takesLate hheight | aborts hheight | claimMatures hheight
  | challengeMatures hheight | assertionMatures hheight => exact iff_of_true rfl hheight

theorem serve_blockHeight (h : sm.serve env i = some (sm', ds)) :
    sm.takenHeight env i = none ∧ sm'.state.blockHeight = sm.state.blockHeight ∨
      sm.takenHeight env i = some (sm.state.blockHeight + 1) ∧
        sm'.state.blockHeight = sm.state.blockHeight + 1 := by
  cases i with
  | event ev =>
    cases ev with
    | block height =>
      refine Outcome.Leaves.of_next (P := fun sm' => _ ∧ sm'.state.blockHeight = _ ∨
        _ ∧ sm'.state.blockHeight = _) (sm.of_reaction env fun o ho => ?_) h
      rw [takenHeight]
      cases ho with
      | rejects hev => exact absurd rfl (hev height)
      | passes hev | requested _ hev => cases hev
      | rejectsBlock hheight => exact .inl ⟨if_neg (mt takesBlock_iff.mp hheight), rfl⟩
      | takes hheight | takesLate hheight | aborts hheight | claimMatures hheight
      | challengeMatures hheight | assertionMatures hheight =>
        rw [if_pos (takesBlock_iff.mpr hheight), hheight]
        exact .inr ⟨rfl, rfl⟩
    | _ => exact .inl ⟨rfl, (keepsHeight_of_not_block (by simp)).of_next h⟩
  | _ => exact .inl ⟨rfl, by rw [(serve_request h (by simp)).1]⟩

theorem History.takenHeights_eq {sm₀ : ContractSM} (h : History env sm₀ hist sm) :
    ∃ n, sm.state.blockHeight = sm₀.state.blockHeight + n ∧
      takenHeights env hist = range' (sm₀.state.blockHeight + 1) n := by
  refine h.invariant (I := fun hist sm => ∃ n,
    sm.state.blockHeight = sm₀.state.blockHeight + n ∧
      takenHeights env hist = range' (sm₀.state.blockHeight + 1) n)
    ⟨0, rfl, rfl⟩ fun hist sm i sm' os hI _ hs => ?_
  obtain ⟨n, hheight, htaken⟩ := hI
  obtain ⟨⟨sm₁, ds⟩, hserve, heq⟩ := Option.map_eq_some_iff.mp hs
  cases heq
  rcases serve_blockHeight hserve with ⟨hnone, hsame⟩ | ⟨hsome, hnext⟩
  · exact ⟨n, hsame.trans hheight, by simpa [takenHeights, hnone] using htaken⟩
  · refine ⟨n + 1, by rw [hnext, hheight]; rfl, ?_⟩
    rw [takenHeights] at htaken
    rw [takenHeights, filterMap_append, htaken, range'_concat]
    simp [hsome, hheight, Nat.add_right_comm]

/-! ### Confirmations -/

variable {m : Milestone}

theorem confirmation_eq_none (h : m.awaited sm.state.state = none) :
    sm.confirmation env m i = none := by
  cases i with
  | event ev =>
    cases ev with
    | pegOutGraphConfirmation tx height =>
      rw [confirmation]
      split
      · simp [h]
      · rfl
    | _ => rfl
  | _ => rfl

/-- In a phase that waits for a confirmation, an event either leaves the phase or is that
confirmation. -/
theorem step_of_awaited {txid : Txid} (hm : m = .claim ∨ m = .postAssert)
    (hs : m.awaited sm.state.state = some txid) (h : sm.step env ev = some (sm', ds)) :
    sm'.state.state = sm.state.state ∧ sm.confirmation env m (.event ev) = none ∨
      ∃ height, sm.confirmation env m (.event ev) = some (txid, height) ∧
        m.recorded sm'.state.state = some (txid, height) ∧ m.ahead sm'.state.state = false := by
  have hphase : (∃ w, sm.state.state.withdrawal = some w) ∧ ∀ a, sm.state.state ≠ .assigned a := by
    rcases hm with rfl | rfl <;> cases hstate : sm.state.state <;>
      simp_all [Milestone.claim, Milestone.postAssert, ContractState.withdrawal]
  cases ev with
  | pegOutGraphConfirmation tx height =>
    have ho := sm.reaction env (.pegOutGraphConfirmation tx height)
    rw [step] at h
    rw [confirmation]
    generalize sm.processContractEvent env (.pegOutGraphConfirmation tx height) = o at h ho ⊢
    cases ho with
    | rejects =>
      cases h
      exact .inl ⟨rfl, rfl⟩
    | confirmationPanics => cases h
    | @claims _ _ _ w' hs' htx hw _ hheight | @postAsserts _ _ _ w' hs' htx hw _ hheight =>
      have hgraph : w'.activeGraph = _ := congrArg Withdrawal.activeGraph (Option.some.inj hw)
      rw [hs'] at hs
      rcases hm with rfl | rfl <;> cases hs
      cases h
      refine .inr ⟨height, ?_, ?_, rfl⟩
      · simp [Milestone.claim, Milestone.postAssert, hs', htx]
      · simp [Milestone.claim, Milestone.postAssert, hheight, hgraph]
    | passes hev | requested _ hev => cases hev
    | preAsserts hs' =>
      rcases hs' with hs' | hs' <;> rw [hs'] at hs <;> rcases hm with rfl | rfl <;> cases hs
    | passesPayment hs' | fulfills hs' | challenges hs' | collects hs' | collectsLate hs'
    | collectsLast hs' | disproves hs' | paysOptimistic hs' | pays hs' =>
      rw [hs'] at hs
      rcases hm with rfl | rfl <;> cases hs
  | _ =>
    obtain ⟨⟨w, hw⟩, hassigned⟩ := hphase
    exact .inl ⟨(keepsState_of_not_confirmation (by simp) hw hassigned).of_next h, rfl⟩

theorem step_kept (hm : m = .claim ∨ m = .postAssert) (h : sm.step env ev = some (sm', ds)) :
    m.Kept sm.state.state sm'.state.state (sm.confirmation env m (.event ev)) := by
  cases hs : m.awaited sm.state.state with
  | none =>
    rw [confirmation_eq_none hs]
    exact Milestone.kept_of_advance hm (advance_of_step h) hs
  | some txid =>
    have hahead : m.ahead sm.state.state = true := by
      rcases hm with rfl | rfl <;> cases hphase : sm.state.state <;>
        simp_all [Milestone.claim, Milestone.postAssert]
    rcases step_of_awaited hm hs h with ⟨hs', hnone⟩ | ⟨height, hsome, hrecorded, hpast⟩
    · rw [hs', hnone]
      exact Milestone.kept_refl
    · rw [hsome]
      exact ⟨fun h => by simp [hpast] at h, fun e he => .inr ⟨hahead, hrecorded.symm.trans he⟩⟩

/-- What the confirmations of a run so far say of a milestone: none while it is still to come,
and the one that is recorded in the phases that record it. -/
structure Logs (env : Env) (m : Milestone) (hist : List (ContractSM × Input))
    (sm : ContractSM) : Prop where
  ahead : m.ahead sm.state.state = true → confirmations env m hist = []
  recorded : ∀ e, m.recorded sm.state.state = some e → confirmations env m hist = [e]

theorem confirmations_snoc (i : Input) : confirmations env m (hist ++ [(sm, i)]) =
    confirmations env m hist ++ (sm.confirmation env m i).toList := by
  rw [confirmations, confirmations]
  cases hc : sm.confirmation env m i <;> simp [hc]

private theorem Logs.snoc (h : Logs env m hist sm)
    (hkept : m.Kept sm.state.state sm'.state.state (sm.confirmation env m i)) :
    Logs env m (hist ++ [(sm, i)]) sm' := by
  constructor
  · intro hahead
    obtain ⟨hbefore, hnone⟩ := hkept.ahead hahead
    rw [confirmations_snoc, h.ahead hbefore, hnone]
    rfl
  · intro e he
    rcases hkept.recorded e he with ⟨hbefore, hnone⟩ | ⟨hbefore, hsome⟩
    · rw [confirmations_snoc, h.recorded e hbefore, hnone]
      rfl
    · rw [confirmations_snoc, h.ahead hbefore, hsome]
      rfl

variable {deadline : BitcoinBlockHeight} {cfg : ContractCfg}

private theorem History.logs (hm : m = .claim ∨ m = .postAssert)
    (hnew : m.recorded (ContractSM.new cfg height deadline).state.state = none)
    (h : History env (.new cfg height deadline) hist sm) : Logs env m hist sm := by
  refine h.invariant (I := Logs env m) ⟨fun _ => rfl, fun e he => ?_⟩
    fun hist sm i sm' os hI _ hs => ?_
  · rw [hnew] at he
    cases he
  · obtain ⟨⟨sm₁, ds⟩, hserve, heq⟩ := Option.map_eq_some_iff.mp hs
    cases heq
    refine hI.snoc ?_
    cases i with
    | event ev => exact step_kept hm hserve
    | _ =>
      rw [(serve_request hserve (by simp)).1]
      exact Milestone.kept_refl

/-! ### Duties -/

/-- The conditions in which a contract leads to the duties that wait for a height. -/
def Due (sm : ContractSM) (height : BitcoinBlockHeight) : OperatorDuty → Prop
  | .abort => ∃ r, sm.state.state = .requested r ∧ r.abortDeadline ≤ height
  | .fulfillerDuty (.publishPayoutOptimistic ..) => ∃ c, sm.state.state = .claimed c ∧
      c.claimHeight + sm.cfg.connectorParams.payoutOptimisticTimelock ≤ height
  | .fulfillerDuty (.publishPreAssert ..) => ∃ c, sm.state.state = .challenged c ∧
      c.claimHeight + sm.cfg.connectorParams.preAssertTimelock ≤ height
  | .fulfillerDuty (.publishPayout ..) => ∃ a, sm.state.state = .asserted a ∧
      a.postAssertHeight + sm.cfg.connectorParams.payoutTimelock ≤ height
  | _ => True

private theorem block_due (env : Env) (sm : ContractSM) (height : BitcoinBlockHeight) :
    (sm.processContractEvent env (.block height)).Emits fun d =>
      sm.takesBlock env height = true ∧ sm.Due height d := by
  have hone {sm' : ContractSM} {d : OperatorDuty} (hheight : sm.state.blockHeight + 1 = height)
      (h : sm.Due height d) : (Outcome.ok sm' [d] : Outcome ContractSM TransitionErr _).Emits
        fun d => sm.takesBlock env height = true ∧ sm.Due height d := by
    simpa using ⟨takesBlock_iff.mpr hheight, h⟩
  refine sm.of_reaction env fun o ho => ?_
  cases ho with
  | aborts hheight hs hdue => exact hone hheight ⟨_, hs, hdue⟩
  | claimMatures hheight hs hdue | challengeMatures hheight hs hdue
  | assertionMatures hheight hs hdue => exact hone hheight ⟨_, hs, hdue⟩
  | requested _ h => cases h
  | _ => simp

private theorem due_of_serve {d : OperatorDuty} (h : sm.serve env i = some (sm', ds))
    (hd : d ∈ ds) (hwaits : d.waits = true) :
    ∃ height, i = .event (.block height) ∧ sm.takesBlock env height = true ∧ sm.Due height d := by
  have hblock : ∃ height, i = .event (.block height) := by
    have hemit := serve_emits h d hd
    cases i with
    | event ev =>
      obtain ⟨height, rfl⟩ := ContractEvent.eq_block_of_mayEmit hemit hwaits
      exact ⟨height, rfl⟩
    | _ => cases d <;> first | exact False.elim hemit | cases hwaits
  obtain ⟨height, rfl⟩ := hblock
  exact ⟨height, rfl, (block_due env sm height).of_next h d hd⟩

private theorem abort_mem_of_block {r : Requested}
    (h : sm.serve env (.event (.block height)) = some (sm', ds))
    (htakes : sm.takesBlock env height = true) (hs : sm.state.state = .requested r)
    (hdue : r.abortDeadline ≤ height) : .abort ∈ ds := by
  have hset : (sm.setHeight height).state.state = .requested r := hs
  have hheight : (sm.setHeight height).state.blockHeight = height := rfl
  rw [serve, step, processContractEvent, notifyNewBlock, if_pos (takesBlock_iff.mp htakes),
    atNewHeight, hset] at h
  dsimp only at h
  rw [hheight, if_pos hdue] at h
  cases h
  exact mem_singleton_self _

/-! ### Runs -/

private theorem History.cfg_deadline (h : History env (.new cfg height deadline) hist sm) :
    sm.cfg = cfg ∧ ∀ r, sm.state.state = .requested r → r.abortDeadline = deadline := by
  refine h.invariant (I := fun _ sm => sm.cfg = cfg ∧
    ∀ r, sm.state.state = .requested r → r.abortDeadline = deadline) ⟨rfl, fun r hr => ?_⟩
    fun _ sm i sm' _ hI _ hs => ?_
  · cases hr
    rfl
  · obtain ⟨⟨sm₁, ds⟩, hserve, heq⟩ := Option.map_eq_some_iff.mp hs
    cases heq
    refine ⟨(serve_cfg hserve).trans hI.1, ?_⟩
    cases i with
    | event ev =>
      refine requested_invariant (Q := fun r _ => r.abortDeadline = deadline) hserve hI.2 ?_
      intro r o _ hr ho
      exact (Requested.process_fixed ho).mono fun p hp => hp.2.trans hr
    | _ =>
      rw [(serve_request hserve (by simp)).1]
      exact hI.2

/-- **Duties wait for their timelocks.** Whatever a contract has been asked so far, and whatever
comes next: an optimistic payout is only due to a block in the claimed phase, a pre-assert only
to one in the challenged phase, each by its timelock above the height at which the one claim of
the run was confirmed; a payout is only due to a block in the asserted phase, by its timelock
above the height at which the post-assert transaction was confirmed; a contract aborts exactly
when it takes a block from the deadline on while it is still requested; and the blocks that it
takes follow one another. -/
theorem timelocked_duties (hrun : History env (.new cfg height deadline) hist sm)
    (hserve : sm.serve env i = some (sm', ds)) :
    (∀ depositTxid claimTxid stakeTxid stakeIndex aggSigs,
      .fulfillerDuty (.publishPayoutOptimistic depositTxid claimTxid stakeTxid stakeIndex
        aggSigs) ∈ ds →
      ∃ h c claimHeight, i = .event (.block h) ∧ sm.state.state = .claimed c ∧
        confirmations env .claim hist = [(c.activeGraph.2.claimTxid, claimHeight)] ∧
        claimHeight + cfg.connectorParams.payoutOptimisticTimelock ≤ h) ∧
    (∀ depositIdx depositTxid claimTxid aggSig,
      .fulfillerDuty (.publishPreAssert depositIdx depositTxid claimTxid aggSig) ∈ ds →
      ∃ h c claimHeight, i = .event (.block h) ∧ sm.state.state = .challenged c ∧
        confirmations env .claim hist = [(c.activeGraph.2.claimTxid, claimHeight)] ∧
        claimHeight + cfg.connectorParams.preAssertTimelock ≤ h) ∧
    (∀ depositIdx depositTxid postAssertTxid claimTxid stakeTxid aggSigs,
      .fulfillerDuty (.publishPayout depositIdx depositTxid postAssertTxid claimTxid stakeTxid
        aggSigs) ∈ ds →
      ∃ h a postAssertHeight, i = .event (.block h) ∧ sm.state.state = .asserted a ∧
        confirmations env .postAssert hist = [(a.activeGraph.2.postAssertTxid, postAssertHeight)] ∧
        postAssertHeight + cfg.connectorParams.payoutTimelock ≤ h) ∧
    (.abort ∈ ds ↔ ∃ h r, i = .event (.block h) ∧ sm.takesBlock env h = true ∧
      sm.state.state = .requested r ∧ deadline ≤ h) ∧
    ∃ n, takenHeights env hist = range' (height + 1) n := by
  obtain ⟨hcfg, hdeadline⟩ := hrun.cfg_deadline
  have hclaim : Logs env .claim hist sm :=
    hrun.logs (.inl rfl) rfl
  have hpostAssert : Logs env .postAssert hist sm :=
    hrun.logs (.inr rfl) rfl
  refine ⟨?_, ?_, ?_, ⟨fun habort => ?_, ?_⟩, ?_⟩
  · intro _ _ _ _ _ hd
    obtain ⟨h, hi, -, c, hs, hdue⟩ := due_of_serve hserve hd rfl
    rw [hcfg] at hdue
    exact ⟨h, c, c.claimHeight, hi, hs, hclaim.recorded _ (by rw [hs]; rfl), hdue⟩
  · intro _ _ _ _ hd
    obtain ⟨h, hi, -, c, hs, hdue⟩ := due_of_serve hserve hd rfl
    rw [hcfg] at hdue
    exact ⟨h, c, c.claimHeight, hi, hs, hclaim.recorded _ (by rw [hs]; rfl), hdue⟩
  · intro _ _ _ _ _ _ hd
    obtain ⟨h, hi, -, a, hs, hdue⟩ := due_of_serve hserve hd rfl
    rw [hcfg] at hdue
    exact ⟨h, a, a.postAssertHeight, hi, hs, hpostAssert.recorded _ (by rw [hs]; rfl), hdue⟩
  · obtain ⟨h, hi, htakes, r, hs, hdue⟩ := due_of_serve hserve habort rfl
    rw [hdeadline r hs] at hdue
    exact ⟨h, r, hi, htakes, hs, hdue⟩
  · rintro ⟨h, r, rfl, htakes, hs, hdue⟩
    rw [← hdeadline r hs] at hdue
    exact abort_mem_of_block hserve htakes hs hdue
  · obtain ⟨n, -, htaken⟩ := hrun.takenHeights_eq
    exact ⟨n, htaken⟩

private def isPayoutOptimistic : List OperatorDuty → Bool
  | [.fulfillerDuty (.publishPayoutOptimistic ..)] => true
  | _ => false

/-- The claim of a signed withdrawal is confirmed at height 102, and its timelock of one block is
over at height 103. -/
theorem payout_optimistic_waits_for_claim : ∃ hist sm sm' ds c claimHeight,
    History plain (contract oneOperator) hist sm ∧
    sm.serve plain (.event (.block 103)) = some (sm', ds) ∧ ds.length = 1 ∧
    sm.state.state = .claimed c ∧
    confirmations plain .claim hist = [(c.activeGraph.2.claimTxid, claimHeight)] ∧
    claimHeight + 1 ≤ 103 := by
  obtain ⟨sm, hist, hrun, h⟩ := exists_run_of_exec (traced (serve plain))
    (fun _ _ => True) (contract oneOperator)
    [.event (setup 0 2), .event (nonces 0 (Linear.claimTxid 0 2 1) 1),
      .event (sigs oneOperator [1] 0 (graph 0 2 1)),
      .event (.depositConfirmation (depositTx 1).tx.unsignedTx),
      .event (assignment 0 0 1), .event (.block 101),
      .event (.pegOutGraphConfirmation (fulfillment 0 0 1) 101), .event (.block 102),
      .event (.pegOutGraphConfirmation (confirmedClaim 0 2 1) 102)]
    (fun sm _ => (sm.serve plain (.event (.block 103))).any fun r => isPayoutOptimistic r.2)
    (by decide +kernel)
  obtain ⟨⟨sm', ds⟩, hserve, h⟩ := (Option.any_eq_true _ _).mp h
  unfold isPayoutOptimistic at h
  split at h
  next depositTxid claimTxid stakeTxid stakeIndex aggSigs hds =>
    obtain rfl : ds = _ := hds
    obtain ⟨hpayout, -⟩ := timelocked_duties hrun hserve
    obtain ⟨_, c, claimHeight, hi, hs, hclaim, hdue⟩ :=
      hpayout _ _ _ _ _ (mem_singleton_self _)
    cases hi
    exact ⟨hist, sm, sm', _, c, claimHeight, hrun, hserve, rfl, hs, hclaim, hdue⟩
  next => cases h

end ContractSM

end StrataBridge
