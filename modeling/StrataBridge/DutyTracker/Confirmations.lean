import StrataBridge.DutyTracker.Delivery
import StrataBridge.DutyTracker.Recognition

/-!
# What confirmations do to a contract

The block loop shows a contract only the transactions that pass its filter. The filter is made from
the graphs of all operators, the handlers look at the graph of the assigned one; since that graph
is among the graphs of the contract in every phase, nothing that would change the contract is held
back.

Between the pre-assert and the post-assert a contract collects the assert-data transactions, keyed
by their identifiers. What it holds is what was confirmed of them, in any order and however often;
when the last one arrives the collection ends, unless the node itself is to publish the post-assert
and does not have the signatures for it.

## Main results

* `ContractSM.transactionFilter_of_changed`: what changes a contract passes its filter
* `ContractSM.assertData_collected`: what a contract has collected

## References

* `crates/duty-tracker/src/contract_state_machine.rs`, lines 727–751, 1353–1386, 1557–1616,
  2793–3007
-/

namespace StrataBridge

open Rust Transition BTreeMap List

variable {env : Env} {sm : ContractSM} {cfg : ContractCfg} {height deadline : BitcoinBlockHeight}

variable {tx : Transaction}

namespace ContractSM

/-! ### The filter is complete -/

section Filter

theorem inGraph_iff {g : PegOutGraphSummary} :
    sm.inGraph env g tx = true ↔
      sm.depositTxid env = env.computeTxid tx ∨ env.computeTxid tx = g.claimTxid ∨
      env.computeTxid tx = g.payoutOptimisticTxid ∨ env.computeTxid tx = g.preAssertTxid ∨
      env.computeTxid tx ∈ g.assertDataTxids ∨ env.computeTxid tx = g.postAssertTxid ∨
      env.computeTxid tx = g.payoutTxid ∨ isChallenge g.claimTxid tx = true ∨
      isDisprove g.postAssertTxid tx = true := by
  simp [inGraph, or_assoc, eq_comm (b := env.computeTxid tx)]

private theorem transactionFilter_of_assigned {a : Assigned}
    (hr : Reachable env (.new cfg height deadline) sm) (hs : sm.state.state = .assigned a)
    (htx : isFulfillmentTx env sm.cfg.network sm.cfg.pegOutGraphParams a.fulfiller
      sm.cfg.depositIdx (sm.depositTxid env) a.recipient tx = true) :
    sm.transactionFilter env tx = true := by
  have hcfg : sm.cfg = cfg := hr.invariant (P := fun sm => sm.cfg = cfg) rfl
    fun _ _ _ _ hsm hstep => (cfg_of_step hstep).trans hsm
  obtain ⟨k, -, hk, -, -⟩ := hr.activeOf (w := ⟨a.toGraphData, a.fulfiller, a.activeGraph,
    a.withdrawalRequestTxid⟩) (by rw [hs]; rfl)
  have hidx : a.fulfiller ∈ sm.cfg.operatorTable.operatorIdxs := by
    obtain ⟨e, he, -⟩ := Option.map_eq_some_iff.mp hk
    rw [hcfg]
    exact Std.ExtTreeMap.mem_keys.mpr (mem_iff_exists.mpr ⟨e, he⟩)
  rw [transactionFilter, isAnyFulfillment, hs, Bool.or_eq_true]
  exact .inl (any_eq_true.mpr ⟨_, hidx, htx⟩)

/-- **The filter is complete.** In every contract that can be reached, a confirmation that changes
the contract, whether it is accepted or rejected, is that of a transaction that passes the filter.
So the block loop holds back nothing that the contract would act on. -/
theorem transactionFilter_of_changed (hr : Reachable env (.new cfg height deadline) sm)
    (tx : Transaction) (confirmedAt : BitcoinBlockHeight) {sm' : ContractSM}
    {duties : List OperatorDuty}
    (hstep : sm.step env (.pegOutGraphConfirmation tx confirmedAt) = some (sm', duties))
    (hchanged : sm' ≠ sm) : sm.transactionFilter env tx = true := by
  have hor : sm' = sm ∨ sm.transactionFilter env tx = true := by
    refine Outcome.Leaves.of_next (P := fun sm' => sm' = sm ∨ sm.transactionFilter env tx = true)
      (sm.of_reaction env fun o ho => ?_) hstep
    have hactive {w : Withdrawal} (hw : sm.state.state.withdrawal = some w)
        (h : sm.inGraph env w.activeGraph.2 tx = true) : sm.transactionFilter env tx = true :=
      transactionFilter_of_active hr hw h
    cases ho with
    | rejects | passesPayment => exact .inl rfl
    | passes hev | requested _ hev => cases hev
    | confirmationPanics => trivial
    | fulfills hs htx => exact .inr (transactionFilter_of_assigned hr hs htx)
    | preAsserts hs htx =>
      rcases hs with hs | hs <;>
        exact .inr (hactive (by rw [hs]; rfl) (by simp [inGraph_iff, htx]))
    | claims hs htx | challenges hs htx | collects hs htx | collectsLate hs htx
    | collectsLast hs htx | postAsserts hs htx | disproves hs htx | paysOptimistic hs htx
    | pays hs htx => exact .inr (hactive (by rw [hs]; rfl) (by simp [inGraph_iff, htx]))
  exact hor.resolve_left hchanged

/-- The payment of the assigned operator changes the contract, and passes the filter. -/
theorem fulfillment_changes_and_passes : ∃ sm sm' duties,
    Reachable Linear.plain (.new (Linear.cfg Linear.oneOperator 0 1) 100 1100) sm ∧
    sm.step Linear.plain (.pegOutGraphConfirmation (Linear.fulfillment 0 0 1) 101) =
      some (sm', duties) ∧
    sm' ≠ sm ∧ sm.transactionFilter Linear.plain (Linear.fulfillment 0 0 1) = true := by
  obtain ⟨sm, hr, h⟩ := exists_reachable Linear.plain
    (.new (Linear.cfg Linear.oneOperator 0 1) 100 1100)
    [Linear.setup 0 2, .depositConfirmation (Linear.depositTx 1).tx.unsignedTx,
      Linear.assignment 0 0 1]
    (fun sm => (sm.step Linear.plain
      (.pegOutGraphConfirmation (Linear.fulfillment 0 0 1) 101)).any fun r =>
        r.1.phase ≠ sm.phase)
    (by decide +kernel)
  obtain ⟨⟨sm', duties⟩, hstep, hphase⟩ := (Option.any_eq_true _ _).mp h
  have hchanged : sm' ≠ sm := by
    rintro rfl
    exact of_decide_eq_true hphase rfl
  exact ⟨sm, sm', duties, hr, hstep, hchanged,
    transactionFilter_of_changed hr (Linear.fulfillment 0 0 1) 101 hstep hchanged⟩

end Filter

end ContractSM

/-! ### The collection of the assert-data transactions -/

def ContractEvent.confirmed (env : Env) : ContractEvent → Option Txid
  | .pegOutGraphConfirmation tx _ => some (env.computeTxid tx)
  | _ => none

def ContractState.signedAssertDataTxs : ContractState → BTreeMap Txid Transaction
  | .preAssertConfirmed p => p.signedAssertDataTxs
  | .assertDataConfirmed a => a.signedAssertDataTxs
  | _ => ∅

namespace PreAssertConfirmed

def next (env : Env) (isPov : Bool) (p : PreAssertConfirmed) : ContractEvent → ContractState
  | .pegOutGraphConfirmation tx _ =>
    if env.computeTxid tx ∈ p.activeGraph.2.assertDataTxids then
      let p' := p.collect (env.computeTxid tx) tx
      if p'.signedAssertDataTxs.size < numAssertDataTx ∨
          isPov = true ∧ p.activeGraph.2.claimTxid ∉ p.graphSigs then .preAssertConfirmed p'
      else .assertDataConfirmed p'.assertDataConfirmed
    else .preAssertConfirmed p
  | _ => .preAssertConfirmed p

end PreAssertConfirmed

namespace ContractSM

section Collection

variable {sm' : ContractSM} {p : PreAssertConfirmed}

private theorem afterCollecting_state :
    (sm.afterCollecting env (p.collect (env.computeTxid tx) tx)).Leaves fun sm' =>
      sm'.state.state =
        if (p.collect (env.computeTxid tx) tx).signedAssertDataTxs.size < numAssertDataTx ∨
          sm.isPov p.fulfiller = true ∧ p.activeGraph.2.claimTxid ∉ p.graphSigs then
          .preAssertConfirmed (p.collect (env.computeTxid tx) tx)
        else .assertDataConfirmed (p.collect (env.computeTxid tx) tx).assertDataConfirmed := by
  by_cases hlt : (p.collect (env.computeTxid tx) tx).signedAssertDataTxs.size < numAssertDataTx
  · rw [afterCollecting, if_pos hlt, if_pos (Or.inl hlt)]
    rfl
  · rw [afterCollecting, if_neg hlt, p.collect_fulfiller, p.collect_graphSigs,
      p.collect_activeGraph]
    by_cases hme : sm.isPov p.fulfiller = true
    · rw [if_pos hme]
      cases hsome : p.graphSigs[p.activeGraph.2.claimTxid]? with
      | none =>
        rw [if_pos (Or.inr ⟨hme, notMem_iff.mpr hsome⟩)]
        rfl
      | some sigs =>
        have hmem := mem_iff_exists.mpr ⟨sigs, hsome⟩
        rw [if_neg (by simp [hlt, hmem])]
        rfl
    · rw [if_neg hme, if_neg (by simp [hlt, hme])]
      rfl

/-- **One event during the collection.** -/
theorem step_collecting {ev : ContractEvent} {duties : List OperatorDuty}
    (hs : sm.state.state = .preAssertConfirmed p) (h : sm.step env ev = some (sm', duties)) :
    sm'.state.state = p.next env (sm.isPov p.fulfiller) ev := by
  cases ev with
  | pegOutGraphConfirmation tx height =>
    refine Outcome.Leaves.of_next (P := fun sm' => sm'.state.state = p.next env
      (sm.isPov p.fulfiller) (.pegOutGraphConfirmation tx height)) ?_ h
    simp only [processContractEvent, processPegOutGraphTxConfirmation, hs,
      processAssertDataConfirmation, PreAssertConfirmed.next]
    split
    · exact afterCollecting_state
    · exact hs
  | _ =>
    exact ((keepsState_of_not_confirmation (by simp) (by rw [hs]; rfl) (by simp [hs])).of_next
      h).trans hs

variable {isPov : Bool} {ev : ContractEvent}

/-- An event that does not end the collection enters the transaction it confirms, if it is one of
the assert-data transactions, and changes nothing else. -/
private structure Enters (env : Env) (isPov : Bool) (p p' : PreAssertConfirmed)
    (ev : ContractEvent) : Prop where
  same : p' = { p with signedAssertDataTxs := p'.signedAssertDataTxs }
  mem_iff (txid : Txid) : txid ∈ p'.signedAssertDataTxs ↔ txid ∈ p.signedAssertDataTxs ∨
    txid ∈ p.activeGraph.2.assertDataTxids ∧ ev.confirmed env = some txid
  lt (hsigs : isPov = true → p.activeGraph.2.claimTxid ∈ p.graphSigs)
    (h : p.signedAssertDataTxs.size < numAssertDataTx) :
    p'.signedAssertDataTxs.size < numAssertDataTx

theorem enters_of_next {p' : PreAssertConfirmed}
    (h : p.next env isPov ev = .preAssertConfirmed p') : Enters env isPov p p' ev := by
  have hstay (hne : ∀ txid ∈ p.activeGraph.2.assertDataTxids, ev.confirmed env ≠ some txid)
      (heq : ContractState.preAssertConfirmed p = .preAssertConfirmed p') :
      Enters env isPov p p' ev := by
    cases heq
    refine ⟨rfl, fun txid => ⟨.inl, ?_⟩, fun _ hlt => hlt⟩
    rintro (hmem | ⟨hmem, hev⟩)
    · exact hmem
    · exact absurd hev (hne txid hmem)
  cases ev with
  | pegOutGraphConfirmation tx height =>
    rw [PreAssertConfirmed.next] at h
    split at h
    next htx =>
      dsimp only at h
      split at h
      next hcond =>
        cases h
        refine ⟨rfl, fun txid => ?_, fun hsigs _ => ?_⟩
        · rw [PreAssertConfirmed.collect, mem_insert, ContractEvent.confirmed, Option.some.injEq]
          constructor
          · rintro (rfl | hmem)
            · exact .inr ⟨htx, rfl⟩
            · exact .inl hmem
          · rintro (hmem | ⟨-, rfl⟩)
            · exact .inr hmem
            · exact .inl rfl
        · exact hcond.resolve_right fun hlacks => hlacks.2 (hsigs hlacks.1)
      next => cases h
    next htx =>
      refine hstay (fun txid hmem heq => ?_) h
      rw [← Option.some.inj heq] at hmem
      exact htx hmem
  | _ => exact hstay (fun _ _ => by simp [ContractEvent.confirmed]) h

private theorem next_collected_iff :
    (∃ a, p.next env isPov ev = .assertDataConfirmed a) ↔
      (∃ tx height, ev = .pegOutGraphConfirmation tx height ∧
        env.computeTxid tx ∈ p.activeGraph.2.assertDataTxids ∧
        numAssertDataTx ≤ (p.signedAssertDataTxs.insert (env.computeTxid tx) tx).size) ∧
      (isPov = true → p.activeGraph.2.claimTxid ∈ p.graphSigs) := by
  cases ev with
  | pegOutGraphConfirmation tx height =>
    rw [PreAssertConfirmed.next]
    split
    next htx =>
      dsimp only
      split
      next hcond =>
        refine iff_of_false (by simp) ?_
        rintro ⟨⟨_, _, ⟨⟩, -, hsize⟩, hsigs⟩
        rcases hcond with hlt | ⟨hpov, hlacks⟩
        · exact absurd hsize (Nat.not_le.mpr hlt)
        · exact hlacks (hsigs hpov)
      next hcond =>
        rw [not_or, not_and_not_right, Nat.not_lt] at hcond
        exact iff_of_true ⟨_, rfl⟩ ⟨⟨tx, height, rfl, htx, hcond.1⟩, hcond.2⟩
    next htx =>
      refine iff_of_false (by simp) ?_
      rintro ⟨⟨_, _, ⟨⟩, hmem, -⟩, -⟩
      exact htx hmem
  | _ =>
    refine iff_of_false (by simp [PreAssertConfirmed.next]) ?_
    rintro ⟨⟨_, _, ⟨⟩, -⟩, -⟩

/-- A fulfiller without signatures goes on collecting. -/
private theorem next_collecting (hpov : isPov = true)
    (hlacks : p.activeGraph.2.claimTxid ∉ p.graphSigs) :
    ∃ p', p.next env isPov ev = .preAssertConfirmed p' := by
  cases ev with
  | pegOutGraphConfirmation tx height =>
    rw [PreAssertConfirmed.next]
    split
    · exact ⟨_, if_pos (.inr ⟨hpov, hlacks⟩)⟩
    · exact ⟨p, rfl⟩
  | _ => exact ⟨p, rfl⟩

private theorem signed_of_entered {duties : List OperatorDuty}
    (h : sm.step env ev = some (sm', duties)) (hs : sm'.state.state = .preAssertConfirmed p)
    (hno : ∀ p', sm.state.state ≠ .preAssertConfirmed p') : p.signedAssertDataTxs = ∅ := by
  have hmove := advance_of_step h
  rw [hs] at hmove
  generalize hstate : sm.state.state = s at hmove
  cases hmove with
  | stay => exact absurd hstate (hno p)
  | preAssert c _ => rfl
  | collect p' tx _ => exact absurd hstate (hno p')

theorem isPov_of_cfg_eq (h : sm'.cfg = sm.cfg) (i : OperatorIdx) :
    sm'.isPov i = sm.isPov i := by
  rw [isPov, isPov, h]

private theorem Reachable.collecting_lt (hr : Reachable env (.new cfg height deadline) sm)
    (hs : sm.state.state = .preAssertConfirmed p)
    (hsigs : sm.isPov p.fulfiller = true → p.activeGraph.2.claimTxid ∈ p.graphSigs) :
    p.signedAssertDataTxs.size < numAssertDataTx := by
  refine hr.invariant (P := fun sm => ∀ p, sm.state.state = .preAssertConfirmed p →
    (sm.isPov p.fulfiller = true → p.activeGraph.2.claimTxid ∈ p.graphSigs) →
    p.signedAssertDataTxs.size < numAssertDataTx) (by rintro p ⟨⟩) ?_ p hs hsigs
  intro sm ev sm' duties hP hstep p' hs' hsigs'
  have hcfg := cfg_of_step hstep
  by_cases hcollecting : ∃ p, sm.state.state = .preAssertConfirmed p
  · obtain ⟨p, hs⟩ := hcollecting
    have henters := enters_of_next ((step_collecting hs hstep).symm.trans hs')
    rw [henters.same, isPov_of_cfg_eq hcfg] at hsigs'
    exact henters.lt hsigs' (hP p hs hsigs')
  · rw [signed_of_entered hstep hs' fun p hs => hcollecting ⟨p, hs⟩]
    exact Nat.zero_lt_of_ne_zero (by decide)

/-- **What events add to a collection** are the assert-data transactions they confirm. -/
private theorem signed_of_run {os : List OperatorDuty} {evs : List ContractEvent}
    {sm₁ : ContractSM} {p₁ : PreAssertConfirmed} (hs : sm.state.state = .preAssertConfirmed p)
    (hrun : Run (logged (step env)) (fun _ _ => True) ([], sm) os (evs, sm₁))
    (hs₁ : sm₁.state.state = .preAssertConfirmed p₁) :
    p₁ = { p with signedAssertDataTxs := p₁.signedAssertDataTxs } ∧
    ∀ txid, txid ∈ p₁.signedAssertDataTxs ↔ txid ∈ p.signedAssertDataTxs ∨
      txid ∈ p.activeGraph.2.assertDataTxids ∧ some txid ∈ evs.map (·.confirmed env) := by
  refine (hrun.invariant (I := fun _ s => Phase.preAssertConfirmed ≤ s.2.phase ∧
    ∀ p₁, s.2.state.state = .preAssertConfirmed p₁ →
      p₁ = { p with signedAssertDataTxs := p₁.signedAssertDataTxs } ∧
      ∀ txid, txid ∈ p₁.signedAssertDataTxs ↔ txid ∈ p.signedAssertDataTxs ∨
        txid ∈ p.activeGraph.2.assertDataTxids ∧ some txid ∈ s.1.map (·.confirmed env))
    ⟨?_, ?_⟩ ?_).2 p₁ hs₁
  · rw [phase, hs]
    exact le_rfl
  · intro p₁ hp₁
    obtain rfl := ContractState.preAssertConfirmed.inj (hs.symm.trans hp₁)
    exact ⟨rfl, by simp⟩
  rintro os ⟨evs, sm₁⟩ ev _ os' ⟨hphase, hI⟩ - hlogged
  obtain ⟨⟨sm₂, duties⟩, hstep, heq⟩ := Option.map_eq_some_iff.mp hlogged
  cases heq
  have hmove := advance_of_step hstep
  refine ⟨hphase.trans hmove.phase_le, fun p₂ hs₂ => ?_⟩
  -- a phase from which the collection is entered comes before it
  have hcollecting : ∃ p₁, sm₁.state.state = .preAssertConfirmed p₁ := by
    have hle : sm₁.phase ≤ Phase.preAssertConfirmed := by
      have := hmove.phase_le
      rwa [hs₂] at this
    have heq : sm₁.phase = .preAssertConfirmed := le_antisymm hle hphase
    rw [phase] at heq
    cases hs₁ : sm₁.state.state with
    | preAssertConfirmed p₁ => exact ⟨p₁, rfl⟩
    | _ => rw [hs₁] at heq; cases heq
  obtain ⟨p₁, hs₁⟩ := hcollecting
  obtain ⟨hsame, hmem⟩ := hI p₁ hs₁
  have henters := enters_of_next ((step_collecting hs₁ hstep).symm.trans hs₂)
  have hactive : p₁.activeGraph = p.activeGraph := by rw [hsame]
  refine ⟨?_, fun txid => ?_⟩
  · rw [henters.same, hsame]
  · rw [henters.mem_iff, hmem, hactive, map_append, mem_append, map_singleton,
      mem_singleton, or_assoc, ← and_or_left, eq_comm (a := some txid)]

/-- With a confirmation after which nothing is missing, as many transactions are held as there
are. -/
theorem size_of_complete {evs : List ContractEvent} {p₁ : PreAssertConfirmed}
    (hnodup : p.activeGraph.2.assertDataTxids.toList.Nodup)
    (hmem : ∀ txid, txid ∈ p₁.signedAssertDataTxs ↔ txid ∈ p.signedAssertDataTxs ∨
      txid ∈ p.activeGraph.2.assertDataTxids ∧ some txid ∈ evs.map (·.confirmed env))
    (hall : ∀ txid ∈ p.activeGraph.2.assertDataTxids, txid ∈ p.signedAssertDataTxs ∨
      some txid ∈ (evs ++ [ContractEvent.pegOutGraphConfirmation tx height]).map
        (·.confirmed env)) :
    numAssertDataTx ≤ (p₁.signedAssertDataTxs.insert (env.computeTxid tx) tx).size := by
  have hle := length_le_of_mem
    (m := p₁.signedAssertDataTxs.insert (env.computeTxid tx) tx) hnodup fun t ht => ?_
  · simpa using hle
  · rw [Vector.mem_toList_iff] at ht
    rw [mem_insert, hmem]
    have hconfirmed := hall t ht
    rw [map_append, mem_append, map_singleton, mem_singleton] at hconfirmed
    rcases hconfirmed with hheld | hearlier | hlast
    · exact .inr (.inl hheld)
    · exact .inr (.inr ⟨ht, hearlier⟩)
    · exact .inl (Option.some.inj hlast).symm

/-- A confirmation after which nothing is missing is rejected by the fulfiller without
signatures. -/
private theorem isErr_of_complete (hs : sm.state.state = .preAssertConfirmed p)
    (hpov : sm.isPov p.fulfiller = true) (hlacks : p.activeGraph.2.claimTxid ∉ p.graphSigs)
    (hsize : numAssertDataTx ≤ (p.signedAssertDataTxs.insert (env.computeTxid tx) tx).size)
    (hactive : sm.state.state.CollectsActive) :
    (sm.processContractEvent env (.pegOutGraphConfirmation tx height)).IsErr := by
  rw [processContractEvent, (sm.processPegOutGraphTxConfirmation_decided env height tx).2 hactive,
    Awaits, hs]
  rintro ⟨-, hlt | hother | hsigs⟩
  · exact absurd hsize (Nat.not_le.mpr hlt)
  · rw [hpov] at hother
    cases hother
  · exact hlacks hsigs

private theorem Reachable.keyed (hr : Reachable env (.new cfg height deadline) sm) {txid : Txid}
    (htx : sm.state.state.signedAssertDataTxs[txid]? = some tx) : env.computeTxid tx = txid := by
  refine hr.invariant (P := fun sm => ∀ txid tx,
    sm.state.state.signedAssertDataTxs[txid]? = some tx → env.computeTxid tx = txid)
    (by simp [new, ContractState.new, ContractState.signedAssertDataTxs]) ?_ txid tx htx
  intro sm ev sm' duties hP hstep
  have hmove := advance_of_step hstep
  generalize sm.state.state = s at hP hmove
  generalize sm'.state.state = s' at hmove
  have hcollect {p : PreAssertConfirmed} (hp : s = .preAssertConfirmed p) (tx : Transaction) :
      ∀ txid tx', (p.collect (env.computeTxid tx) tx).signedAssertDataTxs[txid]? = some tx' →
        env.computeTxid tx' = txid := by
    subst hp
    intro txid tx' htx'
    rw [PreAssertConfirmed.collect, get_insert] at htx'
    split_ifs at htx' with heq
    · rw [← Option.some.inj htx', heq]
    · exact hP txid tx' htx'
  cases hmove with
  | stay => exact hP
  | collect p tx _ => exact hcollect rfl tx
  | collected p tx _ _ => exact hcollect rfl tx
  | _ => simp [ContractState.signedAssertDataTxs]

private theorem Reachable.signed_active (hr : Reachable env (.new cfg height deadline) sm)
    {txid : Txid} (htx : sm.state.state.signedAssertDataTxs[txid]? = some tx) :
    ∃ w, sm.state.state.withdrawal = some w ∧ txid ∈ w.activeGraph.2.assertDataTxids := by
  have hactive := hr.collectsActive
  have hmem : txid ∈ sm.state.state.signedAssertDataTxs := mem_iff_exists.mpr ⟨tx, htx⟩
  cases hs : sm.state.state with
  | preAssertConfirmed p =>
    rw [hs] at hactive hmem
    exact ⟨_, rfl, hactive txid hmem⟩
  | assertDataConfirmed a =>
    rw [hs] at hactive hmem
    exact ⟨_, rfl, hactive.1 txid hmem⟩
  | _ => simp [hs, ContractState.signedAssertDataTxs] at htx

/-- **The collection of the assert-data transactions.** In every contract that can be reached:

* what it holds are assert-data transactions of its active graph, each under its own identifier;
* when it collects, and whatever events lead on from there to a contract that still collects, the
  next event ends the collection exactly when with it all assert-data transactions have been
  confirmed, in any order and however often, and the node has the signatures for the post-assert
  if it is to publish it; a node that is to publish it and has no signatures goes on collecting,
  and the confirmation after which nothing is missing is rejected with an error;
* when it has collected, it holds as many as there are, and every one is found.

That the assert-data transactions of the graph are different is assumed. -/
theorem assertData_collected (hr : Reachable env (.new cfg height deadline) sm) :
    (∀ txid tx, sm.state.state.signedAssertDataTxs[txid]? = some tx →
      env.computeTxid tx = txid ∧
      ∃ w, sm.state.state.withdrawal = some w ∧ txid ∈ w.activeGraph.2.assertDataTxids) ∧
    (∀ p, sm.state.state = .preAssertConfirmed p →
      p.activeGraph.2.assertDataTxids.toList.Nodup →
      ∀ os evs sm₁ p₁, Run (logged (step env)) (fun _ _ => True) ([], sm) os (evs, sm₁) →
        sm₁.state.state = .preAssertConfirmed p₁ →
        ∀ ev sm₂ duties, sm₁.step env ev = some (sm₂, duties) →
          ((∃ a, sm₂.state.state = .assertDataConfirmed a) ↔
            (∀ txid ∈ p.activeGraph.2.assertDataTxids, txid ∈ p.signedAssertDataTxs ∨
              some txid ∈ (evs ++ [ev]).map (·.confirmed env)) ∧
            (sm.isPov p.fulfiller = true → p.activeGraph.2.claimTxid ∈ p.graphSigs)) ∧
          (sm.isPov p.fulfiller = true → p.activeGraph.2.claimTxid ∉ p.graphSigs →
            (∃ p₂, sm₂.state.state = .preAssertConfirmed p₂) ∧
            ∀ txid ∈ p.activeGraph.2.assertDataTxids, ev.confirmed env = some txid →
              (∀ txid ∈ p.activeGraph.2.assertDataTxids, txid ∈ p.signedAssertDataTxs ∨
                some txid ∈ (evs ++ [ev]).map (·.confirmed env)) →
              (sm₁.processContractEvent env ev).IsErr)) ∧
    (∀ a, sm.state.state = .assertDataConfirmed a →
      a.signedAssertDataTxs.size = numAssertDataTx ∧
      ∃ txs, assertDataTxs a.activeGraph.2.assertDataTxids.toList a.signedAssertDataTxs = .ok txs ∧
        txs.length = numAssertDataTx) := by
  refine ⟨fun txid tx htx => ⟨hr.keyed htx, hr.signed_active htx⟩, ?_, ?_⟩
  · intro p hs hnodup os evs sm₁ p₁ hrun hs₁ ev sm₂ duties hstep
    have hlater : Reachable env sm sm₁ := Transition.Reachable.of_logged ⟨os, hrun⟩
    have hr₁ : Reachable env (.new cfg height deadline) sm₁ := Transition.Reachable.trans hr hlater
    obtain ⟨hsame, hmem⟩ := signed_of_run hs hrun hs₁
    have hactive : p₁.activeGraph = p.activeGraph := by rw [hsame]
    have hgraphSigs : p₁.graphSigs = p.graphSigs := by rw [hsame]
    have hpov : sm₁.isPov p₁.fulfiller = sm.isPov p.fulfiller := by
      rw [hsame]
      exact isPov_of_cfg_eq hlater.cfg_eq _
    have hin := hr₁.collectsActive
    rw [hs₁] at hin
    have hsm₂ := step_collecting hs₁ hstep
    rw [hpov] at hsm₂
    refine ⟨?_, fun hme hlacks => ⟨?_, fun txid htxid hev hall => ?_⟩⟩
    rotate_left
    · rw [hsm₂]
      exact next_collecting hme (by rwa [hactive, hgraphSigs])
    · cases ev with
      | pegOutGraphConfirmation tx confirmedAt =>
        exact isErr_of_complete hs₁ (hpov.trans hme) (by rwa [hactive, hgraphSigs])
          (size_of_complete hnodup hmem hall) hr₁.collectsActive
      | _ => cases hev
    rw [hsm₂, next_collected_iff, hactive, hgraphSigs]
    refine and_congr_left fun hsigs => ⟨?_, fun hall => ?_⟩
    · rintro ⟨tx, confirmedAt, rfl, htx, hsize⟩ txid htxid
      have hkeys : ∀ t ∈ p₁.signedAssertDataTxs.insert (env.computeTxid tx) tx,
          t ∈ p.activeGraph.2.assertDataTxids.toList := by
        intro t ht
        rw [Vector.mem_toList_iff]
        rcases mem_insert.mp ht with rfl | ht
        · exact htx
        · exact hactive ▸ hin t ht
      have hall := (mem_of_length_le hkeys (by simpa using hsize)).2 txid
        (Vector.mem_toList_iff.mpr htxid)
      rw [map_append, mem_append]
      rcases mem_insert.mp hall with rfl | hall
      · exact .inr (.inr mem_cons_self)
      · exact ((hmem txid).mp hall).imp_right fun h => .inl h.2
    · -- something is missing, and only the last event can have confirmed it
      have hlt : p₁.signedAssertDataTxs.size < numAssertDataTx :=
        hr₁.collecting_lt hs₁ (by rwa [hpov, hactive, hgraphSigs])
      obtain ⟨missing, hmissing, hnot⟩ : ∃ txid ∈ p.activeGraph.2.assertDataTxids,
          txid ∉ p₁.signedAssertDataTxs := by
        by_contra hno
        push Not at hno
        have hle := length_le_of_mem hnodup fun t ht =>
          hno t (Vector.mem_toList_iff.mp ht)
        rw [Vector.length_toList] at hle
        omega
      have hlast : ev.confirmed env = some missing := by
        rw [hmem, not_or] at hnot
        have hconfirmed := (hall missing hmissing).resolve_left hnot.1
        rw [map_append, mem_append, map_singleton, mem_singleton] at hconfirmed
        exact (hconfirmed.resolve_left fun h => hnot.2 ⟨hmissing, h⟩).symm
      cases ev with
      | pegOutGraphConfirmation tx confirmedAt =>
        have htx : env.computeTxid tx = missing := Option.some.inj hlast
        exact ⟨tx, confirmedAt, rfl, htx ▸ hmissing, size_of_complete hnodup hmem hall⟩
      | _ => cases hlast
  · intro a hs
    have hin := hr.collectsActive
    rw [hs] at hin
    obtain ⟨hsize, hall⟩ := mem_of_length_le (l := a.activeGraph.2.assertDataTxids.toList)
      (fun txid htxid => by simpa using hin.1 txid htxid) (by simpa using hin.2)
    obtain ⟨txs, htxs, hlen⟩ := assertDataTxs_ok hall
    rw [Vector.length_toList] at hsize hlen
    exact ⟨hsize, txs, htxs, hlen⟩

end Collection

/-! ### Two collections -/

section Instance

open Linear

private def collectingEvents (setups : List ContractEvent) (i stake : ℕ) : List ContractEvent :=
  let chain := (graph i stake 1).assertChain
  setups ++
    [.depositConfirmation (depositTx 1).tx.unsignedTx, assignment i 0 1,
      .pegOutGraphConfirmation (fulfillment i 0 1) 101,
      .pegOutGraphConfirmation (confirmedClaim i stake 1) 102,
      .pegOutGraphConfirmation chain.preAssert.unsignedTx 103] ++
    (chain.assertData.toList.take 38).map fun tx => .pegOutGraphConfirmation tx 104

private def lastAssertData (i stake : ℕ) : Transaction :=
  (graph i stake 1).assertChain.assertData[38]

private def awaitsLast (tx : Transaction) (sm : ContractSM) : Bool :=
  match sm.state.state with
  | .preAssertConfirmed p =>
    let txids := p.activeGraph.2.assertDataTxids.toList
    decide txids.Nodup && txids.all fun txid =>
      txid = computeTxid tx || p.signedAssertDataTxs.contains txid
  | _ => false

theorem exists_collecting (table : OperatorTable) (setups : List ContractEvent)
    (i stake : ℕ) (q : ContractSM → Bool)
    (h : (exec (step plain) (fun _ _ => True) (contract table)
      (collectingEvents setups i stake)).any
        (fun r => awaitsLast (lastAssertData i stake) r.1 && q r.1) = true) :
    ∃ sm p, Reachable plain (contract table) sm ∧
      sm.state.state = .preAssertConfirmed p ∧ p.activeGraph.2.assertDataTxids.toList.Nodup ∧
      (∀ txid ∈ p.activeGraph.2.assertDataTxids, txid ∈ p.signedAssertDataTxs ∨
        txid = plain.computeTxid (lastAssertData i stake)) ∧ q sm = true := by
  obtain ⟨sm, hr, h⟩ := exists_reachable plain (contract table) (collectingEvents setups i stake)
    (fun sm => awaitsLast (lastAssertData i stake) sm && q sm) h
  rw [awaitsLast] at h
  cases hs : sm.state.state with
  | preAssertConfirmed p =>
    simp only [hs, Bool.and_eq_true, decide_eq_true_eq, all_eq_true, Bool.or_eq_true] at h
    refine ⟨sm, p, hr, hs, h.1.1, fun txid htxid => ?_, h.2⟩
    refine (h.1.2 txid (Vector.mem_toList_iff.mpr htxid)).symm.imp_left ?_
    exact Std.ExtTreeMap.contains_iff_mem.mp
  | _ => simp [hs] at h

/-- Operator 0 sees the last of the assert-data transactions of operator 1 confirmed. -/
theorem last_assert_data_ends_collection : ∃ sm sm' duties,
    Reachable plain (contract twoOperators) sm ∧
    sm.step plain (.pegOutGraphConfirmation (lastAssertData 1 3) 104) = some (sm', duties) ∧
    ∃ a, sm'.state.state = .assertDataConfirmed a := by
  obtain ⟨sm, p, hr, hs, hnodup, hall, h⟩ := exists_collecting twoOperators [setup 0 2, setup 1 3]
    1 3 (fun sm => (sm.step plain (.pegOutGraphConfirmation (lastAssertData 1 3) 104)).isSome &&
      match sm.state.state with
      | .preAssertConfirmed p => !sm.isPov p.fulfiller
      | _ => false) (by decide +kernel)
  simp only [hs, Bool.and_eq_true, Bool.not_eq_true'] at h
  obtain ⟨⟨sm', duties⟩, hstep⟩ := Option.isSome_iff_exists.mp h.1
  refine ⟨sm, sm', duties, hr, hstep, ?_⟩
  refine ((assertData_collected hr).2.1 p hs hnodup [] [] sm p .nil hs _ sm' duties hstep).1.mpr
    ⟨fun txid htxid => ?_, by simp [h.2]⟩
  rcases hall txid htxid with hheld | rfl
  · exact .inl hheld
  · exact .inr mem_cons_self

/-- **A collection that is complete and does not end.** Operator 0 serves the withdrawal and has no
signatures for its graph: the last of the assert-data transactions is entered and rejected. -/
theorem complete_collection_rejected : ∃ sm p,
    Reachable plain (contract oneOperator) sm ∧
    sm.state.state = .preAssertConfirmed p ∧ p.activeGraph.2.assertDataTxids.toList.Nodup ∧
    (∀ txid ∈ p.activeGraph.2.assertDataTxids, txid ∈ p.signedAssertDataTxs ∨
      txid = plain.computeTxid (lastAssertData 0 2)) ∧
    (sm.processContractEvent plain (.pegOutGraphConfirmation (lastAssertData 0 2) 104)).IsErr ∧
    (sm.step plain (.pegOutGraphConfirmation (lastAssertData 0 2) 104)).any
      (fun r => r.1.phase = .preAssertConfirmed ∧
        r.1.state.state.signedAssertDataTxs.size = numAssertDataTx) = true := by
  obtain ⟨sm, p, hr, hs, hnodup, hall, h⟩ := exists_collecting oneOperator [setup 0 2] 0 2
    (fun sm => (sm.processContractEvent plain
        (.pegOutGraphConfirmation (lastAssertData 0 2) 104)).IsErr &&
      (sm.step plain (.pegOutGraphConfirmation (lastAssertData 0 2) 104)).any
        (fun r => r.1.phase = .preAssertConfirmed ∧
          r.1.state.state.signedAssertDataTxs.size = numAssertDataTx)) (by decide +kernel)
  rw [Bool.and_eq_true, decide_eq_true_eq] at h
  exact ⟨sm, p, hr, hs, hnodup, hall, h.1, h.2⟩

end Instance

end ContractSM

end StrataBridge
