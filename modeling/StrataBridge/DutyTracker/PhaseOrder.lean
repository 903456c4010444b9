import StrataBridge.DutyTracker.Phases
import StrataBridge.Instance.Linear

/-!
# The order of the phases

A contract goes through its phases in one order, which branches at the ends: a contract is aborted
before the deposit, or it ends resolved or disproved. Whatever is decided on the way is decided
once. The graphs and their signatures are those of the deposit, and from the fulfillment on the
operator, its graph and the transactions of the withdrawal stay what they are.

## References

* `crates/duty-tracker/src/contract_state_machine.rs`, lines 217–232, 1408–1616, 2429–3155
-/

namespace StrataBridge

open Rust Transition Linear

/-! ### Phases -/

inductive Phase where
  | requested
  | deposited
  | assigned
  | fulfilled
  | claimed
  | challenged
  | preAssertConfirmed
  | assertDataConfirmed
  | asserted
  | resolved
  | disproved
  | aborted
  deriving DecidableEq, Repr

namespace Phase

/-- How far a phase is from the request. The last three phases end a contract. -/
def rank : Phase → ℕ
  | .requested => 0
  | .deposited => 1
  | .assigned => 2
  | .fulfilled => 3
  | .claimed => 4
  | .challenged => 5
  | .preAssertConfirmed => 6
  | .assertDataConfirmed => 7
  | .asserted => 8
  | .resolved | .disproved | .aborted => 9

def IsFinal (p : Phase) : Prop := p.rank = 9

instance (p : Phase) : Decidable p.IsFinal := inferInstanceAs (Decidable (p.rank = 9))

/-- Phases are ordered by their distance from the request, except that only the request comes
before the end of an aborted contract. -/
instance : PartialOrder Phase where
  le p q := p = q ∨ p.rank < q.rank ∧ (q = .aborted → p = .requested)
  le_refl p := .inl rfl
  le_trans p q r := by
    rintro (rfl | ⟨hpq, hp⟩) (rfl | ⟨hqr, hq⟩)
    · exact .inl rfl
    · exact .inr ⟨hqr, hq⟩
    · exact .inr ⟨hpq, hp⟩
    · refine .inr ⟨hpq.trans hqr, fun hr => ?_⟩
      rw [hq hr] at hpq
      exact absurd hpq (Nat.not_lt_zero _)
  le_antisymm p q := by
    rintro (rfl | ⟨hpq, -⟩) (h | ⟨hqp, -⟩)
    · rfl
    · rfl
    · exact h.symm
    · exact absurd hpq hqp.not_gt

theorem le_of_rank_lt {p q : Phase} (h : p.rank < q.rank) (hq : q ≠ .aborted) : p ≤ q :=
  .inr ⟨h, fun h => absurd h hq⟩

end Phase

namespace ContractState

def phase : ContractState → Phase
  | .requested _ => .requested
  | .deposited _ => .deposited
  | .assigned _ => .assigned
  | .fulfilled _ => .fulfilled
  | .claimed _ => .claimed
  | .challenged _ => .challenged
  | .preAssertConfirmed _ => .preAssertConfirmed
  | .assertDataConfirmed _ => .assertDataConfirmed
  | .asserted _ => .asserted
  | .resolved _ => .resolved
  | .disproved => .disproved
  | .aborted => .aborted

end ContractState

/-! ### What a fulfillment fixes -/

/-- What is fixed once a withdrawal is fulfilled: the operator and its graph, and the transactions
by which the withdrawal was requested and fulfilled. -/
structure Fulfillment where
  fulfiller : OperatorIdx
  activeGraph : ActiveGraph
  withdrawalRequestTxid : Buf32
  withdrawalFulfillmentTxid : Txid

def Withdrawal.ActiveOf (table : OperatorTable) (w : Withdrawal) : Prop :=
  ∃ k claim, table.idxToP2pKey w.fulfiller = some k ∧ w.claimTxids[k]? = some claim ∧
    w.pegOutGraphs[claim]? = some w.activeGraph

namespace ContractState

def fulfillment : ContractState → Option Fulfillment
  | .fulfilled f =>
    some ⟨f.fulfiller, f.activeGraph, f.withdrawalRequestTxid, f.withdrawalFulfillmentTxid⟩
  | .claimed c | .challenged c =>
    some ⟨c.fulfiller, c.activeGraph, c.withdrawalRequestTxid, c.withdrawalFulfillmentTxid⟩
  | .preAssertConfirmed p =>
    some ⟨p.fulfiller, p.activeGraph, p.withdrawalRequestTxid, p.withdrawalFulfillmentTxid⟩
  | .assertDataConfirmed a =>
    some ⟨a.fulfiller, a.activeGraph, a.withdrawalRequestTxid, a.withdrawalFulfillmentTxid⟩
  | .asserted a =>
    some ⟨a.fulfiller, a.activeGraph, a.withdrawalRequestTxid, a.withdrawalFulfillmentTxid⟩
  | _ => none

/-- What a phase carries of a fulfillment is that of `f`: a resolved contract has its transactions
and its claim left, a disproved one nothing. -/
def Keeps (f : Fulfillment) : ContractState → Prop
  | .resolved r => r.claimTxid = f.activeGraph.2.claimTxid ∧
      r.withdrawalRequestTxid = f.withdrawalRequestTxid ∧
      r.withdrawalFulfillmentTxid = f.withdrawalFulfillmentTxid
  | .disproved => True
  | s => s.fulfillment = some f

variable {env : Env} {table : OperatorTable} {s s' : ContractState}

theorem keeps_of_fulfillment {f : Fulfillment} (h : s.fulfillment = some f) : s.Keeps f := by
  cases s with
  | resolved | disproved => cases h
  | _ => exact h

/-! ### One move -/

theorem Advance.phase_le (h : Advance env table s s') : s.phase ≤ s'.phase := by
  cases h with
  | stay | exchange | collect => exact le_rfl
  | abort => exact .inr ⟨by simp [phase, Phase.rank], fun _ => rfl⟩
  | assign a hs =>
    rcases hs with rfl | ⟨a', rfl, -⟩
    · exact Phase.le_of_rank_lt (by simp [phase, Phase.rank]) (by simp [phase])
    · exact le_rfl
  | preAssert c hs =>
    rcases hs with rfl | rfl <;>
      exact Phase.le_of_rank_lt (by simp [phase, Phase.rank]) (by simp [phase])
  | _ => exact Phase.le_of_rank_lt (by simp [phase, Phase.rank]) (by simp [phase])

theorem Advance.eq_of_isFinal (h : Advance env table s s') (hs : s.phase.IsFinal) : s' = s := by
  cases h with
  | stay => rfl
  | assign a hd => rcases hd with rfl | ⟨a', rfl, -⟩ <;> cases hs
  | preAssert c hc => rcases hc with rfl | rfl <;> cases hs
  | _ => cases hs

theorem Advance.graphData (h : Advance env table s s') {d : GraphData} (hd : s.graphData = some d) :
    s'.graphData = some d ∨ s'.phase = .resolved ∨ s'.phase = .disproved := by
  cases h with
  | stay => exact .inl hd
  | exchange | abort | deposit => cases hd
  | assign a hs ha =>
    obtain rfl := Option.some.inj <| (show _ = some d by
      rcases hs with rfl | ⟨a', rfl, rfl⟩ <;> exact hd)
    exact .inl (congrArg some ha)
  | fulfill a f hw =>
    exact .inl ((congrArg (Option.map Withdrawal.toGraphData) hw).trans hd)
  | claim f c hw => exact .inl ((congrArg (Option.map Withdrawal.toGraphData) hw).trans hd)
  | challenge => exact .inl hd
  | preAssert c hs => rcases hs with rfl | rfl <;> exact .inl hd
  | collect | collected => exact .inl hd
  | postAssert a a' hw => exact .inl ((congrArg (Option.map Withdrawal.toGraphData) hw).trans hd)
  | disprove => exact .inr (.inr rfl)
  | payoutOptimistic | payout => exact .inr (.inl rfl)

theorem Keeps.advance {f : Fulfillment} (hs : s.Keeps f) (h : Advance env table s s') :
    s'.Keeps f := by
  cases h with
  | stay => exact hs
  | exchange | abort | deposit | fulfill => cases hs
  | assign a hd => rcases hd with rfl | ⟨a', rfl, -⟩ <;> cases hs
  | claim f' c hw hf =>
    cases hs
    obtain ⟨-, hfulfiller, hgraph, hrequest⟩ := Withdrawal.mk.inj (Option.some.inj hw)
    exact congrArg some (by rw [hfulfiller, hgraph, hrequest, hf])
  | challenge => exact hs
  | preAssert c hc => rcases hc with rfl | rfl <;> exact hs
  | collect | collected => exact hs
  | postAssert a a' hw hf =>
    cases hs
    obtain ⟨-, hfulfiller, hgraph, hrequest⟩ := Withdrawal.mk.inj (Option.some.inj hw)
    exact congrArg some (by rw [hfulfiller, hgraph, hrequest, hf])
  | disprove => trivial
  | payoutOptimistic c r hr _ hw hf =>
    cases hs
    exact ⟨hr, hw, hf⟩
  | payout a r hr _ hw hf =>
    cases hs
    exact ⟨hr, hw, hf⟩

theorem Advance.withdrawal_activeOf (h : Advance env table s s')
    (hs : ∀ w, s.withdrawal = some w → w.ActiveOf table) :
    ∀ w, s'.withdrawal = some w → w.ActiveOf table := by
  cases h with
  | stay => exact hs
  | exchange | abort | deposit | disprove | payoutOptimistic | payout => rintro w ⟨⟩
  | assign a hd ha hk hclaim hgraph =>
    rintro w hw
    cases hw
    subst ha
    exact ⟨_, _, hk, hclaim, hgraph⟩
  | fulfill a f hw => exact hw ▸ hs
  | claim f c hw => exact hw ▸ hs
  | challenge => exact hs
  | preAssert c hc => rcases hc with rfl | rfl <;> exact hs
  | collect | collected => exact hs
  | postAssert a a' hw => exact hw ▸ hs

end ContractState

/-! ### Runs -/

namespace ContractSM

open ContractState

variable {env : Env} {sm sm' : ContractSM}

def phase (sm : ContractSM) : Phase := sm.state.state.phase

theorem Reachable.cfg_eq {sm₀ : ContractSM} (hr : Reachable env sm₀ sm) :
    sm.cfg = sm₀.cfg :=
  hr.invariant (P := fun sm => sm.cfg = sm₀.cfg) rfl fun _ _ _ _ hsm hstep =>
    (cfg_of_step hstep).trans hsm

theorem Reachable.activeOf {cfg : ContractCfg} {height deadline : BitcoinBlockHeight}
    (h : Reachable env (.new cfg height deadline) sm) {w : Withdrawal}
    (hw : sm.state.state.withdrawal = some w) : w.ActiveOf cfg.operatorTable := by
  obtain ⟨-, hall⟩ := h.invariant
    (P := fun sm => sm.cfg = cfg ∧ ∀ w, sm.state.state.withdrawal = some w →
      w.ActiveOf cfg.operatorTable)
    ⟨rfl, by rintro w ⟨⟩⟩ fun sm ev sm' ds hP hs => by
      obtain ⟨rfl, hall⟩ := hP
      obtain ⟨hcfg, hmove⟩ := (sm.processContractEvent_advance env ev).of_next hs
      exact ⟨hcfg, hmove.withdrawal_activeOf hall⟩
  exact hall w hw

/-- **The phases come in order, and what is decided stays.** Whatever events a reachable contract
processes: it does not move back, and it does not leave a phase that ends it; only a request is
aborted; its graphs, claims and signatures are the same until it is resolved or disproved; and
once a withdrawal is fulfilled, every later phase carries the data of that fulfillment, whose
graph is the graph of the operator by its claim. -/
theorem Reachable.phases_in_order {cfg : ContractCfg} {height deadline : BitcoinBlockHeight}
    (hreach : Reachable env (.new cfg height deadline) sm) (hlater : Reachable env sm sm') :
    sm.phase ≤ sm'.phase ∧
    (sm.phase.IsFinal → sm'.state.state = sm.state.state) ∧
    (sm'.phase = .aborted → sm.phase = .requested ∨ sm.phase = .aborted) ∧
    (∀ d, sm.state.state.graphData = some d →
      sm'.state.state.graphData = some d ∨ sm'.phase = .resolved ∨ sm'.phase = .disproved) ∧
    (∀ f, sm.state.state.fulfillment = some f → sm'.state.state.Keeps f) ∧
    ∀ w, sm'.state.state.withdrawal = some w → w.ActiveOf cfg.operatorTable := by
  have hle : sm.phase ≤ sm'.phase := hlater.invariant (P := fun sm' => sm.phase ≤ sm'.phase)
    le_rfl fun sm' ev sm'' ds hP hs =>
      hP.trans (advance_of_step hs).phase_le
  refine ⟨hle, fun hfinal => ?_, fun hend => ?_, fun d hd => ?_, fun f hf => ?_,
    fun w hw => Reachable.activeOf (Transition.Reachable.trans hreach hlater) hw⟩
  · refine hlater.invariant (P := fun sm' => sm'.state.state = sm.state.state) rfl
      fun sm' ev sm'' ds hP hs => ?_
    have hmove := advance_of_step hs
    rw [hP] at hmove
    exact hmove.eq_of_isFinal hfinal
  · rcases hle with heq | ⟨-, hrequested⟩
    · exact .inr (heq.trans hend)
    · exact .inl (hrequested hend)
  · refine hlater.invariant (P := fun sm' => sm'.state.state.graphData = some d ∨
      sm'.phase = .resolved ∨ sm'.phase = .disproved) (.inl hd) fun sm' ev sm'' ds hP hs => ?_
    have hmove := advance_of_step hs
    rcases hP with hgraphs | hend
    · exact hmove.graphData hgraphs
    · have hfinal : sm'.phase.IsFinal := by rcases hend with hend | hend <;> rw [hend] <;> rfl
      rw [phase, hmove.eq_of_isFinal hfinal]
      exact .inr hend
  · exact hlater.invariant (P := fun sm' => sm'.state.state.Keeps f) (keeps_of_fulfillment hf)
      fun sm' ev sm'' ds hP hs =>
        hP.advance (advance_of_step hs)

theorem fulfillment_kept_when_claimed : ∃ sm sm' f,
    Reachable plain (contract oneOperator) sm ∧
    Reachable plain sm sm' ∧ sm.state.state.fulfillment = some f ∧
    sm.phase = .fulfilled ∧ sm'.phase = .claimed ∧ sm'.state.state.Keeps f := by
  let ev : ContractEvent := .pegOutGraphConfirmation (confirmedClaim 0 2 1) 102
  obtain ⟨sm, hr, h⟩ := exists_reachable plain (contract oneOperator)
    [setup 0 2, .depositConfirmation (depositTx 1).tx.unsignedTx,
      assignment 0 0 1, .pegOutGraphConfirmation (fulfillment 0 0 1) 101]
    (fun sm => sm.phase = .fulfilled ∧ sm.state.state.fulfillment.isSome ∧
      (sm.step plain ev).any fun p => p.1.phase = .claimed)
    (by decide +kernel)
  obtain ⟨hphase, hf, h⟩ := of_decide_eq_true h
  obtain ⟨f, hf⟩ := Option.isSome_iff_exists.mp hf
  obtain ⟨⟨sm', ds⟩, hstep, h⟩ := (Option.any_eq_true _ _).mp h
  have hlater : Reachable plain sm sm' := Transition.Reachable.snoc .refl trivial hstep
  obtain ⟨-, -, -, -, hkeeps, -⟩ := Reachable.phases_in_order hr hlater
  exact ⟨sm, sm', f, hr, hlater, hf, hphase, of_decide_eq_true h, hkeeps f hf⟩

end ContractSM

end StrataBridge
