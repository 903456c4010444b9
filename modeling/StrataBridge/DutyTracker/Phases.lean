import StrataBridge.DutyTracker.Reactions
import StrataBridge.Transition.Runs

/-!
# The life of a contract

`ContractState.Advance` is the diagram of the phases of a contract, with what a move from one
phase to the next keeps: once a withdrawal is fulfilled, its operator, its graph and its request
stay the same until the contract is resolved. Every event moves a contract along this diagram,
also when it is rejected; so what the diagram preserves holds in every contract that can be
reached.
-/

namespace StrataBridge

open Rust Transition

variable {ev : ContractEvent}

/-! ### The diagram -/

namespace ContractState

section

variable (env : Env) (table : OperatorTable)

/-- The moves between the states of a contract. -/
inductive Advance : ContractState → ContractState → Prop
  | stay (s : ContractState) : Advance s s
  | exchange (r r' : Requested) : Advance (.requested r) (.requested r')
  | abort (r : Requested) : Advance (.requested r) .aborted
  | deposit (r : Requested) (d : GraphData) (hd : r.intoGraphData = .ok d) :
      Advance (.requested r) (.deposited d)
  | assign {s : ContractState} {d : GraphData} (a : Assigned)
      (hs : s = .deposited d ∨ ∃ a' : Assigned, s = .assigned a' ∧ a'.toGraphData = d)
      (ha : a.toGraphData = d) {k : P2POperatorPubKey} {claim : Txid}
      (hk : table.idxToP2pKey a.fulfiller = some k) (hclaim : d.claimTxids[k]? = some claim)
      (hgraph : d.pegOutGraphs[claim]? = some a.activeGraph) : Advance s (.assigned a)
  | fulfill (a : Assigned) (f : Fulfilled)
      (hw : (fulfilled f).withdrawal = (assigned a).withdrawal) :
      Advance (.assigned a) (.fulfilled f)
  | claim (f : Fulfilled) (c : Claimed)
      (hw : (claimed c).withdrawal = (fulfilled f).withdrawal)
      (hf : c.withdrawalFulfillmentTxid = f.withdrawalFulfillmentTxid) :
      Advance (.fulfilled f) (.claimed c)
  | challenge (c : Claimed) : Advance (.claimed c) (.challenged c)
  | preAssert {s : ContractState} (c : Claimed) (hs : s = .claimed c ∨ s = .challenged c) :
      Advance s (.preAssertConfirmed { c with signedAssertDataTxs := ∅ })
  | collect (p : PreAssertConfirmed) (tx : Transaction)
      (htx : env.computeTxid tx ∈ p.activeGraph.2.assertDataTxids) :
      Advance (.preAssertConfirmed p) (.preAssertConfirmed (p.collect (env.computeTxid tx) tx))
  | collected (p : PreAssertConfirmed) (tx : Transaction)
      (htx : env.computeTxid tx ∈ p.activeGraph.2.assertDataTxids)
      (hsize : numAssertDataTx ≤ (p.collect (env.computeTxid tx) tx).signedAssertDataTxs.size) :
      Advance (.preAssertConfirmed p)
        (.assertDataConfirmed (p.collect (env.computeTxid tx) tx).assertDataConfirmed)
  | postAssert (a : AssertDataConfirmed) (a' : Asserted)
      (hw : (asserted a').withdrawal = (assertDataConfirmed a).withdrawal)
      (hf : a'.withdrawalFulfillmentTxid = a.withdrawalFulfillmentTxid) :
      Advance (.assertDataConfirmed a) (.asserted a')
  | disprove (a : Asserted) : Advance (.asserted a) .disproved
  | payoutOptimistic (c : Claimed) (r : Resolved)
      (hr : r.claimTxid = c.activeGraph.2.claimTxid) (hpath : r.path = .optimistic)
      (hw : r.withdrawalRequestTxid = c.withdrawalRequestTxid)
      (hf : r.withdrawalFulfillmentTxid = c.withdrawalFulfillmentTxid) :
      Advance (.claimed c) (.resolved r)
  | payout (a : Asserted) (r : Resolved)
      (hr : r.claimTxid = a.activeGraph.2.claimTxid) (hpath : r.path = .contested)
      (hw : r.withdrawalRequestTxid = a.withdrawalRequestTxid)
      (hf : r.withdrawalFulfillmentTxid = a.withdrawalFulfillmentTxid) :
      Advance (.asserted a) (.resolved r)

end

/-- The assert-data transactions a contract has collected belong to its active graph, and they
are at least as many as there are once it has stopped collecting. -/
def CollectsActive : ContractState → Prop
  | .preAssertConfirmed p =>
    ∀ txid ∈ p.signedAssertDataTxs, txid ∈ p.activeGraph.2.assertDataTxids
  | .assertDataConfirmed a =>
    (∀ txid ∈ a.signedAssertDataTxs, txid ∈ a.activeGraph.2.assertDataTxids) ∧
      numAssertDataTx ≤ a.signedAssertDataTxs.size
  | _ => True

theorem collectsActive_collect {p : PreAssertConfirmed} {txid : Txid} {tx : Transaction}
    (hp : (preAssertConfirmed p).CollectsActive)
    (htx : txid ∈ p.activeGraph.2.assertDataTxids) :
    ∀ t ∈ (p.collect txid tx).signedAssertDataTxs, t ∈ p.activeGraph.2.assertDataTxids := by
  intro t ht
  rcases Std.ExtTreeMap.mem_insert.mp ht with heq | ht
  · rwa [← Std.LawfulEqOrd.eq_of_compare heq]
  · exact hp t ht

theorem CollectsActive.advance {env : Env} {table : OperatorTable} {s s' : ContractState}
    (hs : s.CollectsActive) (h : Advance env table s s') : s'.CollectsActive := by
  cases h with
  | stay => exact hs
  | preAssert c _ => exact fun txid htxid => absurd htxid Std.ExtTreeMap.not_mem_empty
  | collect p tx htx => exact collectsActive_collect hs htx
  | collected p tx htx hsize => exact ⟨collectsActive_collect hs htx, hsize⟩
  | _ => trivial

end ContractState

namespace ContractSM

open ContractState

def Advances (env : Env) (sm sm' : ContractSM) : Prop :=
  sm'.cfg = sm.cfg ∧ Advance env sm.cfg.operatorTable sm.state.state sm'.state.state

/-- **Every event moves a contract along the diagram**, whether it is accepted or rejected. -/
theorem processContractEvent_advance (env : Env) (sm : ContractSM) (ev : ContractEvent) :
    (sm.processContractEvent env ev).Leaves (sm.Advances env) := by
  refine sm.of_reaction env fun o ho => ?_
  cases ho with
  | rejects | passes | rejectsBlock | takes | takesLate | claimMatures | challengeMatures
  | assertionMatures | passesAssignment | assignsStub | passesPayment | claimFails
  | assertionFails => exact ⟨rfl, .stay _⟩
  | depositPanics | confirmationPanics => trivial
  | requested hs _ =>
    refine Outcome.leaves_embed.mpr (.of_forall (fun p => ⟨rfl, ?_⟩) _)
    rw [hs]
    exact .exchange _ p.1
  | assigns hs hentry hkey hclaim hgraph hdata hfulfiller =>
    exact ⟨rfl, .assign _ hs hdata (hfulfiller ▸ hkey) hclaim hgraph⟩
  | preAsserts hs => exact ⟨rfl, .preAssert _ hs⟩
  | deposits hs hd => exact ⟨rfl, hs ▸ .deposit _ _ hd⟩
  | aborts _ hs => exact ⟨rfl, hs ▸ .abort _⟩
  | fulfills hs _ hw => exact ⟨rfl, hs ▸ .fulfill _ _ hw⟩
  | claims hs _ hw hf => exact ⟨rfl, hs ▸ .claim _ _ hw hf⟩
  | challenges hs => exact ⟨rfl, hs ▸ .challenge _⟩
  | collects hs htx | collectsLate hs htx => exact ⟨rfl, hs ▸ .collect _ _ htx⟩
  | collectsLast hs htx hsize => exact ⟨rfl, hs ▸ .collected _ _ htx hsize⟩
  | postAsserts hs _ hw hf => exact ⟨rfl, hs ▸ .postAssert _ _ hw hf⟩
  | disproves hs => exact ⟨rfl, hs ▸ .disprove _⟩
  | paysOptimistic hs => exact ⟨rfl, hs ▸ .payoutOptimistic _ _ rfl rfl rfl rfl⟩
  | pays hs => exact ⟨rfl, hs ▸ .payout _ _ rfl rfl rfl rfl⟩

section Step

variable {env : Env} {sm sm' : ContractSM} {ds : List OperatorDuty}

theorem cfg_of_step (h : sm.step env ev = some (sm', ds)) : sm'.cfg = sm.cfg :=
  ((sm.processContractEvent_advance env ev).of_next h).1

theorem advance_of_step (h : sm.step env ev = some (sm', ds)) :
    Advance env sm.cfg.operatorTable sm.state.state sm'.state.state :=
  ((sm.processContractEvent_advance env ev).of_next h).2

end Step

theorem keepsState_of_not_confirmation {env : Env} {sm : ContractSM}
    (hev : ∀ tx height, ev ≠ .pegOutGraphConfirmation tx height) {w : Withdrawal}
    (hw : sm.state.state.withdrawal = some w) (hassigned : ∀ a, sm.state.state ≠ .assigned a) :
    (sm.processContractEvent env ev).Leaves fun sm' => sm'.state.state = sm.state.state := by
  refine sm.of_reaction env fun o ho => ?_
  cases ho with
  | requested hs | deposits hs | aborts _ hs =>
    rw [hs] at hw
    cases hw
  | assigns hs =>
    rcases hs with hs | ⟨a, hs, -⟩
    · rw [hs] at hw
      cases hw
    · exact absurd hs (hassigned a)
  | fulfills | claims | challenges | preAsserts | collects | collectsLate | collectsLast
  | postAsserts | disproves | paysOptimistic | pays => exact absurd rfl (hev _ _)
  | _ => trivial

/-! ### Invariants of the requested phase -/

section Requested

variable {env : Env} {sm : ContractSM} {r : Requested}

theorem processContractEvent_requested {o : Requested.Reply}
    (hs : sm.state.state = .requested r) (ho : r.process env sm.cfg sm.pog ev = some o) :
    sm.processContractEvent env ev = o.embed sm.putRequested id := by
  cases ev with
  | graphSigs signer claim signatures =>
    simp only [Requested.process, Option.some.injEq] at ho
    subst ho
    cases hunpack : PogMusigF.unpack signatures with
    | none =>
      simp [processContractEvent, processGraphSignatures, hunpack, putRequested_self hs]
    | some partials =>
      simp only [processContractEvent, processGraphSignatures, hunpack, inRequested, hs]
  | depositSetup | graphNonces | aggregatedSigs | rootNonce | rootSig =>
    simp only [Requested.process, Option.some.injEq] at ho
    subst ho
    simp only [processContractEvent, processDepositSetup, processGraphNonces,
      processAggregateSigs, processRootNonce, processRootSignature, inRequested, hs]
  | _ => cases ho

/-- **What a step is to the requested phase.** Either a handler of the phase is run, or whatever
the contract still has of the phase is as before, and no duty is about signing. -/
theorem step_cases {sm' : ContractSM} {ds : List OperatorDuty}
    (h : sm.step env ev = some (sm', ds)) :
    (∃ r o p, sm.state.state = .requested r ∧ r.process env sm.cfg sm.pog ev = some o ∧
      o.next = some (p, ds) ∧ sm' = sm.putRequested p) ∨
    (∀ r, sm'.state.state = .requested r → sm.state.state = .requested r ∧ sm'.pog = sm.pog) ∧
      ∀ d ∈ ds, d.isSigning = false := by
  rw [step] at h
  have ho := sm.reaction env ev
  generalize sm.processContractEvent env ev = o at h ho
  cases ho with
  | @requested _ r o hs ho =>
    rw [Outcome.next_embed] at h
    obtain ⟨⟨p, ds⟩, hnext, heq⟩ := Option.map_eq_some_iff.mp h
    cases heq
    exact .inl ⟨r, o, p, hs, ho, hnext, rfl⟩
  | depositPanics | confirmationPanics => cases h
  | preAsserts _ _ hds =>
    cases h
    rcases hds with rfl | ⟨-, _, rfl⟩ <;> simp [OperatorDuty.isSigning]
  | collectsLast _ _ _ hds =>
    cases h
    rcases hds with ⟨-, rfl⟩ | ⟨-, _, -, rfl⟩ <;> simp [OperatorDuty.isSigning]
  | _ =>
    cases h
    first
    | exact .inr ⟨fun _ hr => ⟨hr, rfl⟩, by simp [OperatorDuty.isSigning, fulfillmentDuty]⟩
    | exact .inr ⟨nofun, by simp [OperatorDuty.isSigning, fulfillmentDuty]⟩

/-- **Invariants of the requested phase.** A property of the data and the cache that the
handlers of the phase preserve is preserved by every step. -/
theorem requested_invariant {Q : Requested → PogCache → Prop} {sm' : ContractSM}
    {ds : List OperatorDuty} (h : sm.step env ev = some (sm', ds))
    (hQ : ∀ r, sm.state.state = .requested r → Q r sm.pog)
    (hstep : ∀ r o, sm.state.state = .requested r → Q r sm.pog →
      r.process env sm.cfg sm.pog ev = some o → o.Leaves fun p => Q p.1 p.2) :
    ∀ r', sm'.state.state = .requested r' → Q r' sm'.pog := by
  rcases step_cases h with ⟨r, o, p, hs, ho, hnext, rfl⟩ | ⟨hsame, -⟩
  · intro r' hr'
    cases hr'
    exact (hstep r o hs (hQ r hs) ho).of_next hnext
  · intro r' hr'
    obtain ⟨hs, hpog⟩ := hsame r' hr'
    rw [hpog]
    exact hQ r' hs

end Requested

/-! ### Reachable contracts -/

variable {env : Env} {sm sm₀ : ContractSM}

def Reachable (env : Env) (sm₀ sm : ContractSM) : Prop :=
  Transition.Reachable (step env) (fun _ _ => True) sm₀ sm

theorem Reachable.invariant {P : ContractSM → Prop} (h : Reachable env sm₀ sm) (h0 : P sm₀)
    (hstep : ∀ sm ev sm' ds, P sm → sm.step env ev = some (sm', ds) → P sm') : P sm :=
  Transition.Reachable.invariant h h0 fun sm ev sm' ds hP _ hs => hstep sm ev sm' ds hP hs

theorem exists_reachable (env : Env) (sm₀ : ContractSM) (evs : List ContractEvent)
    (p : ContractSM → Bool)
    (h : (exec (step env) (fun _ _ => True) sm₀ evs).any (fun r => p r.1) = true) :
    ∃ sm, Reachable env sm₀ sm ∧ p sm = true := by
  obtain ⟨sm, os, hrun, hp⟩ := exists_run_of_exec (step env) (fun _ _ => True) sm₀ evs
    (fun sm _ => p sm) h
  exact ⟨sm, ⟨os, hrun⟩, hp⟩

/-- **What a contract has collected belongs to its active graph.** -/
theorem Reachable.collectsActive {cfg : ContractCfg} {height deadline : BitcoinBlockHeight}
    (h : Reachable env (.new cfg height deadline) sm) : sm.state.state.CollectsActive :=
  h.invariant (P := fun sm => sm.state.state.CollectsActive) trivial fun sm ev _ _ hsm hs =>
    hsm.advance ((sm.processContractEvent_advance env ev).of_next hs).2

end ContractSM

end StrataBridge
