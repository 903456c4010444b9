import StrataBridge.DutyTracker.Setup
import StrataBridge.Instance.Linear

/-!
# What a rejected event leaves behind

A handler that returns an error should have consumed nothing. Most handlers check before they
write, and the errors `process_graph_nonces` could still run into after its writes are
unreachable. Two handlers do write first: a block records its height, and an assert-data
transaction is entered, before the signatures of the active graph are looked up.
`ContractSM.RejectsLate` says when that lookup fails.
-/

namespace StrataBridge

open Rust Linear BTreeMap List

variable {env : Env} {sm : ContractSM}

variable {claim : Txid}

/-! ### The requested phase -/

namespace Requested

variable {cfg : ContractCfg} {r : Requested} {pog : PogCache}

theorem exists_lastOwner {claimTxids : BTreeMap P2POperatorPubKey Txid}
    (h : claim ∈ vals claimTxids) :
    ∃ k, lastOwner claimTxids claim = some k ∧ claimTxids[k]? = some claim := by
  obtain ⟨k, hk⟩ := mem_vals.mp h
  have hmem : claim ∈ ofEntries (claimTxids.toList.map Prod.swap) := by
    rw [mem_ofEntries, map_map]
    exact mem_map.mpr ⟨(k, claim), mem_toList.mpr hk, rfl⟩
  obtain ⟨owner, howner⟩ := mem_iff_exists.mp hmem
  refine ⟨owner, howner, ?_⟩
  obtain ⟨e, he, heq⟩ := mem_map.mp (mem_of_get_ofEntries howner)
  cases heq
  exact mem_toList.mp he

theorem signatureDuties_ok (env : Env) (cfg : ContractCfg) (hin : r.ClaimsHaveInputs)
    (claims : List Txid)
    (hclaims : ∀ c ∈ claims, c ∈ vals r.claimTxids)
    (hagg : ∀ c ∈ claims, c ∈ r.aggNonces) (pog : PogCache) :
    ∃ duties pog', signatureDuties env cfg r pog claims = (.ok duties, pog') := by
  induction claims generalizing pog with
  | nil => exact ⟨[], pog, rfl⟩
  | cons claim rest ih =>
    obtain ⟨owner, howner, hget⟩ := exists_lastOwner (hclaims claim mem_cons_self)
    obtain ⟨input, hinput⟩ :=
      mem_iff_exists.mp (hin owner (mem_iff_exists.mpr ⟨claim, hget⟩))
    obtain ⟨aggnonces, haggnonces⟩ :=
      mem_iff_exists.mp (hagg claim mem_cons_self)
    obtain ⟨duties, pog', hrest⟩ := ih (fun c hc => hclaims c (mem_cons_of_mem _ hc))
      (fun c hc => hagg c (mem_cons_of_mem _ hc)) (cfg.retrieveGraph env pog input).2
    simp only [signatureDuties, howner, hinput, haggnonces, hrest]
    exact ⟨_, _, rfl⟩

theorem mem_aggregateNonces {n : ℕ} {claims : List Txid}
    {graphNonces : BTreeMap Txid (Session PubNonce)} (h : haveAll n claims graphNonces = true)
    (hc : claim ∈ claims) : claim ∈ aggregateNonces graphNonces := by
  have hclaim := all_eq_true.mp h claim hc
  cases hget : graphNonces[claim]? with
  | none => simp [hget] at hclaim
  | some session =>
    rw [mem_iff_exists, aggregateNonces, Std.ExtTreeMap.getElem?_map, hget]
    exact ⟨_, rfl⟩

/-- **The requested phase rejects before it writes.** -/
theorem process_errLeaves (hin : r.ClaimsHaveInputs) {ev : ContractEvent} {o : Requested.Reply}
    (ho : r.process env cfg pog ev = some o) : o.ErrLeaves fun p => p.1 = r := by
  cases reaction ho with
  | @noncesFail _ _ _ _ _ r' _ _ _ _ hr' hall hduties =>
    -- the loop over the claims finds all it looks up
    have hin' : r'.sumNonces.ClaimsHaveInputs := hr' ▸ hin
    obtain ⟨duties, pog', hok⟩ := signatureDuties_ok env cfg hin' _ (fun _ hc => hc)
      (fun _ hc => mem_aggregateNonces hall hc) pog
    cases hduties.symm.trans hok
  | rejects => rfl
  | _ => trivial

end Requested

/-! ### All phases -/

namespace ContractSM

section Handlers

private theorem timelockDuty_of_missing {height : BitcoinBlockHeight}
    {graphSigs : BTreeMap Txid (PogMusigF TaprootSignature)} {fulfiller : OperatorIdx}
    {matures : BitcoinBlockHeight} (duty : PogMusigF TaprootSignature → FulfillerDuty)
    (h : sm.SignaturesMissing graphSigs fulfiller claim matures height) :
    (sm.setHeight height).timelockDuty graphSigs fulfiller claim matures duty =
      .err (sm.setHeight height) (.graphSigsMissing claim) := by
  obtain ⟨-, hdue, hpov, hsigs⟩ := h
  have hset : (sm.setHeight height).state.blockHeight = height := rfl
  have hme : (sm.setHeight height).isPov fulfiller = true := hpov
  rw [timelockDuty, hset, if_pos (by simp [hdue, hme]), notMem_iff.mp hsigs]

theorem setState_collect_iff {p : PreAssertConfirmed} {txid : Txid} {tx : Transaction}
    (hs : sm.state.state = .preAssertConfirmed p) :
    (sm.setState (.preAssertConfirmed (p.collect txid tx))).state = sm.state ↔
      p.signedAssertDataTxs[txid]? = some tx := by
  rw [← insert_eq_self_iff, setState_state]
  constructor
  · intro h
    have hstate := congrArg MachineState.state h
    rw [hs] at hstate
    exact congrArg PreAssertConfirmed.signedAssertDataTxs
      (ContractState.preAssertConfirmed.inj hstate)
  · intro h
    rw [PreAssertConfirmed.collect, h, ← hs]

theorem changed_of_rejectsLate {ev : ContractEvent} (h : sm.RejectsLate env ev) :
    ∃ sm' e, sm.processContractEvent env ev = .err sm' e ∧ sm'.state ≠ sm.state := by
  have hmoved : (sm.setHeight (sm.state.blockHeight + 1)).state ≠ sm.state :=
    fun heq => Nat.succ_ne_self _ (congrArg MachineState.blockHeight heq)
  have hset (height : BitcoinBlockHeight) :
      (sm.setHeight height).state.state = sm.state.state := rfl
  cases ev with
  | block height =>
    rw [processContractEvent, notifyNewBlock, atNewHeight, hset]
    cases hs : sm.state.state with
    | claimed | challenged | asserted =>
      simp only [RejectsLate, hs] at h
      obtain rfl := h.1
      rw [if_pos rfl]
      exact ⟨_, _, timelockDuty_of_missing _ h, hmoved⟩
    | _ => simp [RejectsLate, hs] at h
  | pegOutGraphConfirmation tx height =>
    cases hs : sm.state.state with
    | preAssertConfirmed p =>
      simp only [RejectsLate, hs] at h
      obtain ⟨hmem, hsize, hpov, hsigs, hnew⟩ := h
      refine ⟨_, .graphSigsMissing p.activeGraph.2.claimTxid, ?_,
        mt (setState_collect_iff hs).mp hnew⟩
      simp only [processContractEvent, processPegOutGraphTxConfirmation, hs,
        processAssertDataConfirmation, if_pos hmem]
      have hnone : (p.collect (env.computeTxid tx) tx).graphSigs[
          (p.collect (env.computeTxid tx) tx).activeGraph.2.claimTxid]? = none :=
        notMem_iff.mp hsigs
      have hme : sm.isPov (p.collect (env.computeTxid tx) tx).fulfiller = true := hpov
      rw [afterCollecting, if_neg (Nat.not_lt.mpr hsize), if_pos hme, hnone]
      rfl
    | _ => simp [RejectsLate, hs] at h
  | _ => exact h.elim

end Handlers

/-- **A rejected event leaves height and state as they were exactly when it is not rejected
late.** -/
theorem rejection_clean_iff {cfg : ContractCfg} {height deadline : BitcoinBlockHeight}
    (hr : Reachable env (.new cfg height deadline) sm) (ev : ContractEvent) :
    ((sm.processContractEvent env ev).ErrLeaves fun sm' => sm'.state = sm.state) ↔
      ¬sm.RejectsLate env ev := by
  constructor
  · intro hclean hlate
    obtain ⟨sm', e, herr, hchanged⟩ := changed_of_rejectsLate hlate
    rw [herr] at hclean
    exact hchanged hclean
  · intro hlate
    refine sm.of_reaction env (P := fun o => o.ErrLeaves fun sm' => sm'.state = sm.state)
      fun o ho => ?_
    cases ho with
    | requested hs ho =>
      have hwrites := Requested.process_errLeaves (hr.claimsHaveInputs hs) ho
      refine Outcome.errLeaves_embed.mpr (hwrites.mono fun p hp => ?_)
      rw [putRequested_state, hp, ← hs]
    | takesLate _ h => exact absurd h hlate
    | collectsLate hs htx hsize hpov hsigs =>
      -- the transaction was there already, or it is entered and the rejection comes late
      refine (setState_collect_iff hs).mpr (by_contra fun hnew => hlate ?_)
      simp only [RejectsLate, hs]
      exact ⟨htx, hsize, hpov, hsigs, hnew⟩
    | _ => trivial

private def isDeposited : ContractState → Bool
  | .deposited _ => true
  | _ => false

/-- A deposited contract rejects the claim of an unassigned operator, and is left as it was. -/
theorem unassigned_claim_rejected_clean : ∃ sm,
    Reachable plain (contract oneOperator) sm ∧
    ∃ sm' e, sm.processContractEvent plain
        (.pegOutGraphConfirmation (confirmedClaim 0 2 1) 101) = .err sm' e ∧
      sm'.state = sm.state := by
  obtain ⟨sm, hr, h⟩ := exists_reachable plain (contract oneOperator)
    [setup 0 2, .depositConfirmation (depositTx 1).tx.unsignedTx]
    (fun sm => decide (sm.processContractEvent plain
        (.pegOutGraphConfirmation (confirmedClaim 0 2 1) 101)).IsErr && isDeposited sm.state.state)
    (by decide +kernel)
  rw [Bool.and_eq_true, decide_eq_true_eq] at h
  have hlate : ¬sm.RejectsLate plain (.pegOutGraphConfirmation (confirmedClaim 0 2 1) 101) := by
    unfold RejectsLate
    cases hs : sm.state.state <;> simp_all [isDeposited]
  have hclean := (rejection_clean_iff hr _).mpr hlate
  refine ⟨sm, hr, ?_⟩
  cases ho : sm.processContractEvent plain
      (.pegOutGraphConfirmation (confirmedClaim 0 2 1) 101) with
  | err sm' e => exact ⟨sm', e, rfl, by simpa only [ho, Outcome.errLeaves_err] using hclean⟩
  | ok | panic => simp [ho] at h

/-- A contract without signatures rejects the block that ends the timelock of its own claim, and
has recorded the height all the same. -/
theorem block_without_signatures_consumed : ∃ sm,
    Reachable plain (contract oneOperator) sm ∧
    ∃ sm' e, sm.processContractEvent plain (.block 102) = .err sm' e ∧ sm'.state ≠ sm.state := by
  obtain ⟨sm, hr, h⟩ := exists_reachable plain (contract oneOperator)
    [setup 0 2, .depositConfirmation (depositTx 1).tx.unsignedTx,
      assignment 0 0 1, .pegOutGraphConfirmation (fulfillment 0 0 1) 101,
      .block 101, .pegOutGraphConfirmation (confirmedClaim 0 2 1) 101]
    (fun sm => (sm.processContractEvent plain (.block 102)).IsErr &&
      (sm.processContractEvent plain (.block 102)).next.any fun r =>
        r.1.state.blockHeight ≠ sm.state.blockHeight)
    (by decide +kernel)
  refine ⟨sm, hr, ?_⟩
  cases ho : sm.processContractEvent plain (.block 102) with
  | err sm' e =>
    refine ⟨sm', e, rfl, fun heq => ?_⟩
    simp [ho, heq, Outcome.next] at h
  | ok | panic => simp [ho] at h

end ContractSM

end StrataBridge
