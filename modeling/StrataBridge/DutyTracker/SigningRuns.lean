import StrataBridge.DutyTracker.SigningState

/-!
# Setting a contract up without a panic

Until its deposit is confirmed, a contract takes whatever the operators send: announcements,
nonces, partial signatures. Its handlers look up what they expect to find, and panic when it is
missing. They find it as long as announcements are apart and partial signatures are checked
against current nonces. When no announcement empties an aggregated session, the nonces are always
current, and every partial signature that is kept verifies against the sum of its session.
-/

namespace StrataBridge

open Rust Transition Linear BTreeMap Requested

variable {ev : ContractEvent}

def ContractEvent.isOnboarding : ContractEvent → Bool
  | .depositSetup .. | .graphNonces .. | .graphSigs .. | .rootNonce .. | .rootSig .. | .block _
  | .depositConfirmation _ => true
  | _ => false

namespace Requested

variable {env : Env} {cfg : ContractCfg} {r : Requested} {pog : PogCache}

theorem process_not_isPanic {o : Requested.Reply} (hmusig : env.Musig2 cfg.operatorTable.btcKeys)
    (hsigs : ∀ signer claim partials, ev.sender = some signer →
      (∃ signatures, ev = .graphSigs signer claim signatures) →
      ¬(r.processGraphSignatures env cfg pog signer claim partials).IsPanic)
    (ho : r.process env cfg pog ev = some o) : ¬o.IsPanic := by
  cases reaction ho with
  | @partialsPanic signer claim signatures =>
    simp only [process, Option.some.injEq] at ho
    split at ho
    · cases ho
    · exact ho ▸ hsigs signer claim _ rfl ⟨signatures, rfl⟩
  | rootPanics hctx =>
    obtain ⟨ctx, hsome⟩ := hmusig.context (cfg.depositTx.tx.witnesses.get 0)
    cases hctx.symm.trans hsome
  | _ => exact id

end Requested

namespace ContractSM

variable {env : Env} {sm : ContractSM}

/-! ### Conditions on events -/

def AnnouncedApart (env : Env) (sm : ContractSM) : ContractEvent → Prop
  | .depositSetup signer operatorPubkey stakeHash stakeTxid wotsKeys =>
    match sm.state.state with
    | .requested r =>
      let inputs := (r.upsertInput signer operatorPubkey stakeHash stakeTxid
        wotsKeys).pegOutGraphInputs
      inputs.size = sm.cfg.operatorTable.cardinality → Requested.Apart env sm.cfg sm.pog inputs
    | _ => True
  | _ => True

/-- Partial signatures are checked against the sum of the nonces in their session. -/
def CheckedCurrent (sm : ContractSM) : ContractEvent → Prop
  | .graphSigs _ claim _ =>
    match sm.state.state with
    | .requested r => (ContractState.firstOwner r.claimTxids claim).isSome →
        r.NoncesCurrent sm.cfg.operatorTable.cardinality claim
    | _ => True
  | _ => True

instance (env : Env) (sm : ContractSM) (ev : ContractEvent) :
    Decidable (sm.AnnouncedApart env ev) := by
  obtain ⟨_, ⟨_, state⟩, _⟩ := sm
  rcases ev with ⟨⟩ <;> try exact instDecidableTrue
  rcases state with ⟨⟩ <;>
    first | exact instDecidableTrue | exact inferInstanceAs (Decidable (_ → _))

instance (sm : ContractSM) (ev : ContractEvent) : Decidable (sm.CheckedCurrent ev) := by
  obtain ⟨_, ⟨_, state⟩, _⟩ := sm
  rcases ev with ⟨⟩ <;> try exact instDecidableTrue
  rcases state with ⟨⟩ <;>
    first | exact instDecidableTrue | exact inferInstanceAs (Decidable (_ → _))

/-! ### One event -/

def InOrder (env : Env) (sm : ContractSM) : Prop :=
  ∀ r, sm.state.state = .requested r → r.InOrder env sm.cfg sm.pog

/-- **Every handler of the requested phase keeps the order.** -/
theorem InOrder.process (h : sm.InOrder env) (htable : sm.FromTable (.event ev))
    (hapart : sm.AnnouncedApart env ev) (hcurrent : sm.CheckedCurrent ev) {r : Requested}
    {o : Requested.Reply}
    (hs : sm.state.state = .requested r) (ho : r.process env sm.cfg sm.pog ev = some o) :
    o.Leaves fun p => p.1.InOrder env sm.cfg p.2 := by
  have hr := h r hs
  cases Requested.reaction ho with
  | rejects | passes => exact hr
  | announces hr' hsize => exact hr.announced (htable _ rfl) hr' hsize
  | generates hr' hsize =>
    rw [AnnouncedApart, hs] at hapart
    subst hr'
    exact hr.generated (htable _ rfl) rfl hsize (hapart hsize)
  | nonces hsession hnew => exact hr.insertNonces hsession hnew (htable _ rfl) _
  | lastNonces hsession hnew hr' _ hduties | noncesFail hsession hnew hr' _ hduties =>
    subst hr'
    exact (hr.insertNonces hsession hnew (htable _ rfl) _).sumNonces hduties
  | partials hsession _ hpass =>
    rw [CheckedCurrent, hs] at hcurrent
    exact (hr.insertPartials_of_pass (htable _ rfl) hcurrent hsession hpass).1
  | lastPartials hsession _ hpass hr' =>
    rw [CheckedCurrent, hs] at hcurrent
    subst hr'
    exact (hr.insertPartials_of_pass (htable _ rfl) hcurrent hsession hpass).1.of_eq
      ⟨⟨rfl, rfl, rfl⟩, rfl, rfl⟩ rfl
  | partialsPanic | rootPanics => trivial
  | _ => exact hr.of_eq ⟨⟨rfl, rfl, rfl⟩, rfl, rfl⟩ rfl

theorem InOrder.step (h : sm.InOrder env) (htable : sm.FromTable (.event ev))
    (hapart : sm.AnnouncedApart env ev) (hcurrent : sm.CheckedCurrent ev) {sm' : ContractSM}
    {ds : List OperatorDuty} (hstep : sm.step env ev = some (sm', ds)) : sm'.InOrder env := by
  have hcfg := cfg_of_step hstep
  rw [InOrder, hcfg]
  exact requested_invariant (Q := fun r pog => r.InOrder env sm.cfg pog) hstep h
    fun r o hs _ ho => h.process htable hapart hcurrent hs ho

theorem inOrder_new (env : Env) (cfg : ContractCfg) (height deadline : BitcoinBlockHeight) :
    (ContractSM.new cfg height deadline).InOrder env := by
  intro r hr
  cases hr
  exact ⟨⟨by simp, by simp, by simp⟩, by simp, .inl rfl⟩

/-- **A contract in order does not panic on an event of the setup.** -/
theorem InOrder.not_isPanic (h : sm.InOrder env)
    (hmusig : env.Musig2 sm.cfg.operatorTable.btcKeys) (hev : ev.isOnboarding = true)
    (htable : sm.FromTable (.event ev)) (hcurrent : sm.CheckedCurrent ev) :
    ¬(sm.processContractEvent env ev).IsPanic := by
  refine sm.of_reaction env (P := fun o => ¬o.IsPanic) fun o ho => ?_
  cases ho with
  | requested hs ho =>
    rw [Outcome.isPanic_embed]
    refine process_not_isPanic hmusig ?_ ho
    rintro signer claim partials hsender ⟨signatures, rfl⟩
    rw [CheckedCurrent, hs] at hcurrent
    exact (h _ hs).processGraphSignatures_not_isPanic (htable signer hsender) hcurrent hmusig
  | depositPanics hs hd =>
    obtain ⟨graphs, hgraphs⟩ := (h _ hs).intoGraphData_ok
    cases hd.symm.trans hgraphs
  | confirmationPanics => cases hev
  | _ => exact id

/-! ### Runs -/

/-- An event of the setup as the contract can take it: from an operator of the table, with
announcements that are apart and partial signatures that are checked against current nonces. -/
structure Onboards (env : Env) (sm : ContractSM) (ev : ContractEvent) : Prop where
  isOnboarding : ev.isOnboarding = true
  fromTable : sm.FromTable (.event ev)
  announcedApart : sm.AnnouncedApart env ev
  checkedCurrent : sm.CheckedCurrent ev

instance (env : Env) (sm : ContractSM) (ev : ContractEvent) : Decidable (sm.Onboards env ev) :=
  decidable_of_iff (ev.isOnboarding = true ∧ sm.FromTable (.event ev) ∧
      sm.AnnouncedApart env ev ∧ sm.CheckedCurrent ev)
    ⟨fun h => ⟨h.1, h.2.1, h.2.2.1, h.2.2.2⟩,
      fun h => ⟨h.isOnboarding, h.fromTable, h.announcedApart, h.checkedCurrent⟩⟩

/-- **Setting a contract up does not panic.** In a run of announcements, nonces, partial
signatures, blocks and deposit confirmations from operators of the table, as long as announcements
leave the operators' data apart and partial signatures are checked against current nonces, no such
event makes the contract panic. -/
theorem onboarding_never_panics {cfg : ContractCfg} {height deadline : BitcoinBlockHeight}
    (hmusig : env.Musig2 cfg.operatorTable.btcKeys)
    (hreach : Transition.Reachable (step env) (fun sm ev => sm.Onboards env ev)
      (.new cfg height deadline) sm) {ev : ContractEvent} (hev : sm.Onboards env ev) :
    ¬(sm.processContractEvent env ev).IsPanic := by
  have hinv := hreach.invariant (I := fun sm => sm.cfg = cfg ∧ sm.InOrder env)
    ⟨rfl, inOrder_new env cfg height deadline⟩ fun sm ev sm' ds hI hG hs => by
      obtain ⟨rfl, horder⟩ := hI
      exact ⟨cfg_of_step hs, horder.step hG.fromTable hG.announcedApart hG.checkedCurrent hs⟩
  obtain ⟨rfl, horder⟩ := hinv
  exact horder.not_isPanic hmusig hev.isOnboarding hev.fromTable hev.checkedCurrent

private def linearSolo : List ContractEvent :=
  [setup 0 2, nonces 0 (claimTxid 0 2 1) 1]

private def linearShares : ContractEvent :=
  sigs oneOperator [1] 0 (graph 0 2 1)

/-- The last partial signatures, and their aggregation. -/
theorem last_partials_do_not_panic : ∃ sm,
    Transition.Reachable (step plain) (fun sm ev => sm.Onboards plain ev)
      (contract oneOperator) sm ∧
    ¬(sm.processContractEvent plain linearShares).IsPanic := by
  obtain ⟨sm, ds, hrun, h⟩ := exists_run_of_exec (step plain)
    (fun sm ev => sm.Onboards plain ev) (contract oneOperator) linearSolo
    (fun sm _ => sm.Onboards plain linearShares) (by decide +kernel)
  have hkeys : (Linear.cfg oneOperator 0 1).operatorTable.btcKeys ≠ [] := by decide +kernel
  exact ⟨sm, ⟨ds, hrun⟩, onboarding_never_panics (musig2 _ hkeys) ⟨ds, hrun⟩ (of_decide_eq_true h)⟩

/-- Operator 1 announces the data of operator 0, and the confirmation of the deposit panics. -/
theorem copied_setup_panics : ∃ sm,
    Transition.Reachable (step plain)
      (fun sm ev => ev.isOnboarding = true ∧ sm.FromTable (.event ev)) (contract twoOperators) sm ∧
    (sm.processContractEvent plain (.depositConfirmation (depositTx 1).tx.unsignedTx)).IsPanic := by
  exact exists_reachable_of_decide
    [setup 0 2, .depositSetup ⟨11⟩ ⟨30⟩ ⟨40⟩ (stakeTxid 2) (wotsKeys 0)] (by decide +kernel)

/-! ### Partial signatures on record -/

theorem checkedCurrent_of_kept {ds : List OperatorDuty} (h : SignedOnce ds sm)
    (ev : ContractEvent) : sm.CheckedCurrent ev := by
  cases ev with
  | graphSigs signer claim signatures =>
    rw [CheckedCurrent]
    split
    next r hs =>
      intro howner session aggnonces hsession _ hagg
      obtain ⟨owner, howner⟩ := Option.isSome_iff_exists.mp howner
      obtain ⟨-, session', hsession', -, rfl⟩ := (h.kept r hs).current owner claim aggnonces
        (ContractState.get_of_firstOwner howner) hagg
      rw [Option.some.inj (hsession.symm.trans hsession')]
    · trivial
  | _ => trivial

/-- **The partial signatures on record verify.** In a run of events from operators of the table in
which announcements leave the operators' data apart and none empties an aggregated session, the
aggregated nonces of a claim with partial signatures are the sums of the nonces in its session,
and every partial signature verifies under them, under the nonces of its signer and for the graph
that owns the claim. -/
theorem partials_verified {cfg : ContractCfg} {height deadline : BitcoinBlockHeight}
    (hreach : Transition.Reachable (step env) (fun sm ev => sm.FromTable (.event ev) ∧
      sm.KeepsSessions env (.event ev) ∧ sm.AnnouncedApart env ev) (.new cfg height deadline) sm)
    {r : Requested} (hs : sm.state.state = .requested r) {claim : Txid}
    {partials : Session PartialSignature} (hpartials : r.graphPartials[claim]? = some partials)
    {op : P2POperatorPubKey} {p : PogMusigF PartialSignature} (hp : partials[op]? = some p) :
    ∃ nonces n, r.graphNonces[claim]? = some nonces ∧ nonces[op]? = some n ∧
      r.aggNonces[claim]? = some (aggregateSession nonces) ∧
      ∀ (owner : P2POperatorPubKey) input, r.claimTxids[owner]? = some claim →
        r.pegOutGraphInputs[owner]? = some input →
        Verified env sm.cfg.operatorTable (sm.cfg.cachedGraph env sm.pog input) op n p
          (aggregateSession nonces) := by
  have hinit : SignedOnce [] (.new cfg height deadline) :=
    ⟨fun r hr => by cases hr; exact ⟨by simp, by simp⟩, by simp, by simp⟩
  obtain ⟨ds, hrun⟩ := hreach
  obtain ⟨-, horder⟩ := hrun.invariant (I := fun ds sm => SignedOnce ds sm ∧ sm.InOrder env)
    ⟨hinit, inOrder_new env cfg height deadline⟩ fun ds sm ev sm' ds' hI hG hstep =>
      ⟨hI.1.event hG.1 hG.2.1 hstep, hI.2.step hG.1 hG.2.2 (checkedCurrent_of_kept hI.1 ev) hstep⟩
  have hr := horder r hs
  have hop : op ∈ partials := mem_iff_exists.mpr ⟨p, hp⟩
  obtain ⟨nonces, hnonces, hsize, hagg⟩ := hr.summed claim partials op hpartials hop
  obtain ⟨n, hn⟩ := mem_iff_exists.mp <| mem_of_size_eq
    (hr.signers claim nonces hnonces) (hsize.trans OperatorTable.size_p2pKey.symm) op
    (hr.partialSigners claim partials hpartials op hop)
  refine ⟨nonces, n, hnonces, hn, hagg, fun owner input howner hinput => ?_⟩
  have hready : r.Ready env sm.cfg sm.pog := by
    refine hr.ready.resolve_left fun hempty => ?_
    simp [hempty] at howner
  obtain rfl : sm.cfg.builtClaim env input = claim := by
    have hclaim := hready.claims owner
    rw [howner, hinput] at hclaim
    exact (Option.some.inj hclaim).symm
  rw [hready.apart.cachedGraph hinput]
  exact hready.verified owner input hinput partials nonces hpartials hnonces op p n hp hn

private def linearClaim : Txid := claimTxid 0 2 1

/-- The partial signatures of operator 0 for its own claim are on record, and the aggregated nonces
and the session of the claim satisfy `p`. -/
private def linearRecord (sm : ContractSM)
    (p : Option (PogMusigF AggNonce) → Session PubNonce → Bool) : Bool :=
  match sm.state.state with
  | .requested r => (r.graphPartials[linearClaim]?).any fun partials =>
      (partials[(⟨10⟩ : P2POperatorPubKey)]?).isSome &&
        (r.graphNonces[linearClaim]?).any (p r.aggNonces[linearClaim]?)
  | _ => false

theorem exists_of_linearRecord {p : Option (PogMusigF AggNonce) → Session PubNonce → Bool}
    (h : linearRecord sm p = true) : ∃ r partials nonces share,
      sm.state.state = .requested r ∧ r.graphPartials[linearClaim]? = some partials ∧
      partials[(⟨10⟩ : P2POperatorPubKey)]? = some share ∧
      r.graphNonces[linearClaim]? = some nonces ∧ p r.aggNonces[linearClaim]? nonces = true := by
  rw [linearRecord] at h
  split at h
  next r hr =>
    obtain ⟨partials, hpartials, h⟩ := (Option.any_eq_true _ _).mp h
    obtain ⟨hshare, hnonces⟩ := Bool.and_eq_true_iff.mp h
    obtain ⟨share, hshare⟩ := Option.isSome_iff_exists.mp hshare
    obtain ⟨nonces, hnonces, hp⟩ := (Option.any_eq_true _ _).mp hnonces
    exact ⟨r, partials, nonces, share, hr, hpartials, hshare, hnonces, hp⟩
  · cases h

/-- The partial signatures of the only operator verify under its nonces. -/
theorem partials_verified_after_exchange : ∃ sm r partials share nonces n,
    Transition.Reachable (step plain) (fun sm ev => sm.FromTable (.event ev) ∧
        sm.KeepsSessions plain (.event ev) ∧ sm.AnnouncedApart plain ev) (contract oneOperator) sm ∧
    sm.state.state = .requested r ∧ r.graphPartials[linearClaim]? = some partials ∧
    partials[(⟨10⟩ : P2POperatorPubKey)]? = some share ∧
    r.graphNonces[linearClaim]? = some nonces ∧
    r.aggNonces[linearClaim]? = some (aggregateSession nonces) ∧
    ∀ (owner : P2POperatorPubKey) input, r.claimTxids[owner]? = some linearClaim →
      r.pegOutGraphInputs[owner]? = some input →
      Verified plain sm.cfg.operatorTable (sm.cfg.cachedGraph plain sm.pog input) ⟨10⟩
        n share (aggregateSession nonces) := by
  obtain ⟨sm, ds, hrun, h⟩ := exists_run_of_exec (step plain)
    (fun sm ev => sm.FromTable (.event ev) ∧ sm.KeepsSessions plain (.event ev) ∧
      sm.AnnouncedApart plain ev) (contract oneOperator) (linearSolo ++ [linearShares])
    (fun sm _ => linearRecord sm fun _ _ => true) (by decide +kernel)
  obtain ⟨r, partials, -, share, hr, hpartials, hshare, -⟩ := exists_of_linearRecord h
  obtain ⟨nonces, n, hnonces, -, hagg, hverified⟩ :=
    partials_verified ⟨ds, hrun⟩ hr hpartials hshare
  exact ⟨sm, r, partials, share, nonces, n, ⟨ds, hrun⟩, hr, hpartials, hshare, hnonces, hagg,
    hverified⟩

/-- A repeated announcement empties the sessions. With other nonces of operator 1 in the session,
the partial signatures of operator 0 are still checked against the old sum, and kept. -/
theorem partials_kept_under_stale_nonces : ∃ sm r partials share nonces,
    Transition.Reachable (step plain) (fun sm ev => sm.FromTable (.event ev))
      (contract twoOperators) sm ∧
    sm.state.state = .requested r ∧ r.graphPartials[linearClaim]? = some partials ∧
    partials[(⟨10⟩ : P2POperatorPubKey)]? = some share ∧
    r.graphNonces[linearClaim]? = some nonces ∧
    r.aggNonces[linearClaim]? ≠ some (aggregateSession nonces) := by
  obtain ⟨sm, ds, hrun, h⟩ := exists_run_of_exec (step plain)
    (fun sm ev => sm.FromTable (.event ev)) (contract twoOperators)
    [setup 0 2, setup 1 3, nonces 0 linearClaim 1,
      nonces 0 (claimTxid 1 3 1) 1, nonces 1 linearClaim 2,
      nonces 1 (claimTxid 1 3 1) 2, setup 1 3, nonces 0 linearClaim 1,
      nonces 1 linearClaim 5,
      sigs twoOperators [1, 2] 0 (graph 0 2 1)]
    (fun sm _ => linearRecord sm fun aggnonces nonces =>
      aggnonces ≠ some (aggregateSession nonces)) (by decide +kernel)
  obtain ⟨r, partials, nonces, share, hr, hpartials, hshare, hnonces, hstale⟩ :=
    exists_of_linearRecord h
  exact ⟨sm, r, partials, share, nonces, ⟨ds, hrun⟩, hr, hpartials, hshare, hnonces,
    of_decide_eq_true hstale⟩

end ContractSM

end StrataBridge
