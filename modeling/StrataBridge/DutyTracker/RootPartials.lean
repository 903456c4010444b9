import StrataBridge.DutyTracker.Aggregation
import StrataBridge.DutyTracker.RootSession

/-!
# The joint signature of the deposit

The last partial signature for the deposit leads to the duty to publish the deposit, with the
partial signatures of all operators in the order of their indices. Each of them was checked when
it came, against the sum of the nonces that were there at that moment. As long as partial
signatures come after all nonces, that is the sum the duty carries, and the joint signature of the
deposit can be made.

## References

* `crates/duty-tracker/src/contract_state_machine.rs`, lines 2182–2283;
  `crates/duty-tracker/src/executors/deposit.rs`, lines 548–602
-/

namespace StrataBridge

open Rust Transition Linear BTreeMap OperatorTable

/-! ### Publishing the deposit -/

structure SignedDeposit where
  unsignedTx : Transaction
  signature : TaprootSignature
  witness : TaprootWitness
deriving DecidableEq

/-- `handle_publish_deposit` (`deposit.rs`, lines 548–594), up to the broadcast of the signed
transaction. -/
def handlePublishDeposit (env : Env) (musigPubkeys : List PublicKey) (depositTx : DepositTx)
    (partials : List PartialSignature) (aggnonce : AggNonce) : MayPanic SignedDeposit :=
  match env.createAggCtx musigPubkeys (depositTx.tx.witnesses.get 0) with
  | none => .error "must create agg ctx"
  | some ctx =>
    match env.aggregatePartialSignatures ctx aggnonce partials
      ((depositTx.tx.sighashes env).get 0) with
    | none => .error "partial signatures must be valid"
    | some sig => .ok
        { unsignedTx := depositTx.tx.unsignedTx
          signature := ⟨sig, depositTx.tx.sighashTypes.get 0⟩
          witness := depositTx.tx.witnesses.get 0 }

/-! ### What is collected for the deposit -/

def VerifiesRoot (env : Env) (cfg : ContractCfg) (aggnonce : AggNonce) (pubkey : PublicKey)
    (nonce : PubNonce) (sig : PartialSignature) : Prop :=
  ∃ ctx, env.createAggCtx cfg.operatorTable.btcKeys (cfg.depositTx.tx.witnesses.get 0) = some ctx ∧
    env.verifyPartial ctx sig aggnonce pubkey nonce (Requested.depositSighash env cfg) = true

namespace Requested

variable {env : Env} {cfg : ContractCfg} {r : Requested} {pog : PogCache}

/-- Only operators contribute to the deposit, and partial signatures are there only once all nonces
are, under whose sum they verify. -/
structure RootInOrder (env : Env) (cfg : ContractCfg) (r : Requested) : Prop where
  noncesFrom : r.RootNoncesFrom cfg.operatorTable
  partialsFrom : ∀ k ∈ r.rootPartials, k ∈ cfg.operatorTable.p2pKey
  complete : ∀ k ∈ r.rootPartials, r.rootNonces.size = cfg.operatorTable.cardinality
  verified : ∀ (k : P2POperatorPubKey) sig, r.rootPartials[k]? = some sig → ∃ nonce pubkey,
    r.rootNonces[k]? = some nonce ∧ cfg.operatorTable.p2pKeyToBtcKey k = some pubkey ∧
    VerifiesRoot env cfg (AggNonce.sum (vals r.rootNonces)) pubkey nonce sig

theorem RootInOrder.of_sameRoot {r' : Requested} (h : r.RootInOrder env cfg)
    (hsame : r.SameRoot r') : r'.RootInOrder env cfg := by
  refine ⟨?_, ?_, ?_, ?_⟩
  · rw [RootNoncesFrom, hsame.nonces]
    exact h.noncesFrom
  · rw [hsame.partials]
    exact h.partialsFrom
  · rw [hsame.partials, hsame.nonces]
    exact h.complete
  · rw [hsame.partials, hsame.nonces]
    exact h.verified

theorem RootInOrder.insertNonce (h : r.RootInOrder env cfg) {op : P2POperatorPubKey}
    (hop : op ∈ cfg.operatorTable.p2pKey) (hnew : op ∉ r.rootNonces) (nonce : PubNonce) :
    RootInOrder env cfg { r with rootNonces := r.rootNonces.insert op nonce } := by
  have hnone (k : P2POperatorPubKey) : k ∉ r.rootPartials := fun hk =>
    hnew (mem_of_size_eq h.noncesFrom ((h.complete k hk).trans size_p2pKey.symm) op hop)
  refine ⟨h.noncesFrom.insert hop nonce, h.partialsFrom, fun k hk => absurd hk (hnone k),
    fun k sig hk => absurd (mem_iff_exists.mpr ⟨sig, hk⟩) (hnone k)⟩

/-- The duty to publish the deposit carries the partial signatures of all operators in the order of
their indices, and the sum of their nonces. -/
def PublishesAll (cfg : ContractCfg) (r : Requested) : OperatorDuty → Prop
  | .publishDeposit depositTx partials aggnonce =>
    depositTx = cfg.depositTx ∧ partials = inIndexOrder cfg.operatorTable r.rootPartials ∧
      aggnonce = AggNonce.sum (vals r.rootNonces) ∧
      r.rootPartials.size = cfg.operatorTable.cardinality
  | _ => True

theorem RootInOrder.insertPartial (h : r.RootInOrder env cfg) {op : P2POperatorPubKey}
    {sig : PartialSignature} (hop : op ∈ cfg.operatorTable.p2pKey)
    (hfirst : op ∈ r.rootPartials ∨ r.rootNonces.size = cfg.operatorTable.cardinality)
    (hentered : r.EntersRootPartial env cfg op sig) :
    RootInOrder env cfg { r with rootPartials := r.rootPartials.insert op sig } := by
  obtain ⟨hnew, ctx, pubkey, nonce, hctx, hpubkey, hnonce, hvalid⟩ := hentered
  refine ⟨h.noncesFrom, fun k hk => ?_, fun _ _ => hfirst.resolve_left hnew, fun k sig' hk => ?_⟩
  · rcases Std.ExtTreeMap.mem_insert.mp hk with hcmp | hk
    · rwa [← Std.LawfulEqOrd.eq_of_compare hcmp]
    · exact h.partialsFrom k hk
  · rw [get_insert] at hk
    split_ifs at hk with heq
    · cases hk
      subst heq
      exact ⟨nonce, pubkey, hnonce, hpubkey, ctx, hctx, hvalid⟩
    · exact h.verified k sig' hk

theorem RootInOrder.process (h : r.RootInOrder env cfg) {ev : ContractEvent} {o : Requested.Reply}
    (ho : r.process env cfg pog ev = some o)
    (htable : ∀ op, ev.sender = some op → op ∈ cfg.operatorTable.p2pKey)
    (hfirst : ∀ op sig, ev = .rootSig op sig →
      op ∈ r.rootPartials ∨ r.rootNonces.size = cfg.operatorTable.cardinality) :
    o.Yields fun p ds => p.1.RootInOrder env cfg ∧ ∀ d ∈ ds, p.1.PublishesAll cfg d := by
  cases reaction ho with
  | rejects | passes => exact ⟨h, by simp⟩
  | rootNonce hnew => exact ⟨h.insertNonce (htable _ rfl) hnew _, by simp⟩
  | lastRootNonce hnew hins =>
    subst hins
    exact ⟨h.insertNonce (htable _ rfl) hnew _, by simp [PublishesAll]⟩
  | rootPartial hentered =>
    exact ⟨h.insertPartial (htable _ rfl) (hfirst _ _ rfl) hentered, by simp⟩
  | lastRootPartial hentered hins hall =>
    subst hins
    refine ⟨h.insertPartial (htable _ rfl) (hfirst _ _ rfl) hentered, ?_⟩
    exact List.forall_mem_singleton.mpr ⟨rfl, rfl, rfl, hall⟩
  | partialsPanic | rootPanics => trivial
  | _ =>
    have hsame := process_sameRoot ho (by simp) (by simp)
    have hemit := process_emits ho
    exact ⟨h.of_sameRoot hsame, fun d hd => by cases d <;> first | trivial | cases hemit _ hd⟩

private theorem forall₂_filterMap {α β : Type} {R : α → β → Prop} {f : α → Option β} {l : List α}
    (h : ∀ a ∈ l, ∃ b, f a = some b ∧ R a b) : List.Forall₂ R l (l.filterMap f) := by
  induction l with
  | nil => exact .nil
  | cons a l ih =>
    obtain ⟨b, hb, hR⟩ := h a (by simp)
    rw [List.filterMap_cons_some hb]
    exact .cons hR (ih fun a ha => h a (by simp [ha]))

/-- **Partial signatures of all operators verify under the sum of all nonces, and join.** -/
theorem RootInOrder.aggregates (h : r.RootInOrder env cfg)
    (hmusig : env.Musig2 cfg.operatorTable.btcKeys)
    (hall : r.rootPartials.size = cfg.operatorTable.cardinality) :
    cfg.operatorTable.SumOfAll r.rootNonces (AggNonce.sum (vals r.rootNonces)) ∧
    List.Forall₂ (fun (e : P2POperatorPubKey × PublicKey) sig =>
      r.rootPartials[e.1]? = some sig ∧ ∃ nonce, r.rootNonces[e.1]? = some nonce ∧
        VerifiesRoot env cfg (AggNonce.sum (vals r.rootNonces)) e.2 nonce sig)
      (vals cfg.operatorTable.idxKey) (inIndexOrder cfg.operatorTable r.rootPartials) ∧
    ∃ signed, handlePublishDeposit env cfg.operatorTable.btcKeys cfg.depositTx
      (inIndexOrder cfg.operatorTable r.rootPartials)
      (AggNonce.sum (vals r.rootNonces)) = .ok signed := by
  have hmem := mem_of_size_eq h.partialsFrom (hall.trans size_p2pKey.symm)
  have hone : ∀ e ∈ vals cfg.operatorTable.idxKey, ∃ nonce sig,
      r.rootNonces[e.1]? = some nonce ∧ r.rootPartials[e.1]? = some sig ∧
        VerifiesRoot env cfg (AggNonce.sum (vals r.rootNonces)) e.2 nonce sig := by
    intro e he
    obtain ⟨i, hi⟩ := mem_vals.mp he
    obtain ⟨sig, hsig⟩ := mem_iff_exists.mp (hmem e.1 (mem_p2pKey.mpr ⟨i, e.2, hi⟩))
    obtain ⟨nonce, pubkey, hnonce, hpubkey, hvalid⟩ := h.verified e.1 sig hsig
    rw [p2pKeyToBtcKey_eq_some.mpr ⟨i, hi⟩] at hpubkey
    cases hpubkey
    exact ⟨nonce, sig, hnonce, hsig, hvalid⟩
  have hpov := hmem _ povP2pKey_mem
  refine ⟨h.noncesFrom.sumOfAll (h.complete _ hpov), ?_, ?_⟩
  · rw [inIndexOrder_eq]
    refine forall₂_filterMap fun e he => ?_
    obtain ⟨nonce, sig, hnonce, hsig, hvalid⟩ := hone e he
    exact ⟨sig, hsig, hsig, nonce, hnonce, hvalid⟩
  · obtain ⟨ctx, hctx⟩ := hmusig.context (cfg.depositTx.tx.witnesses.get 0)
    obtain ⟨signers, hkeys, hnonces, hsigs, hvalid⟩ := exists_signers
      (N := fun k => r.rootNonces[k]?) (S := fun k => r.rootPartials[k]?)
      (vals cfg.operatorTable.idxKey) hone
    have hsum : AggNonce.sum (vals r.rootNonces) = AggNonce.sum (signers.map fun s => s.2.1) := by
      rw [hnonces]
      exact AggNonce.sum_perm (filterMap_idxKey_perm h.noncesFrom).symm
    have hshares : inIndexOrder cfg.operatorTable r.rootPartials =
        signers.map fun s => s.2.2 := by rw [hsigs, inIndexOrder_eq]
    rw [hsum] at hvalid ⊢
    obtain ⟨sig, hsig⟩ := hmusig.aggregates _ ctx ((cfg.depositTx.tx.sighashes env).get 0) signers
      (inIndexOrder cfg.operatorTable r.rootPartials) hctx hkeys (hshares ▸ List.Perm.refl _) <| by
        intro s hs
        obtain ⟨ctx', hctx', hverify⟩ := hvalid s hs
        obtain rfl := Option.some.inj (hctx.symm.trans hctx')
        exact hverify
    exact ⟨_, by rw [handlePublishDeposit, hctx]; dsimp only; rw [hsig]⟩

end Requested

/-! ### Runs -/

def ContractEvent.isRoot : ContractEvent → Bool
  | .rootNonce .. | .rootSig .. => true
  | _ => false

namespace ContractSM

variable {env : Env} {sm sm' : ContractSM}

/-- A partial signature for the deposit that is not there yet comes after the nonces of all
operators. -/
def RootNoncesFirst (sm : ContractSM) : ContractEvent → Prop
  | .rootSig op _ =>
    match sm.state.state with
    | .requested r => op ∈ r.rootPartials ∨
        r.rootNonces.size = sm.cfg.operatorTable.cardinality
    | _ => True
  | _ => True

instance (sm : ContractSM) (ev : ContractEvent) : Decidable (sm.RootNoncesFirst ev) := by
  obtain ⟨_, ⟨_, state⟩, _⟩ := sm
  rcases ev with ⟨⟩ <;> try exact instDecidableTrue
  rcases state with ⟨⟩ <;>
    first | exact instDecidableTrue | exact inferInstanceAs (Decidable (_ ∨ _))

def RootInOrder (env : Env) (sm : ContractSM) : Prop :=
  ∀ r, sm.state.state = .requested r → r.RootInOrder env sm.cfg

theorem RootInOrder.step (h : sm.RootInOrder env) {ev : ContractEvent} {ds : List OperatorDuty}
    (htable : sm.FromTable (.event ev)) (hfirst : sm.RootNoncesFirst ev)
    (hstep : sm.step env ev = some (sm', ds)) :
    sm'.RootInOrder env ∧ ∀ depositTx partials aggnonce,
      .publishDeposit depositTx partials aggnonce ∈ ds → ∃ r, sm'.state.state = .requested r ∧
        r.PublishesAll sm.cfg (.publishDeposit depositTx partials aggnonce) := by
  have hcfg := cfg_of_step hstep
  rw [RootInOrder, hcfg]
  rcases step_cases hstep with ⟨r, o, p, hs, ho, hnext, rfl⟩ | ⟨hsame, hother⟩
  · obtain ⟨horder, hall⟩ := ((h r hs).process ho htable fun op sig heq => by
      subst heq
      simpa only [RootNoncesFirst, hs] using hfirst).of_next hnext
    refine ⟨?_, fun depositTx partials aggnonce hd => ⟨p.1, rfl, hall _ hd⟩⟩
    rintro r' hr'
    cases hr'
    exact horder
  · exact ⟨fun r hr => h r (hsame r hr).1, fun _ _ _ hd => by cases hother _ hd⟩

/-- **The deposit can be published.** In a run of events from operators of the table in which
partial signatures for the deposit come after all nonces for it, a duty to publish the deposit
carries the sum of the nonces of all operators and, in the order of their indices, a partial
signature of every operator that verifies under it; so joining them does not panic. -/
theorem publishDeposit_aggregates {cfg : ContractCfg} {height deadline : BitcoinBlockHeight}
    (hmusig : env.Musig2 cfg.operatorTable.btcKeys)
    (hreach : Transition.Reachable (step env)
      (fun sm ev => sm.FromTable (.event ev) ∧ sm.RootNoncesFirst ev) (.new cfg height deadline) sm)
    {ev : ContractEvent} (htable : sm.FromTable (.event ev)) (hfirst : sm.RootNoncesFirst ev)
    {ds : List OperatorDuty} (hstep : sm.step env ev = some (sm', ds)) {depositTx : DepositTx}
    {partials : List PartialSignature} {aggnonce : AggNonce}
    (hd : .publishDeposit depositTx partials aggnonce ∈ ds) :
    ∃ r, sm'.state.state = .requested r ∧
      cfg.operatorTable.SumOfAll r.rootNonces aggnonce ∧
      List.Forall₂ (fun (e : P2POperatorPubKey × PublicKey) sig =>
        r.rootPartials[e.1]? = some sig ∧ ∃ nonce, r.rootNonces[e.1]? = some nonce ∧
          VerifiesRoot env cfg aggnonce e.2 nonce sig)
        (vals cfg.operatorTable.idxKey) partials ∧
      ∃ signed, handlePublishDeposit env cfg.operatorTable.btcKeys depositTx partials aggnonce =
        .ok signed := by
  have hinit : (ContractSM.new cfg height deadline).RootInOrder env := by
    intro r hr
    cases hr
    exact ⟨fun k hk => absurd hk Std.ExtTreeMap.not_mem_empty, by simp, by simp, by simp⟩
  obtain ⟨rfl, horder⟩ := hreach.invariant (I := fun sm => sm.cfg = cfg ∧ sm.RootInOrder env)
    ⟨rfl, hinit⟩ fun sm ev sm' ds hI hG hs => by
      obtain ⟨rfl, horder⟩ := hI
      exact ⟨cfg_of_step hs, (horder.step hG.1 hG.2 hs).1⟩
  obtain ⟨horder', hduty⟩ := horder.step htable hfirst hstep
  obtain ⟨r, hr, rfl, rfl, rfl, hall⟩ := hduty depositTx partials aggnonce hd
  have hcfg := cfg_of_step hstep
  have hr' := horder' r hr
  rw [hcfg] at hr'
  exact ⟨r, hr, hr'.aggregates hmusig hall⟩

private def publishedDeposit : OperatorDuty → Option (DepositTx × List PartialSignature × AggNonce)
  | .publishDeposit depositTx partials aggnonce => some (depositTx, partials, aggnonce)
  | _ => none

theorem exists_publishDeposit {ds : List OperatorDuty}
    {P : DepositTx × List PartialSignature × AggNonce → Bool}
    (h : (ds.findSome? publishedDeposit).any P = true) :
    ∃ depositTx partials aggnonce, .publishDeposit depositTx partials aggnonce ∈ ds ∧
      P (depositTx, partials, aggnonce) = true := by
  obtain ⟨⟨depositTx, partials, aggnonce⟩, hfind, hP⟩ := (Option.any_eq_true _ _).mp h
  obtain ⟨d, hd, hpublished⟩ := List.exists_of_findSome?_eq_some hfind
  cases d with
  | publishDeposit =>
    obtain ⟨rfl, rfl, rfl⟩ := hpublished
    exact ⟨_, _, _, hd, hP⟩
  | _ => cases hpublished

/-- Nonces and partial signatures of two operators, in order. -/
theorem publishDeposit_aggregates_in_order : ∃ sm sm' ev ds depositTx partials aggnonce,
    Transition.Reachable (step plain)
      (fun sm ev => sm.FromTable (.event ev) ∧ sm.RootNoncesFirst ev) (contract twoOperators) sm ∧
    sm.step plain ev = some (sm', ds) ∧
    .publishDeposit depositTx partials aggnonce ∈ ds ∧
    ∃ signed, handlePublishDeposit plain twoOperators.btcKeys depositTx partials
      aggnonce = .ok signed := by
  let ev : ContractEvent := .rootSig ⟨11⟩ (rootShare twoOperators 1 [1, 2] 1 2)
  obtain ⟨sm, ds, hrun, h⟩ := exists_run_of_exec (step plain)
    (fun sm ev => sm.FromTable (.event ev) ∧ sm.RootNoncesFirst ev) (contract twoOperators)
    [.rootNonce ⟨10⟩ ⟨1⟩, .rootNonce ⟨11⟩ ⟨2⟩, .rootSig ⟨10⟩ (rootShare twoOperators 1 [1, 2] 0 1)]
    (fun sm _ => (sm.FromTable (.event ev) ∧ sm.RootNoncesFirst ev) ∧
      (sm.step plain ev).any
        fun p => (p.2.findSome? publishedDeposit).any fun _ => true) (by decide +kernel)
  obtain ⟨⟨htable, hfirst⟩, h⟩ := of_decide_eq_true h
  obtain ⟨⟨sm', ds'⟩, hstep, h⟩ := (Option.any_eq_true _ _).mp h
  obtain ⟨depositTx, partials, aggnonce, hd, -⟩ := exists_publishDeposit h
  have hkeys : (Linear.cfg twoOperators 0 1).operatorTable.btcKeys ≠ [] := by decide +kernel
  obtain ⟨r, -, -, -, hjoin⟩ := publishDeposit_aggregates (musig2 _ hkeys) ⟨ds, hrun⟩ htable
    hfirst hstep hd
  exact ⟨sm, sm', ev, ds', depositTx, partials, aggnonce, ⟨ds, hrun⟩, hstep, hd, hjoin⟩

/-- The first operator signs before the nonce of the second one is there. Its partial signature is
taken, and with that of the second operator the deposit is to be published; but the two do not
join. -/
theorem early_partial_does_not_join : ∃ sm ds depositTx partials aggnonce,
    Run (step plain) (fun sm ev => ev.isRoot = true ∧ sm.FromTable (.event ev))
      (contract twoOperators) ds sm ∧
    .publishDeposit depositTx partials aggnonce ∈ ds ∧
    handlePublishDeposit plain twoOperators.btcKeys depositTx partials aggnonce =
      .error "partial signatures must be valid" := by
  obtain ⟨sm, ds, hrun, h⟩ := exists_run_of_exec (step plain)
    (fun sm ev => ev.isRoot = true ∧ sm.FromTable (.event ev)) (contract twoOperators)
    [.rootNonce ⟨10⟩ ⟨1⟩, .rootSig ⟨10⟩ (rootShare twoOperators 1 [1] 0 1),
      .rootNonce ⟨11⟩ ⟨2⟩, .rootSig ⟨11⟩ (rootShare twoOperators 1 [1, 2] 1 2)]
    (fun _ ds => (ds.findSome? publishedDeposit).any fun d =>
      handlePublishDeposit plain twoOperators.btcKeys d.1 d.2.1 d.2.2 =
        .error "partial signatures must be valid") (by decide +kernel)
  obtain ⟨depositTx, partials, aggnonce, hd, hjoin⟩ := exists_publishDeposit h
  exact ⟨sm, ds, depositTx, partials, aggnonce, hrun, hd, of_decide_eq_true hjoin⟩

end ContractSM

end StrataBridge
