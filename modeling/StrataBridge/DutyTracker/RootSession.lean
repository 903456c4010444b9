import StrataBridge.DutyTracker.Duties
import StrataBridge.Instance.Linear

/-!
# Signing the deposit under one aggregated nonce

The deposit transaction is signed jointly once every operator has sent a nonce for it. The
handler of nonces waits for the last one; the answer to a peer's request does not, and adds up
the nonces that are there. `ContractSM.RootNoncesComplete` asks for a complete set when a request
is answered; under it every duty to sign the deposit carries the sum of one nonce of every
operator, and always the same sum.
-/

namespace StrataBridge

open Rust Transition Linear BTreeMap List OperatorTable

variable {t : OperatorTable} {ev : ContractEvent} {o : Requested.Reply} {sm' : ContractSM}

variable {aggnonce : AggNonce} {r : Requested} {ds ds' : List OperatorDuty}

def OperatorDuty.freshRootSigning : OperatorDuty → Option AggNonce
  | .publishRootSignature _ aggnonce _ _ none => some aggnonce
  | _ => none

theorem OperatorDuty.exists_of_freshRootSigning {d : OperatorDuty}
    (h : d.freshRootSigning = some aggnonce) :
    ∃ requestTxid sighash witness,
      d = .publishRootSignature requestTxid aggnonce sighash witness none := by
  cases d with
  | publishRootSignature requestTxid aggnonce' sighash witness existing =>
    cases existing with
    | none =>
      cases h
      exact ⟨requestTxid, sighash, witness, rfl⟩
    | some _ => cases h
  | _ => cases h

/-- The nonces of a map, one of every operator of the table and no others, add up to the given
aggregated nonce. -/
def OperatorTable.SumOfAll (t : OperatorTable) (nonces : BTreeMap P2POperatorPubKey PubNonce)
    (aggnonce : AggNonce) : Prop :=
  (∀ k, k ∈ nonces ↔ k ∈ t.p2pKey) ∧ aggnonce = AggNonce.sum (vals nonces)

theorem OperatorTable.SumOfAll.card {nonces : BTreeMap P2POperatorPubKey PubNonce}
    (h : t.SumOfAll nonces aggnonce) : aggnonce.summands.card = t.cardinality := by
  obtain ⟨hmem, rfl⟩ := h
  have hkeys := congrArg length (keys_eq hmem)
  simp only [Std.ExtTreeMap.length_keys] at hkeys
  simp [AggNonce.sum, vals, Multiset.coe_card, hkeys, size_p2pKey]

namespace Requested

/-! ### Entries in the order of the operators -/

theorem inIndexOrder_eq {T : Type} (t : OperatorTable) (m : BTreeMap P2POperatorPubKey T) :
    inIndexOrder t m = (vals t.idxKey).filterMap fun e => m[e.1]? := by
  rw [inIndexOrder, btcKeys, filterMap_map]
  refine filterMap_congr fun e he => ?_
  obtain ⟨i, hi⟩ := mem_vals.mp he
  have h := (t.btcKey_iff i e.1 e.2).mpr hi
  simp [btcKeyToP2pKey, h]

theorem inIndexOrder_perm {T : Type} {m : BTreeMap P2POperatorPubKey T}
    (hmem : ∀ k ∈ m, k ∈ t.p2pKey) : (inIndexOrder t m).Perm (vals m) := by
  rw [inIndexOrder_eq]
  exact filterMap_idxKey_perm hmem

/-! ### The nonces for the deposit -/

variable {env : Env} {cfg : ContractCfg} {pog : PogCache}

structure SameRoot (r r' : Requested) : Prop where
  nonces : r'.rootNonces = r.rootNonces
  partials : r'.rootPartials = r.rootPartials

theorem process_sameRoot (ho : r.process env cfg pog ev = some o)
    (hnonce : ∀ op nonce, ev ≠ .rootNonce op nonce) (hsig : ∀ op sig, ev ≠ .rootSig op sig) :
    o.Leaves fun p => r.SameRoot p.1 := by
  cases reaction ho with
  | generates hr' =>
    subst hr'
    exact ⟨foldl_insertGraph_eq (f := rootNonces) (fun _ _ => rfl) _,
      foldl_insertGraph_eq (f := rootPartials) (fun _ _ => rfl) _⟩
  | announces hr' | lastNonces _ _ hr' | noncesFail _ _ hr' | lastPartials _ _ _ hr' =>
    subst hr'
    exact ⟨rfl, rfl⟩
  | rootNonce | lastRootNonce => exact absurd rfl (hnonce _ _)
  | rootPartial | lastRootPartial => exact absurd rfl (hsig _ _)
  | partialsPanic | rootPanics => trivial
  | _ => exact ⟨rfl, rfl⟩

theorem process_rootNonces (ho : r.process env cfg pog ev = some o)
    (hnonce : ∀ op nonce, ev ≠ .rootNonce op nonce) :
    o.Leaves fun p => p.1.rootNonces = r.rootNonces := by
  cases ev with
  | rootSig =>
    cases reaction ho with
    | rootPanics => trivial
    | _ => rfl
  | _ => exact (process_sameRoot ho hnonce (by simp)).mono fun _ h => h.nonces

def RootNoncesFrom (r : Requested) (t : OperatorTable) : Prop := ∀ k ∈ r.rootNonces, k ∈ t.p2pKey

theorem RootNoncesFrom.sumOfAll (h : r.RootNoncesFrom t)
    (hsize : r.rootNonces.size = t.cardinality) :
    t.SumOfAll r.rootNonces (AggNonce.sum (vals r.rootNonces)) := by
  refine ⟨fun k => ⟨h k, fun hk => ?_⟩, rfl⟩
  exact mem_of_size_eq h (by rw [hsize, size_p2pKey]) k hk

theorem RootNoncesFrom.insert (h : r.RootNoncesFrom t) {op : P2POperatorPubKey}
    (hop : op ∈ t.p2pKey) (nonce : PubNonce) :
    RootNoncesFrom { r with rootNonces := r.rootNonces.insert op nonce } t := by
  intro k hk
  rcases Std.ExtTreeMap.mem_insert.mp hk with hcmp | hk
  · rwa [← Std.LawfulEqOrd.eq_of_compare hcmp]
  · exact h k hk

/-- The nonces for the deposit after an event: a nonce is entered only while nonces are missing,
and for the operator that has sent it. -/
structure RootNoncesStep (t : OperatorTable) (r : Requested) (ev : ContractEvent)
    (r' : Requested) : Prop where
  signers : r'.RootNoncesFrom t
  grows : r'.rootNonces = r.rootNonces ∨ ∃ k ∈ t.p2pKey, k ∉ r.rootNonces
  sent : ∀ (k : P2POperatorPubKey) nonce, r'.rootNonces[k]? = some nonce →
    r.rootNonces[k]? = some nonce ∨ ev = .rootNonce k nonce

theorem RootNoncesFrom.unchanged {r' : Requested} (h : r.RootNoncesFrom t)
    (hsame : r'.rootNonces = r.rootNonces) : RootNoncesStep t r ev r' :=
  ⟨fun k hk => h k (hsame ▸ hk), .inl hsame, fun _ _ hk => .inl (hsame ▸ hk)⟩

theorem RootNoncesFrom.enter (h : r.RootNoncesFrom t) {op : P2POperatorPubKey}
    (hop : op ∈ t.p2pKey) (hnew : op ∉ r.rootNonces) (nonce : PubNonce) :
    RootNoncesStep t r (.rootNonce op nonce)
      { r with rootNonces := r.rootNonces.insert op nonce } := by
  refine ⟨h.insert hop nonce, .inr ⟨op, hop, hnew⟩, fun k nonce' hk => ?_⟩
  rw [get_insert] at hk
  split_ifs at hk with heq
  · cases hk
    exact .inr (by rw [heq])
  · exact .inl hk

/-- **The nonces after an event.** The last missing one leads to a duty that carries the sum of
all. -/
theorem RootNoncesFrom.process (h : r.RootNoncesFrom cfg.operatorTable)
    (ho : r.process env cfg pog ev = some o)
    (htable : ∀ op, ev.sender = some op → op ∈ cfg.operatorTable.p2pKey) :
    o.Yields fun p ds => RootNoncesStep cfg.operatorTable r ev p.1 ∧
      ∀ d ∈ ds, ∀ aggnonce, d.freshRootSigning = some aggnonce →
        cfg.operatorTable.SumOfAll p.1.rootNonces aggnonce := by
  cases reaction ho with
  | rejects | passes => exact ⟨h.unchanged rfl, by simp⟩
  | rootNonce hnew => exact ⟨h.enter (htable _ rfl) hnew _, by simp⟩
  | @lastRootNonce _ nonce _ hnew hins hall =>
    subst hins
    have hfrom := h.insert (htable _ rfl) nonce
    refine ⟨h.enter (htable _ rfl) hnew nonce, fun d hd aggnonce hf => ?_⟩
    obtain rfl := mem_singleton.mp hd
    cases hf
    rw [AggNonce.sum_perm (inIndexOrder_perm hfrom)]
    exact hfrom.sumOfAll hall
  | partialsPanic | rootPanics => trivial
  | _ =>
    have hsame := process_rootNonces ho (by simp)
    have hemit := process_emits ho
    refine ⟨h.unchanged hsame, fun d hd aggnonce hf => ?_⟩
    cases d <;> first | cases hf | cases hemit _ hd | cases hd

end Requested

/-! ### Requests -/

namespace ContractSM

/-- A request for a signature on the deposit is answered only when the nonces of all operators
are there, or with the signature that was made before. -/
def RootNoncesComplete (sm : ContractSM) : Input → Prop
  | .rootSignaturesRequest _ =>
    match sm.state.state with
    | .requested r => r.rootNonces.size = sm.cfg.operatorTable.cardinality ∨
        sm.cfg.operatorTable.povP2pKey ∈ r.rootPartials
    | _ => True
  | _ => True

instance (sm : ContractSM) (i : Input) : Decidable (sm.RootNoncesComplete i) := by
  obtain ⟨_, ⟨_, state⟩, _⟩ := sm
  rcases i with ⟨⟩ <;> try exact instDecidableTrue
  rcases state with ⟨⟩ <;>
    first | exact instDecidableTrue | exact inferInstanceAs (Decidable (_ ∨ _))

variable {env : Env} {sm : ContractSM}

theorem processRootSignaturesRequest_eq (hs : sm.state.state = .requested r)
    (hfrom : r.RootNoncesFrom sm.cfg.operatorTable) (requestTxid : Txid) :
    sm.processRootSignaturesRequest env requestTxid = .ok (some (.publishRootSignature requestTxid
      (AggNonce.sum (vals r.rootNonces)) (Requested.depositSighash env sm.cfg)
      (sm.cfg.depositTx.tx.witnesses.get 0) r.rootPartials[sm.cfg.operatorTable.povP2pKey]?)) := by
  obtain ⟨m, hm, hperm⟩ := convertMapP2pToBtc_ok hfrom
  rw [processRootSignaturesRequest]
  simp only [hs, hm, AggNonce.sum_perm hperm]

theorem freshRootSigning_publishRootSignature {requestTxid : Txid} {a : AggNonce}
    {sighash : Message} {witness : TaprootWitness} {existing : Option PartialSignature}
    (h : (OperatorDuty.publishRootSignature requestTxid aggnonce sighash witness
      existing).freshRootSigning = some a) : existing = none ∧ aggnonce = a := by
  cases existing with
  | none => exact ⟨rfl, Option.some.inj h⟩
  | some _ => cases h

/-- **When the answer to a request is a sum over all operators.** -/
theorem rootSignaturesRequest_sumOfAll_iff (hs : sm.state.state = .requested r)
    (hfrom : r.RootNoncesFrom sm.cfg.operatorTable) (requestTxid : Txid) :
    (∀ d aggnonce, sm.processRootSignaturesRequest env requestTxid = .ok (some d) →
      d.freshRootSigning = some aggnonce →
      sm.cfg.operatorTable.SumOfAll r.rootNonces aggnonce) ↔
    sm.RootNoncesComplete (.rootSignaturesRequest requestTxid) := by
  rw [processRootSignaturesRequest_eq hs hfrom]
  simp only [RootNoncesComplete, hs]
  constructor
  · intro h
    cases hown : r.rootPartials[sm.cfg.operatorTable.povP2pKey]? with
    | some sig => exact .inr (mem_iff_exists.mpr ⟨sig, hown⟩)
    | none =>
      left
      have hsum := h _ _ rfl (by rw [hown]; rfl)
      simpa [AggNonce.sum, vals] using hsum.card
  · rintro hcomplete d aggnonce hd hf
    cases hd
    obtain ⟨hnone, rfl⟩ := freshRootSigning_publishRootSignature hf
    rcases hcomplete with hsize | hown
    · exact hfrom.sumOfAll hsize
    · exact absurd hown (notMem_iff.mpr hnone)

/-! ### Runs -/

/-- The nonces of a map were sent to the contract, each by the operator it is entered for. -/
def Sent (history : List Input) (nonces : BTreeMap P2POperatorPubKey PubNonce) : Prop :=
  ∀ k nonce, nonces[k]? = some nonce → .event (.rootNonce k nonce) ∈ history

/-- All duties to sign the deposit afresh carry the sum of the same nonces, one of every operator
and each as its operator has sent it: those of the contract, as long as it is in the requested
phase. -/
structure DepositSignedOnce (ds : List OperatorDuty) (s : List Input × ContractSM) : Prop where
  signers : ∀ r, s.2.state.state = .requested r →
    r.RootNoncesFrom s.2.cfg.operatorTable ∧ Sent s.1 r.rootNonces
  carried : ∀ r, s.2.state.state = .requested r → ∀ d ∈ ds, ∀ aggnonce,
    d.freshRootSigning = some aggnonce → s.2.cfg.operatorTable.SumOfAll r.rootNonces aggnonce
  agree : ∃ nonces, Sent s.1 nonces ∧ ∀ d ∈ ds, ∀ aggnonce,
    d.freshRootSigning = some aggnonce → s.2.cfg.operatorTable.SumOfAll nonces aggnonce

variable {history : List Input} {i : Input}

section

variable (h : DepositSignedOnce ds (history, sm))
include h

private theorem DepositSignedOnce.extend {r' : Requested}
    (hs : sm.state.state = .requested r) (hs' : sm'.state.state = .requested r')
    (hcfg : sm'.cfg = sm.cfg) (hstep : Requested.RootNoncesStep sm.cfg.operatorTable r ev r')
    (hev : ∀ k nonce, ev = .rootNonce k nonce → i = .event ev)
    (hnew : ∀ d ∈ ds', ∀ aggnonce, d.freshRootSigning = some aggnonce →
      sm.cfg.operatorTable.SumOfAll r'.rootNonces aggnonce) :
    DepositSignedOnce (ds ++ ds') (history ++ [i], sm') := by
  have hall : ∀ d ∈ ds ++ ds', ∀ aggnonce, d.freshRootSigning = some aggnonce →
      sm.cfg.operatorTable.SumOfAll r'.rootNonces aggnonce := by
    intro d hd aggnonce hf
    rcases mem_append.mp hd with hd | hd
    · -- an old duty had the nonces of all operators, so none was missing
      have hold := h.carried r hs d hd aggnonce hf
      rcases hstep.grows with heq | ⟨k, hk, hmissing⟩
      · rwa [heq]
      · exact absurd ((hold.1 k).mpr hk) hmissing
    · exact hnew d hd aggnonce hf
  have hsent : Sent (history ++ [i]) r'.rootNonces := by
    intro k nonce hk
    rcases hstep.sent k nonce hk with hk | rfl
    · exact mem_append_left _ ((h.signers r hs).2 k nonce hk)
    · simp [hev k nonce rfl]
  refine ⟨?_, ?_, r'.rootNonces, hsent, by rwa [hcfg]⟩
  · intro r'' hr''
    obtain rfl := ContractState.requested.inj (hs'.symm.trans hr'')
    exact ⟨by rw [hcfg]; exact hstep.signers, hsent⟩
  · intro r'' hr''
    obtain rfl := ContractState.requested.inj (hs'.symm.trans hr'')
    rwa [hcfg]

private theorem DepositSignedOnce.skip (hcfg : sm'.cfg = sm.cfg)
    (hsame : ∀ r, sm'.state.state = .requested r → sm.state.state = .requested r)
    (hnew : ∀ d ∈ ds', d.freshRootSigning = none) :
    DepositSignedOnce (ds ++ ds') (history ++ [i], sm') := by
  have hold {d : OperatorDuty} {x : AggNonce} (hd : d ∈ ds ++ ds')
      (hf : d.freshRootSigning = some x) : d ∈ ds := by
    rcases mem_append.mp hd with hd | hd
    · exact hd
    · rw [hnew d hd] at hf
      cases hf
  obtain ⟨nonces, hsent, hagree⟩ := h.agree
  refine ⟨fun r hr => ?_, fun r hr d hd aggnonce hf => ?_, nonces,
    fun k nonce hk => mem_append_left _ (hsent k nonce hk), fun d hd aggnonce hf => ?_⟩
  · obtain ⟨hfrom, hsent⟩ := h.signers r (hsame r hr)
    exact ⟨by rwa [hcfg], fun k nonce hk => mem_append_left _ (hsent k nonce hk)⟩
  · rw [hcfg]
    exact h.carried r (hsame r hr) d (hold hd hf) aggnonce hf
  · rw [hcfg]
    exact hagree d (hold hd hf) aggnonce hf

private theorem DepositSignedOnce.event
    (htable : sm.FromTable (.event ev)) (hstep : sm.step env ev = some (sm', ds')) :
    DepositSignedOnce (ds ++ ds') (history ++ [.event ev], sm') := by
  rcases step_cases hstep with ⟨r, o, p, hs, ho, hnext, rfl⟩ | ⟨hsame, hother⟩
  · obtain ⟨hnonces, hnew⟩ := ((h.signers r hs).1.process ho htable).of_next hnext
    exact h.extend hs rfl rfl hnonces (fun _ _ _ => rfl) hnew
  · refine h.skip (cfg_of_step hstep) (fun r hr => (hsame r hr).1) fun d hd => ?_
    have := hother d hd
    cases d <;> first | rfl | cases this

private theorem DepositSignedOnce.rootSignaturesRequest {requestTxid : Txid}
    (hcomplete : sm.RootNoncesComplete (.rootSignaturesRequest requestTxid))
    (hserve : sm.serve env (.rootSignaturesRequest requestTxid) = some (sm', ds')) :
    DepositSignedOnce (ds ++ ds') (history ++ [i], sm') := by
  cases hs : sm.state.state with
  | requested r =>
    have hfrom := (h.signers r hs).1
    simp only [ContractSM.serve, processRootSignaturesRequest_eq hs hfrom] at hserve
    obtain ⟨rfl, rfl⟩ := hserve
    have hstep : Requested.RootNoncesStep _ r .claimFailure r :=
      hfrom.unchanged rfl
    refine h.extend hs hs rfl hstep (by simp) fun d hd aggnonce hf => ?_
    obtain rfl := mem_singleton.mp hd
    obtain ⟨hnone, rfl⟩ := freshRootSigning_publishRootSignature hf
    simp only [RootNoncesComplete, hs] at hcomplete
    rcases hcomplete with hsize | hown
    · exact hfrom.sumOfAll hsize
    · exact absurd hown (notMem_iff.mpr hnone)
  | _ =>
    simp only [ContractSM.serve, processRootSignaturesRequest, hs] at hserve
    obtain ⟨rfl, rfl⟩ := hserve
    exact h.skip rfl (fun _ hr => hr) (by simp)

private theorem DepositSignedOnce.serve
    (htable : sm.FromTable i) (hcomplete : sm.RootNoncesComplete i)
    (hserve : sm.serve env i = some (sm', ds')) :
    DepositSignedOnce (ds ++ ds') (history ++ [i], sm') := by
  have hother (hi : ∀ ev, i ≠ .event ev) (hfresh : ∀ d, i.MayEmit d → d.freshRootSigning = none) :
      DepositSignedOnce (ds ++ ds') (history ++ [i], sm') := by
    obtain ⟨rfl, hemit⟩ := serve_request hserve hi
    exact h.skip rfl (fun _ hr => hr) fun d hd => hfresh d (hemit d hd)
  cases i with
  | event ev => exact h.event htable hserve
  | rootSignaturesRequest requestTxid => exact h.rootSignaturesRequest hcomplete hserve
  | graphNoncesRequest | rootNoncesRequest | graphSignaturesRequest =>
    refine hother (by simp) fun d hd => ?_
    cases d <;> first | rfl | exact hd.elim

end

/-- **The deposit is signed under one aggregated nonce.** In a run of a contract under events and
requests in which requests for signatures on the deposit are answered from complete nonces, there
is one map of a nonce of every operator, each sent by its operator in the run, such that every
duty to sign the deposit afresh carries the sum of that map; in the requested phase the nonces
that the contract holds are such a map. -/
theorem deposit_signed_under_one_nonce {cfg : ContractCfg} {height deadline : BitcoinBlockHeight}
    {ds : List OperatorDuty}
    (hrun : Run (logged (serve env)) (fun s i => s.2.FromTable i ∧ s.2.RootNoncesComplete i)
      ([], .new cfg height deadline) ds (history, sm)) :
    (∃ nonces, Sent history nonces ∧ ∀ requestTxid aggnonce sighash witness,
      .publishRootSignature requestTxid aggnonce sighash witness none ∈ ds →
      cfg.operatorTable.SumOfAll nonces aggnonce) ∧
    ∀ r, sm.state.state = .requested r → Sent history r.rootNonces ∧
      ∀ requestTxid aggnonce sighash witness,
        .publishRootSignature requestTxid aggnonce sighash witness none ∈ ds →
        cfg.operatorTable.SumOfAll r.rootNonces aggnonce := by
  have hinv := hrun.invariant (I := fun ds s => DepositSignedOnce ds s ∧ s.2.cfg = cfg) ?_ ?_
  · obtain ⟨hsigned, hcfg⟩ := hinv
    have hcarried := hsigned.carried
    obtain ⟨nonces, hsent, hagree⟩ := hsigned.agree
    rw [hcfg] at hcarried hagree
    exact ⟨⟨nonces, hsent, fun _ aggnonce _ _ hd => hagree _ hd aggnonce rfl⟩, fun r hr =>
      ⟨(hsigned.signers r hr).2, fun _ aggnonce _ _ hd => hcarried r hr _ hd aggnonce rfl⟩⟩
  · refine ⟨⟨?_, by simp, ∅, by simp [Sent], by simp⟩, rfl⟩
    intro r hr
    cases hr
    exact ⟨fun k hk => absurd hk Std.ExtTreeMap.not_mem_empty, by simp [Sent]⟩
  · rintro ds ⟨history, sm⟩ i _ ds' ⟨hsigned, hcfg⟩ hG hlogged
    obtain ⟨⟨sm', ds'⟩, hs, heq⟩ := Option.map_eq_some_iff.mp hlogged
    cases heq
    exact ⟨hsigned.serve hG.1 hG.2 hs, (serve_cfg hs).trans hcfg⟩

/-- Nonces of two operators, the last of which is followed by a request. -/
theorem deposit_signed_under_both_nonces : ∃ history sm ds requestTxid aggnonce sighash witness,
    Run (logged (serve plain)) (fun s i => s.2.FromTable i ∧ s.2.RootNoncesComplete i)
      ([], .new (Linear.cfg twoOperators 0 1) 100 1100) ds (history, sm) ∧
    .publishRootSignature requestTxid aggnonce sighash witness none ∈ ds ∧
    ∃ nonces, Sent history nonces ∧ ∀ requestTxid' aggnonce' sighash' witness',
      .publishRootSignature requestTxid' aggnonce' sighash' witness' none ∈ ds →
      twoOperators.SumOfAll nonces aggnonce' := by
  obtain ⟨⟨history, sm⟩, ds, hrun, h⟩ := exists_run_of_exec (logged (serve plain))
    (fun s i => s.2.FromTable i ∧ s.2.RootNoncesComplete i)
    ([], .new (Linear.cfg twoOperators 0 1) 100 1100)
    [.event (.rootNonce ⟨10⟩ ⟨1⟩), .event (.rootNonce ⟨11⟩ ⟨2⟩), .rootSignaturesRequest ⟨1⟩]
    (fun _ ds => ds.any fun d => d.freshRootSigning.isSome) (by decide +kernel)
  obtain ⟨d, hd, hfresh⟩ := any_eq_true.mp h
  obtain ⟨aggnonce, hfresh⟩ := Option.isSome_iff_exists.mp hfresh
  obtain ⟨requestTxid, sighash, witness, rfl⟩ := OperatorDuty.exists_of_freshRootSigning hfresh
  exact ⟨history, sm, ds, requestTxid, aggnonce, sighash, witness, hrun, hd,
    (deposit_signed_under_one_nonce hrun).1⟩

/-- A request between the two nonces is answered with the sum of one nonce, and the deposit is to
be signed again under the sum of both. -/
theorem early_request_changes_nonce : ∃ sm ds aggnonce aggnonce',
    Run (serve plain) (fun sm i => sm.FromTable i)
      (.new (Linear.cfg twoOperators 0 1) 100 1100) ds sm ∧
    (∃ requestTxid sighash witness,
      .publishRootSignature requestTxid aggnonce sighash witness none ∈ ds) ∧
    (∃ requestTxid sighash witness,
      .publishRootSignature requestTxid aggnonce' sighash witness none ∈ ds) ∧
    aggnonce ≠ aggnonce' ∧ ∀ nonces, ¬twoOperators.SumOfAll nonces aggnonce := by
  obtain ⟨sm, ds, hrun, h⟩ := exists_run_of_exec (serve plain) (fun sm i => sm.FromTable i)
    (.new (Linear.cfg twoOperators 0 1) 100 1100)
    [.event (.rootNonce ⟨10⟩ ⟨1⟩), .rootSignaturesRequest ⟨1⟩, .event (.rootNonce ⟨11⟩ ⟨2⟩)]
    (fun _ ds => ds.any (fun d => d.freshRootSigning.any (·.summands.card = 1)) &&
      ds.any (fun d => d.freshRootSigning.any (·.summands.card = 2)))
    (by decide +kernel)
  have hfind {n : ℕ} (h : ds.any (fun d => d.freshRootSigning.any (·.summands.card = n)) = true) :
      ∃ aggnonce : AggNonce, aggnonce.summands.card = n ∧ ∃ requestTxid sighash witness,
        .publishRootSignature requestTxid aggnonce sighash witness none ∈ ds := by
    obtain ⟨d, hd, hfresh⟩ := any_eq_true.mp h
    obtain ⟨aggnonce, hfresh, hcard⟩ := (Option.any_eq_true _ _).mp hfresh
    obtain ⟨requestTxid, sighash, witness, rfl⟩ := OperatorDuty.exists_of_freshRootSigning hfresh
    exact ⟨aggnonce, of_decide_eq_true hcard, requestTxid, sighash, witness, hd⟩
  obtain ⟨hone, htwo⟩ := Bool.and_eq_true_iff.mp h
  obtain ⟨aggnonce, hcard, hduty⟩ := hfind hone
  obtain ⟨aggnonce', hcard', hduty'⟩ := hfind htwo
  refine ⟨sm, ds, aggnonce, aggnonce', hrun, hduty, hduty', ?_, ?_⟩
  · rintro rfl
    cases hcard.symm.trans hcard'
  · intro nonces hsum
    cases hcard.symm.trans hsum.card

end ContractSM

end StrataBridge
