import StrataBridge.DutyTracker.Setup

/-!
# Joining verified partial signatures

The partial signatures of a graph come one operator at a time, each is checked against the
aggregated nonces on record, and the last one joins them all. When everything was checked against
the sum of the session's nonces, joining cannot fail: every component of the graph has a verified
share of every operator under one aggregated nonce.
-/

namespace StrataBridge

open Rust BTreeMap List PogMusigF OperatorTable

variable {graph : PegOutGraph}

variable {env : Env} {table : OperatorTable}

/-! ### Checking partial signatures -/

/-- The partial signatures of an operator for a graph verify input by input, under the operator's
key and nonces and the given aggregated nonces. -/
def Verified (env : Env) (table : OperatorTable) (graph : PegOutGraph) (op : P2POperatorPubKey)
    (nonces : PogMusigF PubNonce) (partials : PogMusigF PartialSignature)
    (aggnonces : PogMusigF AggNonce) : Prop :=
  ∃ pubkey, table.p2pKeyToBtcKey op = some pubkey ∧
    ∀ c ∈ partialChecks env graph nonces partials aggnonces,
      ∃ ctx, env.createAggCtx table.btcKeys c.witness = some ctx ∧
        env.verifyPartial ctx c.partialSignature c.aggnonce pubkey c.pubnonce c.message = true

theorem anyInvalid_ok {keys : List PublicKey} (hmusig : env.Musig2 keys) (pubkey : PublicKey)
    (checks : List PartialCheck) : ∃ b, anyInvalid env keys pubkey checks = .ok b := by
  induction checks with
  | nil => exact ⟨false, rfl⟩
  | cons c rest ih =>
    obtain ⟨ctx, hctx⟩ := hmusig.context c.witness
    rw [anyInvalid, hctx]
    dsimp only
    split
    · exact ih
    · exact ⟨true, rfl⟩

theorem verified_of_anyInvalid {keys : List PublicKey} {pubkey : PublicKey}
    {checks : List PartialCheck} (h : anyInvalid env keys pubkey checks = .ok false) :
    ∀ c ∈ checks, ∃ ctx, env.createAggCtx keys c.witness = some ctx ∧
      env.verifyPartial ctx c.partialSignature c.aggnonce pubkey c.pubnonce c.message = true := by
  induction checks with
  | nil => simp
  | cons c rest ih =>
    rw [anyInvalid] at h
    split at h
    · cases h
    next ctx hctx =>
    split at h
    next hvalid => exact forall_mem_cons.mpr ⟨⟨ctx, hctx, hvalid⟩, ih h⟩
    · cases h

section Peer

variable {cfg : ContractCfg} {signer : P2POperatorPubKey} {claim : Txid}
  {graphNonces : BTreeMap Txid (Session PubNonce)} {aggNonces : BTreeMap Txid (PogMusigF AggNonce)}
  {partials : PogMusigF PartialSignature} {session : Session PubNonce}

/-- **What passes the check of a peer's partial signatures** verifies under the aggregated nonces
on record, for a complete session. -/
theorem verified_of_verifyPartialsFromPeer (hsession : graphNonces[claim]? = some session)
    (h : verifyPartialsFromPeer env cfg signer claim graph graphNonces aggNonces partials =
      .ok () true) :
    session.size = cfg.operatorTable.cardinality ∧ ∃ nonces aggnonces,
      session[signer]? = some nonces ∧ aggNonces[claim]? = some aggnonces ∧
      Verified env cfg.operatorTable graph signer nonces partials aggnonces := by
  rw [verifyPartialsFromPeer] at h
  split at h
  · cases h
  next pubkey hpubkey =>
  simp only [hsession] at h
  split at h
  · cases h
  next hsize =>
  split at h
  · cases h
  next nonces hnonces =>
  split at h
  · cases h
  next aggnonces hagg =>
  split at h
  · cases h
  · cases h
  next hvalid =>
    exact ⟨not_not.mp hsize, nonces, aggnonces, hnonces, hagg, pubkey, hpubkey,
      verified_of_anyInvalid hvalid⟩

theorem verifyPartialsFromPeer_not_isPanic (hmusig : env.Musig2 cfg.operatorTable.btcKeys)
    (hsigner : signer ∈ cfg.operatorTable.p2pKey) (hsession : graphNonces[claim]? = some session)
    (hmem : ∀ k ∈ session, k ∈ cfg.operatorTable.p2pKey) :
    ¬(verifyPartialsFromPeer env cfg signer claim graph graphNonces aggNonces
      partials).IsPanic := by
  obtain ⟨pubkey, hpubkey⟩ := p2pKeyToBtcKey_of_mem hsigner
  simp only [verifyPartialsFromPeer, hpubkey, hsession]
  split_ifs with hsize
  · simp
  · have hin : signer ∈ session := mem_of_size_eq hmem
      ((not_not.mp hsize).trans size_p2pKey.symm) signer hsigner
    obtain ⟨nonces, hnonces⟩ := mem_iff_exists.mp hin
    simp only [hnonces]
    split
    · simp
    next aggnonces _ =>
    obtain ⟨b, hb⟩ := anyInvalid_ok hmusig pubkey
      (partialChecks env graph nonces partials aggnonces)
    cases b <;> simp [hb]

end Peer

section Component

variable {nonces : PogMusigF PubNonce} {partials : PogMusigF PartialSignature}
  {aggnonces : PogMusigF AggNonce} {i : ℕ} {nonce : PubNonce} {message : Message}
  {witness : TaprootWitness} {share : PartialSignature} {aggnonce : AggNonce}

theorem mem_partialChecks (hnonce : nonces.pack[i]? = some nonce)
    (hmessage : (graph.musigSighashes env).pack[i]? = some message)
    (hwitness : graph.musigWitnesses.pack[i]? = some witness)
    (hshare : partials.pack[i]? = some share) (hagg : aggnonces.pack[i]? = some aggnonce) :
    (⟨nonce, message, witness, share, aggnonce⟩ : PartialCheck) ∈
      partialChecks env graph nonces partials aggnonces := by
  refine mem_map.mpr ⟨(nonce, message, witness, share, aggnonce), ?_, rfl⟩
  rw [zip5, pack_map]
  refine mem_map.mpr ⟨((((nonce, message), witness), share), aggnonce), ?_, rfl⟩
  refine mem_of_getElem? (i := i) ?_
  simp only [getElem?_pack_zip, hnonce, hmessage, hwitness, hshare, hagg, and_self]

theorem Verified.component {op : P2POperatorPubKey}
    (h : Verified env table graph op nonces partials aggnonces) {pubkey : PublicKey}
    (hpubkey : table.p2pKeyToBtcKey op = some pubkey) {ctx : KeyAggContext}
    (hnonce : nonces.pack[i]? = some nonce)
    (hmessage : (graph.musigSighashes env).pack[i]? = some message)
    (hwitness : graph.musigWitnesses.pack[i]? = some witness)
    (hshare : partials.pack[i]? = some share) (hagg : aggnonces.pack[i]? = some aggnonce)
    (hctx : env.createAggCtx table.btcKeys witness = some ctx) :
    env.verifyPartial ctx share aggnonce pubkey nonce message = true := by
  obtain ⟨pubkey', hpubkey', hall⟩ := h
  obtain rfl := Option.some.inj (hpubkey.symm.trans hpubkey')
  obtain ⟨ctx', hctx', hvalid⟩ := hall _ (mem_partialChecks hnonce hmessage hwitness hshare hagg)
  obtain rfl := Option.some.inj (hctx.symm.trans hctx')
  exact hvalid

end Component

/-! ### Joining them -/

theorem aggContexts_ok (hmusig : env.Musig2 table.btcKeys) (witnesses : PogMusigF TaprootWitness) :
    ∃ ctxs, aggContexts env table witnesses = .ok ctxs ∧ ∀ (i : ℕ) ctx,
      ctxs.pack[i]? = some ctx → ∃ witness, witnesses.pack[i]? = some witness ∧
        env.createAggCtx table.btcKeys witness = some ctx := by
  have hok (witness : TaprootWitness) : ∃ ctx, env.createAggCtx table.btcKeys witness = some ctx :=
    hmusig.context witness
  obtain ⟨ctxs, hctxs⟩ : ∃ ctxs, aggContexts env table witnesses = .ok ctxs := by
    refine sequenceResult_ok fun x hx => ?_
    rw [pack_map] at hx
    obtain ⟨witness, -, rfl⟩ := mem_map.mp hx
    obtain ⟨ctx, hctx⟩ := hok witness
    exact ⟨ctx, by simp [hctx]⟩
  refine ⟨ctxs, hctxs, fun i ctx hi => ?_⟩
  have hpack := pack_of_sequenceResult hctxs
  rw [pack_map] at hpack
  have hcomp := congrArg (fun l => l[i]?) hpack
  simp only [getElem?_map, hi] at hcomp
  obtain ⟨witness, hwitness, heq⟩ := Option.map_eq_some_iff.mp hcomp
  refine ⟨witness, hwitness, ?_⟩
  obtain ⟨ctx', hctx'⟩ := hok witness
  rw [hctx'] at heq ⊢
  exact congrArg some (Except.ok.inj heq)

theorem exists_signers {N : P2POperatorPubKey → Option PubNonce}
    {S : P2POperatorPubKey → Option PartialSignature}
    {V : PublicKey → PubNonce → PartialSignature → Prop} (l : List (P2POperatorPubKey × PublicKey))
    (h : ∀ e ∈ l, ∃ nonce share, N e.1 = some nonce ∧ S e.1 = some share ∧ V e.2 nonce share) :
    ∃ signers : List (PublicKey × PubNonce × PartialSignature),
      signers.map Prod.fst = l.map Prod.snd ∧
      (signers.map fun s => s.2.1) = l.filterMap (fun e => N e.1) ∧
      (signers.map fun s => s.2.2) = l.filterMap (fun e => S e.1) ∧
      ∀ s ∈ signers, V s.1 s.2.1 s.2.2 := by
  induction l with
  | nil => exact ⟨[], rfl, rfl, rfl, by simp⟩
  | cons e l ih =>
    obtain ⟨signers, hkeys, hnonces, hshares, hvalid⟩ := ih fun e he => h e (by simp [he])
    obtain ⟨nonce, share, hn, hs, hv⟩ := h e (by simp)
    refine ⟨(e.2, nonce, share) :: signers, ?_, ?_, ?_, ?_⟩
    · simp [hkeys]
    · simp [hn, hnonces]
    · simp [hs, hshares]
    · exact forall_mem_cons.mpr ⟨hv, hvalid⟩

theorem component_perm {T : Type} {session : Session T}
    (hmem : ∀ k ∈ session, k ∈ table.p2pKey) (i : ℕ) :
    ((vals table.idxKey).filterMap fun e => session[e.1]?.bind fun g => g.pack[i]?).Perm
      ((vals session).filterMap fun g => g.pack[i]?) := by
  have h := (filterMap_idxKey_perm hmem).filterMap fun g => g.pack[i]?
  rwa [filterMap_filterMap] at h

private theorem vals_ne_nil {T : Type} {session : Session T}
    (h : ∀ k, k ∈ session ↔ k ∈ table.p2pKey) : vals session ≠ [] := by
  obtain ⟨g, hg⟩ := mem_iff_exists.mp ((h _).mpr povP2pKey_mem)
  exact ne_nil_of_mem (mem_vals.mpr ⟨_, hg⟩)

section Complete

variable {nonces : Session PubNonce} {partials : Session PartialSignature}
  (hmusig : env.Musig2 table.btcKeys) (hnonces : ∀ k, k ∈ nonces ↔ k ∈ table.p2pKey)
  (hpartials : ∀ k, k ∈ partials ↔ k ∈ table.p2pKey)
  (hverified : ∀ k p n, partials[k]? = some p → nonces[k]? = some n →
    Verified env table graph k n p (Requested.aggregateSession nonces))

include hmusig hnonces hpartials hverified in
private theorem joinPartials_ok {i : ℕ} {witness : TaprootWitness} {ctx : KeyAggContext}
    {aggnonce : AggNonce} {shares : List PartialSignature} {message : Message}
    (hwitness : graph.musigWitnesses.pack[i]? = some witness)
    (hctx : env.createAggCtx table.btcKeys witness = some ctx)
    (hagg : (Requested.aggregateSession nonces).pack[i]? = some aggnonce)
    (hshares : shares.Perm ((vals partials).filterMap fun g => g.pack[i]?))
    (hlen : ∀ p ∈ vals partials, i < p.pack.length)
    (hmessage : (graph.musigSighashes env).pack[i]? = some message) :
    ∃ sig, joinPartials env ctx aggnonce shares message = .ok sig := by
  -- component `i` of the aggregated nonces is the sum over all operators
  have hagg' := hagg
  rw [Requested.aggregateSession, pack_map, List.getElem?_map] at hagg'
  obtain ⟨summands, hsummands, rfl⟩ := Option.map_eq_some_iff.mp hagg'
  have hlt := lt_length_of_sequencePogMusigF (List.getElem?_eq_some_iff.mp hsummands).1
  rw [getElem?_pack_sequencePogMusigF (vals_ne_nil hnonces) hlt] at hsummands
  cases hsummands
  obtain ⟨signers, hkeys, hsum, hall, hvalid⟩ := exists_signers
    (N := fun k => nonces[k]?.bind fun g => g.pack[i]?)
    (S := fun k => partials[k]?.bind fun g => g.pack[i]?)
    (V := fun pubkey nonce share => env.verifyPartial ctx share
      (AggNonce.sum ((vals nonces).filterMap fun g => g.pack[i]?)) pubkey nonce message)
    (vals table.idxKey) <| by
      intro e he
      obtain ⟨idx, hidx⟩ := mem_vals.mp he
      have hop : e.1 ∈ table.p2pKey := mem_p2pKey.mpr ⟨idx, e.2, hidx⟩
      obtain ⟨n, hn⟩ := mem_iff_exists.mp ((hnonces e.1).mpr hop)
      obtain ⟨p, hp⟩ := mem_iff_exists.mp ((hpartials e.1).mpr hop)
      have hni := List.getElem?_eq_getElem (hlt n (mem_vals.mpr ⟨e.1, hn⟩))
      have hpi := List.getElem?_eq_getElem (hlen p (mem_vals.mpr ⟨e.1, hp⟩))
      refine ⟨_, _, by rw [hn]; exact hni, by rw [hp]; exact hpi, ?_⟩
      exact (hverified e.1 p n hp hn).component
        (p2pKeyToBtcKey_eq_some.mpr ⟨idx, hidx⟩) hni hmessage hwitness hpi hagg hctx
  have hnoncesum : AggNonce.sum ((vals nonces).filterMap fun g => g.pack[i]?) =
      AggNonce.sum (signers.map fun s => s.2.1) := by
    rw [hsum]
    exact AggNonce.sum_perm (component_perm (fun k => (hnonces k).mp) i).symm
  rw [hnoncesum] at hvalid ⊢
  obtain ⟨sig, hsig⟩ := hmusig.aggregates witness ctx message signers shares hctx hkeys
    (hshares.trans (hall ▸ (component_perm (fun k => (hpartials k).mp) i).symm)) hvalid
  exact ⟨sig, by rw [joinPartials, hsig]⟩

include hmusig hnonces hpartials hverified in
/-- **Verified partial signatures of all operators join.** -/
theorem aggregateGraph_ok : ∃ sigs, aggregateGraph env table
    { aggNonces := Requested.aggregateSession nonces
      sighashTypes := graph.musigSighashTypes
      sighashes := graph.musigSighashes env
      witnesses := graph.musigWitnesses } (some partials) = .ok sigs := by
  obtain ⟨ctxs, hctxs, hctx⟩ := aggContexts_ok hmusig graph.musigWitnesses
  obtain ⟨byBtcKey, hconvert, hperm⟩ :=
    convertMapP2pToBtc_ok (fun k hk => (hpartials k).mp hk)
  have hne : vals byBtcKey ≠ [] := fun hnil =>
    vals_ne_nil hpartials (List.nil_perm.mp (hnil ▸ hperm))
  simp only [aggregateGraph, hctxs, hconvert, Except.bind]
  obtain ⟨sigs, hsigs⟩ : ∃ sigs, PogMusigF.sequenceResult (PogMusigF.zipWith4 (joinPartials env)
      ctxs (Requested.aggregateSession nonces)
      (PogMusigF.sequencePogMusigF (vals byBtcKey)) (graph.musigSighashes env)) = .ok sigs := by
    refine PogMusigF.sequenceResult_ok fun x hx => ?_
    rw [PogMusigF.zipWith4, PogMusigF.pack_map] at hx
    obtain ⟨⟨⟨ctx, aggnonce⟩, shares, message⟩, hmem, rfl⟩ := List.mem_map.mp hx
    obtain ⟨i, hi⟩ := List.mem_iff_getElem?.mp hmem
    simp only [PogMusigF.getElem?_pack_zip] at hi
    obtain ⟨⟨hci, hai⟩, hsi, hmi⟩ := hi
    obtain ⟨witness, hwi, hcreate⟩ := hctx i ctx hci
    have hlt := PogMusigF.lt_length_of_sequencePogMusigF (List.getElem?_eq_some_iff.mp hsi).1
    rw [PogMusigF.getElem?_pack_sequencePogMusigF hne hlt] at hsi
    cases hsi
    exact joinPartials_ok hmusig hnonces hpartials hverified hwi hcreate hai
      (hperm.filterMap _) (fun p hp => hlt p (hperm.mem_iff.mpr hp)) hmi
  exact ⟨_, by rw [hsigs]; rfl⟩

end Complete

end StrataBridge
