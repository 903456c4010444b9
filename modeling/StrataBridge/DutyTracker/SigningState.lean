import StrataBridge.DutyTracker.Acceptance
import StrataBridge.DutyTracker.Aggregation
import StrataBridge.DutyTracker.GraphSessions

/-!
# What the requested phase keeps in order

From the last announcement on, a requested contract has a graph and a claim of every operator, a
session of nonces and one of partial signatures for every claim, and the aggregated nonces on
record. The handlers rely on how these fit together: that no two operators share a claim, that
the cached graph of an operator is the one its claim was made from, and that partial signatures
were checked against the sum of the nonces in the session. `Requested.InOrder` says all of it.

Announcements may break the order in two ways: an operator may announce the stake transaction of
another one, and a repeated announcement empties the sessions but not the aggregated nonces. The
step lemmas ask for announcements that are apart (`Requested.Apart`) and for partial signatures
that are checked against current nonces (`Requested.NoncesCurrent`).

## Main results

* `Requested.InOrder.processGraphSignatures_not_isPanic`: checking partial signatures returns
* `Requested.InOrder.intoGraphData_ok`: and so does the transition to the next phase
-/

namespace StrataBridge

open Rust BTreeMap List Requested

variable {env : Env} {cfg : ContractCfg} {pog : PogCache}

variable {table : OperatorTable}

variable {k owner signer : P2POperatorPubKey} {input : PegOutGraphInput} {claim : Txid}

def ContractCfg.builtClaim (env : Env) (cfg : ContractCfg) (input : PegOutGraphInput) : Txid :=
  (cfg.buildGraph env input).claimTx.computeTxid env

namespace Requested

/-! ### Announcements that are apart -/

/-- The announced data of the operators are apart: no two have one stake transaction or one
claim, and what is cached under the stake transaction of an operator is its own graph. -/
structure Apart (env : Env) (cfg : ContractCfg) (pog : PogCache)
    (inputs : BTreeMap P2POperatorPubKey PegOutGraphInput) : Prop where
  stakes : (inputs.toList.map fun e => e.2.stakeOutpoint.txid).Nodup
  claims : (inputs.toList.map fun e => cfg.builtClaim env e.2).Nodup
  cached : ∀ e ∈ inputs.toList, cfg.cachedGraph env pog e.2 = cfg.buildGraph env e.2

instance (env : Env) (cfg : ContractCfg) (pog : PogCache)
    (inputs : BTreeMap P2POperatorPubKey PegOutGraphInput) :
    Decidable (Apart env cfg pog inputs) :=
  decidable_of_iff
    ((inputs.toList.map fun e => e.2.stakeOutpoint.txid).Nodup ∧
      (inputs.toList.map fun e => cfg.builtClaim env e.2).Nodup ∧
      ∀ e ∈ inputs.toList, cfg.cachedGraph env pog e.2 = cfg.buildGraph env e.2)
    ⟨fun h => ⟨h.1, h.2.1, h.2.2⟩, fun h => ⟨h.stakes, h.claims, h.cached⟩⟩

section Apart

variable {inputs : BTreeMap P2POperatorPubKey PegOutGraphInput}

section

variable (h : Apart env cfg pog inputs)
include h

theorem Apart.claims_inj {k' : P2POperatorPubKey}
    {input' : PegOutGraphInput} (hk : inputs[k]? = some input) (hk' : inputs[k']? = some input')
    (heq : cfg.builtClaim env input = cfg.builtClaim env input') : k = k' :=
  congrArg Prod.fst (inj_on_of_nodup_map h.claims (mem_toList.mpr hk) (mem_toList.mpr hk') heq)

theorem Apart.cachedGraph (hk : inputs[k]? = some input) :
    cfg.cachedGraph env pog input = cfg.buildGraph env input :=
  h.cached (k, input) (mem_toList.mpr hk)

theorem Apart.retrieveGraph {e : P2POperatorPubKey × PegOutGraphInput} (he : e ∈ inputs.toList) :
    (cfg.retrieveGraph env pog e.2).1 = cfg.buildGraph env e.2 ∧
      Apart env cfg (cfg.retrieveGraph env pog e.2).2 inputs := by
  have hcached := h.cached e he
  rw [ContractCfg.cachedGraph] at hcached
  rw [ContractCfg.retrieveGraph]
  split
  next graph hget =>
    rw [hget] at hcached
    exact ⟨hcached, h⟩
  next hget =>
    refine ⟨rfl, h.stakes, h.claims, fun e' he' => ?_⟩
    have hcached' := h.cached e' he'
    rw [ContractCfg.cachedGraph] at hcached' ⊢
    rw [get_insert]
    by_cases heq : e.2.stakeOutpoint.txid = e'.2.stakeOutpoint.txid
    · rw [if_pos heq, inj_on_of_nodup_map h.stakes he he' heq]
    · rwa [if_neg heq]

theorem Apart.retrieveGraphs
    {l : List (P2POperatorPubKey × PegOutGraphInput)} (hl : l ⊆ inputs.toList) :
    (retrieveGraphs env cfg pog l).1 = l.map (fun e => (e.1, cfg.buildGraph env e.2)) ∧
      Apart env cfg (retrieveGraphs env cfg pog l).2 inputs := by
  induction l generalizing pog with
  | nil => exact ⟨rfl, h⟩
  | cons e rest ih =>
    obtain ⟨hgraph, hapart⟩ := h.retrieveGraph (hl mem_cons_self)
    obtain ⟨hgraphs, hrest⟩ := ih hapart fun e he => hl (mem_cons_of_mem _ he)
    exact ⟨by simp [retrieveGraphs, hgraph, hgraphs], hrest⟩

end

theorem Apart.allGraphs {r : Requested} (h : Apart env cfg pog r.pegOutGraphInputs) :
    (r.allGraphs env cfg pog).1 =
        r.pegOutGraphInputs.toList.map (fun e => (e.1, cfg.buildGraph env e.2)) ∧
      Apart env cfg (r.allGraphs env cfg pog).2 r.pegOutGraphInputs := by
  rw [Requested.allGraphs]
  split
  · exact ⟨rfl, h⟩
  · exact h.retrieveGraphs (List.Subset.refl _)

theorem Apart.signatureDuties {r : Requested} (h : Apart env cfg pog r.pegOutGraphInputs)
    (claims : List Txid) :
    Apart env cfg (signatureDuties env cfg r pog claims).2 r.pegOutGraphInputs := by
  induction claims generalizing pog with
  | nil => exact h
  | cons claim rest ih =>
    rw [signatureDuties]
    split
    · exact h
    split
    · exact h
    next owner _ _ input hinput =>
    have hapart := (h.retrieveGraph (e := (owner, input)) (mem_toList.mpr hinput)).2
    dsimp only
    split
    · exact hapart
    · exact ih hapart

end Apart

/-! ### The invariant -/

def NoncesCurrent (r : Requested) (n : ℕ) (claim : Txid) : Prop :=
  ∀ (session : Session PubNonce) (aggnonces : PogMusigF AggNonce),
    r.graphNonces[claim]? = some session → session.size = n →
    r.aggNonces[claim]? = some aggnonces → aggnonces = aggregateSession session

instance (r : Requested) (n : ℕ) (claim : Txid) : Decidable (r.NoncesCurrent n claim) :=
  decidable_of_iff
    ((r.graphNonces[claim]?.all fun session => r.aggNonces[claim]?.all fun aggnonces =>
      session.size = n → aggnonces = aggregateSession session) = true) <| by
    simp only [NoncesCurrent, Option.all_eq_true, decide_eq_true_eq]
    exact ⟨fun h s a hs hn ha => h s hs a ha hn, fun h s hs a ha hn => h s a hs hn ha⟩

/-- Once the graphs are generated: everyone has announced its data, the claims are those of the
graphs, and the partial signatures of every operator's graph verify. -/
structure Ready (env : Env) (cfg : ContractCfg) (pog : PogCache) (r : Requested) : Prop where
  full : r.pegOutGraphInputs.size = cfg.operatorTable.cardinality
  apart : Apart env cfg pog r.pegOutGraphInputs
  claims : ∀ k : P2POperatorPubKey, r.claimTxids[k]? =
    r.pegOutGraphInputs[k]?.map (cfg.builtClaim env)
  summaries : ∀ (k : P2POperatorPubKey) input, r.pegOutGraphInputs[k]? = some input →
    cfg.builtClaim env input ∈ r.pegOutGraphSummaries
  nonces : ∀ (k : P2POperatorPubKey) input, r.pegOutGraphInputs[k]? = some input →
    cfg.builtClaim env input ∈ r.graphNonces
  verified : ∀ (k : P2POperatorPubKey) input, r.pegOutGraphInputs[k]? = some input →
    ∀ (partials : Session PartialSignature) (nonces : Session PubNonce),
      r.graphPartials[cfg.builtClaim env input]? = some partials →
      r.graphNonces[cfg.builtClaim env input]? = some nonces →
      ∀ (op : P2POperatorPubKey) p n, partials[op]? = some p → nonces[op]? = some n →
        Verified env cfg.operatorTable (cfg.buildGraph env input) op n p (aggregateSession nonces)

/-- Only operators take part in sessions, and partial signatures are there only for complete
sessions whose sum is on record. -/
structure SessionsInOrder (r : Requested) (table : OperatorTable) : Prop where
  signers : ∀ (claim : Txid) (session : Session PubNonce), r.graphNonces[claim]? = some session →
    ∀ k ∈ session, k ∈ table.p2pKey
  partialSigners : ∀ (claim : Txid) (session : Session PartialSignature),
    r.graphPartials[claim]? = some session → ∀ k ∈ session, k ∈ table.p2pKey
  summed : ∀ (claim : Txid) (partials : Session PartialSignature) (op : P2POperatorPubKey),
    r.graphPartials[claim]? = some partials → op ∈ partials → ∃ nonces : Session PubNonce,
      r.graphNonces[claim]? = some nonces ∧ nonces.size = table.cardinality ∧
      r.aggNonces[claim]? = some (aggregateSession nonces)

/-- The maps of the requested phase fit together: the sessions are in order, only operators have
announced data, and the graphs, once generated, are ready. -/
structure InOrder (env : Env) (cfg : ContractCfg) (pog : PogCache) (r : Requested) : Prop extends
    r.SessionsInOrder cfg.operatorTable where
  operators : ∀ k ∈ r.pegOutGraphInputs, k ∈ cfg.operatorTable.p2pKey
  ready : r.claimTxids = ∅ ∨ r.Ready env cfg pog

variable {r : Requested}

theorem SessionsInOrder.of_eq {r' : Requested} (h : r.SessionsInOrder table)
    (hnonces : r'.graphNonces = r.graphNonces) (hagg : r'.aggNonces = r.aggNonces)
    (hpartials : r'.graphPartials = r.graphPartials) : r'.SessionsInOrder table := by
  refine ⟨?_, ?_, ?_⟩
  · rw [hnonces]
    exact h.signers
  · rw [hpartials]
    exact h.partialSigners
  · rw [hpartials, hnonces, hagg]
    exact h.summed

theorem InOrder.of_eq {r' : Requested} (h : r.InOrder env cfg pog) (hsame : r.SameNonces r')
    (hpartials : r'.graphPartials = r.graphPartials) : r'.InOrder env cfg pog := by
  refine ⟨h.toSessionsInOrder.of_eq hsame.nonces hsame.aggregated hpartials, ?_, ?_⟩
  · rw [hsame.inputs]
    exact h.operators
  · rw [hsame.claims]
    refine h.ready.imp_right fun hready => ⟨?_, ?_, ?_, ?_, ?_, ?_⟩
    · rw [hsame.inputs]
      exact hready.full
    · rw [hsame.inputs]
      exact hready.apart
    · rw [hsame.claims, hsame.inputs]
      exact hready.claims
    · rw [hsame.inputs, hsame.summaries]
      exact hready.summaries
    · rw [hsame.inputs, hsame.nonces]
      exact hready.nonces
    · rw [hsame.inputs, hpartials, hsame.nonces]
      exact hready.verified

theorem Ready.exists_of_firstOwner (h : r.Ready env cfg pog)
    (howner : ContractState.firstOwner r.claimTxids claim = some owner) :
    ∃ input, r.pegOutGraphInputs[owner]? = some input ∧ cfg.builtClaim env input = claim := by
  have hget := ContractState.get_of_firstOwner howner
  rw [h.claims] at hget
  exact Option.map_eq_some_iff.mp hget

theorem InOrder.ready_of_firstOwner (h : r.InOrder env cfg pog)
    (howner : ContractState.firstOwner r.claimTxids claim = some owner) : r.Ready env cfg pog := by
  refine h.ready.resolve_left fun hempty => ?_
  have hget := ContractState.get_of_firstOwner howner
  simp [hempty] at hget

/-! ### Announcements -/

private theorem mem_summaries_foldl_insertGraph (graphs : List (P2POperatorPubKey × PegOutGraph))
    {c : Txid} : c ∈ (graphs.foldl (insertGraph env) r).pegOutGraphSummaries ↔
      c ∈ r.pegOutGraphSummaries ∨ c ∈ graphs.map (claimOf env) := by
  induction graphs generalizing r with
  | nil => simp
  | cons e rest ih =>
    simp only [foldl_cons, ih, insertGraph, Std.ExtTreeMap.mem_insert,
      Std.LawfulEqOrd.compare_eq_iff_eq]
    change (claimOf env e = c ∨ _) ∨ _ ↔ _
    grind

private theorem claimTxid_foldl_insertGraph {graphs : List (P2POperatorPubKey × PegOutGraph)}
    (hnodup : (graphs.map Prod.fst).Nodup) {e : P2POperatorPubKey × PegOutGraph}
    (he : e ∈ graphs) :
    (graphs.foldl (insertGraph env) r).claimTxids[e.1]? = some (claimOf env e) := by
  have hother (graphs : List (P2POperatorPubKey × PegOutGraph)) (r : Requested)
      (hnot : e.1 ∉ graphs.map Prod.fst) :
      (graphs.foldl (insertGraph env) r).claimTxids[e.1]? = r.claimTxids[e.1]? := by
    induction graphs generalizing r with
    | nil => rfl
    | cons e' rest ih =>
      simp only [map_cons, mem_cons, not_or] at hnot
      rw [foldl_cons, ih _ hnot.2, insertGraph, get_insert_of_ne _ _ (Ne.symm hnot.1)]
  induction graphs generalizing r with
  | nil => cases he
  | cons e' rest ih =>
    obtain ⟨hnot, hnodup⟩ := nodup_cons.mp hnodup
    rcases mem_cons.mp he with rfl | he
    · rw [foldl_cons, hother rest _ hnot, insertGraph, get_insert_self]
      rfl
    · exact ih hnodup he

theorem get_of_opened {T : Type} {c : Txid} {claims : List Txid} {session : Session T}
    {old : Option (Session T)} (hget : (if c ∈ claims then some ∅ else old) = some session)
    (hk : k ∈ session) : c ∉ claims ∧ old = some session := by
  split_ifs at hget with hc
  · cases hget
    exact absurd hk Std.ExtTreeMap.not_mem_empty
  · exact ⟨hc, hget⟩

theorem SessionsInOrder.foldl_insertGraph (h : r.SessionsInOrder cfg.operatorTable)
    (hoperators : ∀ k ∈ r.pegOutGraphInputs, k ∈ cfg.operatorTable.p2pKey)
    (hclaims : r.ClaimsHaveInputs)
    (hfull : r.pegOutGraphInputs.size = cfg.operatorTable.cardinality)
    (hapart : Apart env cfg pog r.pegOutGraphInputs) :
    ((r.pegOutGraphInputs.toList.map fun e => (e.1, cfg.buildGraph env e.2)).foldl
      (insertGraph env) r).InOrder env cfg pog := by
  generalize hgraphs : (r.pegOutGraphInputs.toList.map fun e => (e.1, cfg.buildGraph env e.2)) =
    graphs
  have hmem {k : P2POperatorPubKey} {input : PegOutGraphInput}
      (hk : r.pegOutGraphInputs[k]? = some input) : (k, cfg.buildGraph env input) ∈ graphs := by
    rw [← hgraphs]
    exact mem_map.mpr ⟨(k, input), mem_toList.mpr hk, rfl⟩
  have hclaim {k : P2POperatorPubKey} {input : PegOutGraphInput}
      (hk : r.pegOutGraphInputs[k]? = some input) :
      cfg.builtClaim env input ∈ graphs.map (claimOf env) := mem_map.mpr ⟨_, hmem hk, rfl⟩
  have hkeys : graphs.map Prod.fst = r.pegOutGraphInputs.keys := by
    rw [← hgraphs, ← Std.ExtTreeMap.map_fst_toList_eq_keys, map_map]
    rfl
  have hinputs : (graphs.foldl (insertGraph env) r).pegOutGraphInputs = r.pegOutGraphInputs :=
    pegOutGraphInputs_foldl_insertGraph graphs
  have hnonces := graphNonces_foldl_insertGraph env r graphs
  have hpartials := graphPartials_foldl_insertGraph env r graphs
  refine ⟨⟨?_, ?_, ?_⟩, ?_, .inr ⟨?_, ?_, ?_, ?_, ?_, ?_⟩⟩
  · intro claim session hget k hk
    rw [hnonces] at hget
    exact h.signers claim session (get_of_opened hget hk).2 k hk
  · intro claim session hget k hk
    rw [hpartials] at hget
    exact h.partialSigners claim session (get_of_opened hget hk).2 k hk
  · intro claim partials op hget hop
    rw [hpartials] at hget
    obtain ⟨hc, hget⟩ := get_of_opened hget hop
    rw [hnonces, if_neg hc, aggNonces_foldl_insertGraph]
    exact h.summed claim partials op hget hop
  · rw [hinputs]
    exact hoperators
  · rw [hinputs]
    exact hfull
  · rw [hinputs]
    exact hapart
  · intro k
    rw [hinputs]
    cases hk : r.pegOutGraphInputs[k]? with
    | some input =>
      exact claimTxid_foldl_insertGraph (hkeys ▸ Std.ExtTreeMap.nodup_keys) (hmem hk)
    | none =>
      have hnot : k ∉ r.pegOutGraphInputs := notMem_iff.mpr hk
      refine notMem_iff.mp fun hk' => hnot ?_
      rcases (claimTxids_foldl_insertGraph graphs).mp hk' with hold | hnew
      · exact hclaims k hold
      · rwa [hkeys, Std.ExtTreeMap.mem_keys] at hnew
  · intro k input hk
    rw [hinputs] at hk
    exact (mem_summaries_foldl_insertGraph graphs).mpr (.inr (hclaim hk))
  · intro k input hk
    rw [hinputs] at hk
    rw [mem_iff_exists, hnonces, if_pos (hclaim hk)]
    exact ⟨∅, rfl⟩
  · intro k input hk partials nonces hpart _ op p n hp
    rw [hinputs] at hk
    rw [hpartials] at hpart
    exact absurd (hclaim hk) (get_of_opened hpart (mem_iff_exists.mpr ⟨p, hp⟩)).1

section Announced

variable (h : r.InOrder env cfg pog) {operatorPubkey : XOnlyPublicKey} {stakeHash : Sha256Hash}
  {stakeTxid : Txid} {wotsKeys : Wots.PublicKeys} (hsigner : signer ∈ cfg.operatorTable.p2pKey)
  {r' : Requested} (hr' : r' = r.upsertInput signer operatorPubkey stakeHash stakeTxid wotsKeys)

include h hr' in
theorem InOrder.sessions_upsertInput : r'.SessionsInOrder cfg.operatorTable := by
  rw [hr']
  exact h.toSessionsInOrder.of_eq rfl rfl rfl

include h hsigner hr' in
theorem InOrder.operators_upsertInput :
    ∀ k ∈ r'.pegOutGraphInputs, k ∈ cfg.operatorTable.p2pKey := by
  intro k hk
  rw [hr'] at hk
  rcases mem_upsertInput.mp hk with rfl | hk
  · exact hsigner
  · exact h.operators k hk

include h hsigner hr' in
theorem InOrder.announced (hsize : r'.pegOutGraphInputs.size ≠ cfg.operatorTable.cardinality) :
    r'.InOrder env cfg pog := by
  refine ⟨h.sessions_upsertInput hr', h.operators_upsertInput hsigner hr', .inl ?_⟩
  subst hr'
  -- once everyone has announced its data, everyone still has
  refine h.ready.resolve_right fun hready => hsize ?_
  have hknown : signer ∈ r.pegOutGraphInputs := mem_of_size_eq h.operators
    (hready.full.trans OperatorTable.size_p2pKey.symm) signer hsigner
  have hmem (k : P2POperatorPubKey) : k ∈ (r.upsertInput signer operatorPubkey stakeHash stakeTxid
      wotsKeys).pegOutGraphInputs ↔ k ∈ r.pegOutGraphInputs :=
    mem_upsertInput.trans ⟨fun hk => hk.elim (fun heq => heq ▸ hknown) id, .inr⟩
  have hkeys := keys_eq hmem
  rw [← hready.full, ← Std.ExtTreeMap.length_keys, hkeys, Std.ExtTreeMap.length_keys]

include h hsigner hr' in
/-- **The last announcement keeps the order**, when the data of the operators are apart. -/
theorem InOrder.generated (hsize : r'.pegOutGraphInputs.size = cfg.operatorTable.cardinality)
    (hapart : Apart env cfg pog r'.pegOutGraphInputs) :
    ((r'.allGraphs env cfg pog).1.foldl (insertGraph env) r').InOrder env cfg
      (r'.allGraphs env cfg pog).2 := by
  obtain ⟨hgraphs, hapart'⟩ := hapart.allGraphs
  have hhave : r'.ClaimsHaveInputs := by
    rw [hr']
    intro k hk
    refine mem_upsertInput.mpr (.inr ?_)
    rcases h.ready with hempty | hready
    · exact absurd (hempty ▸ hk) Std.ExtTreeMap.not_mem_empty
    · obtain ⟨claim, hk⟩ := mem_iff_exists.mp hk
      obtain ⟨input, hinput, -⟩ := Option.map_eq_some_iff.mp ((hready.claims k).symm.trans hk)
      exact mem_iff_exists.mpr ⟨input, hinput⟩
  rw [hgraphs]
  exact (h.sessions_upsertInput hr').foldl_insertGraph (h.operators_upsertInput hsigner hr') hhave
    hsize hapart'

end Announced

/-! ### Nonces -/

private theorem SessionsInOrder.not_mem_partials (h : r.SessionsInOrder table)
    {session : Session PubNonce} (hsession : r.graphNonces[claim]? = some session)
    (hnew : signer ∉ session) (hsigner : signer ∈ table.p2pKey)
    {partials : Session PartialSignature} (hpartials : r.graphPartials[claim]? = some partials)
    (op : P2POperatorPubKey) : op ∉ partials := by
  intro hop
  obtain ⟨nonces, hnonces, hsize, -⟩ := h.summed claim partials op hpartials hop
  obtain rfl := Option.some.inj (hsession.symm.trans hnonces)
  exact hnew (mem_of_size_eq (h.signers claim session hsession)
    (hsize.trans OperatorTable.size_p2pKey.symm) signer hsigner)

section

variable (h : r.InOrder env cfg pog)
include h

theorem InOrder.insertNonces {session : Session PubNonce}
    (hsession : r.graphNonces[claim]? = some session) (hnew : signer ∉ session)
    (hsigner : signer ∈ cfg.operatorTable.p2pKey) (nonces : PogMusigF PubNonce) :
    (r.insertNonces claim session signer nonces).InOrder env cfg pog := by
  have hnone {partials : Session PartialSignature} {op : P2POperatorPubKey}
      (hpartials : r.graphPartials[claim]? = some partials) (hop : op ∈ partials) : False :=
    h.not_mem_partials hsession hnew hsigner hpartials op hop
  refine ⟨⟨?_, h.partialSigners, ?_⟩, h.operators, h.ready.imp_right fun hready =>
    ⟨hready.full, hready.apart, hready.claims, hready.summaries, ?_, ?_⟩⟩
  · intro claim' session' hget k hk
    rw [Requested.insertNonces, get_insert] at hget
    split_ifs at hget
    · cases hget
      rcases Std.ExtTreeMap.mem_insert.mp hk with hcmp | hk
      · rwa [← Std.LawfulEqOrd.eq_of_compare hcmp]
      · exact h.signers claim session hsession k hk
    · exact h.signers claim' session' hget k hk
  · intro claim' partials op hget hop
    have hne : claim ≠ claim' := by
      rintro rfl
      exact hnone hget hop
    rw [Requested.insertNonces, get_insert_of_ne _ _ hne]
    exact h.summed claim' partials op hget hop
  · intro k input hk
    rw [Requested.insertNonces, Std.ExtTreeMap.mem_insert]
    exact .inr (hready.nonces k input hk)
  · intro k input hk partials nonces' hpartials hnonces' op p n hp
    have hne : claim ≠ cfg.builtClaim env input := by
      rintro rfl
      exact hnone hpartials (mem_iff_exists.mpr ⟨p, hp⟩)
    rw [Requested.insertNonces, get_insert_of_ne _ _ hne] at hnonces'
    exact hready.verified k input hk partials nonces' hpartials hnonces' op p n hp

theorem InOrder.aggregate :
    InOrder env cfg pog { r with aggNonces := aggregateNonces r.graphNonces } := by
  refine ⟨⟨h.signers, h.partialSigners, ?_⟩, h.operators, h.ready.imp_right fun hready =>
    ⟨hready.full, hready.apart, hready.claims, hready.summaries, hready.nonces, hready.verified⟩⟩
  intro claim partials op hget hop
  obtain ⟨nonces, hnonces, hsize, -⟩ := h.summed claim partials op hget hop
  refine ⟨nonces, hnonces, hsize, ?_⟩
  rw [aggregateNonces, Std.ExtTreeMap.getElem?_map, hnonces]
  rfl

theorem InOrder.of_apart {pog' : PogCache}
    (hapart : Apart env cfg pog r.pegOutGraphInputs → Apart env cfg pog' r.pegOutGraphInputs) :
    r.InOrder env cfg pog' :=
  ⟨h.toSessionsInOrder, h.operators, h.ready.imp_right fun hready =>
    ⟨hready.full, hapart hready.apart, hready.claims, hready.summaries, hready.nonces,
      hready.verified⟩⟩

theorem InOrder.sumNonces {claims : List Txid} {pog' : PogCache}
    {duties : Except TransitionErr (List OperatorDuty)}
    (hduties : signatureDuties env cfg r.sumNonces pog claims = (duties, pog')) :
    r.sumNonces.InOrder env cfg pog' := by
  have hpog := h.aggregate.of_apart fun hapart => hapart.signatureDuties claims
  rwa [hduties] at hpog

/-! ### Partial signatures -/

private theorem InOrder.insertPartials (hready : r.Ready env cfg pog)
    (hinput : r.pegOutGraphInputs[owner]? = some input) {session : Session PartialSignature}
    (hsession : r.graphPartials[cfg.builtClaim env input]? = some session)
    (hsigner : signer ∈ cfg.operatorTable.p2pKey) {nonces : Session PubNonce}
    (hnonces : r.graphNonces[cfg.builtClaim env input]? = some nonces)
    (hsize : nonces.size = cfg.operatorTable.cardinality)
    (hagg : r.aggNonces[cfg.builtClaim env input]? = some (aggregateSession nonces))
    {partials : PogMusigF PartialSignature} {n : PogMusigF PubNonce}
    (hn : nonces[signer]? = some n)
    (hverified : Verified env cfg.operatorTable (cfg.buildGraph env input) signer n partials
      (aggregateSession nonces)) :
    (r.insertPartials (cfg.builtClaim env input) session signer partials).InOrder env cfg pog ∧
      (r.insertPartials (cfg.builtClaim env input) session signer partials).Ready env cfg pog := by
  have hready' : (r.insertPartials (cfg.builtClaim env input) session signer partials).Ready env cfg
      pog := by
    refine ⟨hready.full, hready.apart, hready.claims, hready.summaries, hready.nonces, ?_⟩
    intro k input' hk partials' nonces' hpartials' hnonces' op p' n' hp' hn'
    rw [Requested.insertPartials, get_insert] at hpartials'
    split_ifs at hpartials' with heq
    · cases hpartials'
      obtain rfl := hready.apart.claims_inj hinput hk heq
      obtain rfl := Option.some.inj (hinput.symm.trans hk)
      obtain rfl := Option.some.inj (hnonces.symm.trans hnonces')
      rw [get_insert] at hp'
      split_ifs at hp' with hop
      · cases hp'
        subst hop
        obtain rfl := Option.some.inj (hn.symm.trans hn')
        exact hverified
      · exact hready.verified owner input hinput session nonces hsession hnonces op p' n' hp' hn'
    · exact hready.verified k input' hk partials' nonces' hpartials' hnonces' op p' n' hp' hn'
  refine ⟨⟨⟨h.signers, ?_, ?_⟩, h.operators, .inr hready'⟩, hready'⟩
  · intro claim session' hget k hk
    rw [Requested.insertPartials, get_insert] at hget
    split_ifs at hget
    · cases hget
      rcases Std.ExtTreeMap.mem_insert.mp hk with hcmp | hk
      · rwa [← Std.LawfulEqOrd.eq_of_compare hcmp]
      · exact h.partialSigners _ session hsession k hk
    · exact h.partialSigners claim session' hget k hk
  · intro claim partials' op hget hop
    rw [Requested.insertPartials, get_insert] at hget
    split_ifs at hget with heq
    · exact ⟨nonces, heq ▸ hnonces, hsize, heq ▸ hagg⟩
    · exact h.summed claim partials' op hget hop

end

private theorem auxData_ok {aggNonces : BTreeMap Txid (PogMusigF AggNonce)} {graph : PegOutGraph}
    {aggnonces : PogMusigF AggNonce}
    (hagg : aggNonces[graph.claimTx.computeTxid env]? = some aggnonces) :
    auxData env aggNonces graph = .ok (graph.claimTx.computeTxid env,
      { aggNonces := aggnonces
        sighashTypes := graph.musigSighashTypes
        sighashes := graph.musigSighashes env
        witnesses := graph.musigWitnesses }) := by
  rw [auxData, hagg]

private theorem aggregatePartials_ok {l : List (Txid × AuxAggData)}
    {graphPartials : BTreeMap Txid (Session PartialSignature)} (hnodup : (l.map Prod.fst).Nodup)
    (h : ∀ e ∈ l, ∃ sigs, aggregateGraph env table e.2 graphPartials[e.1]? = .ok sigs) :
    ∃ sigs, aggregatePartials env table l graphPartials = .ok sigs := by
  induction l generalizing graphPartials with
  | nil => exact ⟨[], rfl⟩
  | cons e rest ih =>
    obtain ⟨hnot, hnodup⟩ := nodup_cons.mp hnodup
    obtain ⟨sigs, hsigs⟩ := h e mem_cons_self
    have hrest : ∀ e' ∈ rest, ∃ sigs,
        aggregateGraph env table e'.2 (graphPartials.erase e.1)[e'.1]? = .ok sigs := by
      intro e' he'
      have hne : e.1 ≠ e'.1 := fun heq => hnot (heq ▸ mem_map_of_mem he')
      rw [get_erase, if_neg hne]
      exact h e' (mem_cons_of_mem _ he')
    obtain ⟨others, hothers⟩ := ih hnodup hrest
    exact ⟨(e.1, sigs) :: others,
      by simp [aggregatePartials, hsigs, hothers, Except.bind, Except.map]⟩

theorem mem_iff_of_size {T : Type} {session : Session T}
    (hmem : ∀ k ∈ session, k ∈ table.p2pKey) (hsize : session.size = table.cardinality)
    (k : P2POperatorPubKey) : k ∈ session ↔ k ∈ table.p2pKey :=
  ⟨hmem k, mem_of_size_eq hmem (hsize.trans OperatorTable.size_p2pKey.symm) k⟩

/-- **The partial signatures of all graphs join.** -/
theorem InOrder.aggregateAll_ok (h : r.InOrder env cfg pog) (hready : r.Ready env cfg pog)
    (hmusig : env.Musig2 cfg.operatorTable.btcKeys)
    (hall : haveAll cfg.operatorTable.cardinality (vals r.claimTxids)
      r.graphPartials = true) : ∃ sigs, r.aggregateAll env cfg pog = .ok sigs := by
  have hone : ∀ input ∈ vals r.pegOutGraphInputs, ∃ aux,
      auxData env r.aggNonces (cfg.cachedGraph env pog input) = .ok aux ∧
        ∃ sigs, aggregateGraph env cfg.operatorTable aux.2 r.graphPartials[aux.1]? = .ok sigs := by
    intro input hinput
    obtain ⟨k, hk⟩ := mem_vals.mp hinput
    have hclaim : cfg.builtClaim env input ∈ vals r.claimTxids :=
      mem_vals.mpr ⟨k, by rw [hready.claims, hk]; rfl⟩
    have hsession := all_eq_true.mp hall _ hclaim
    split at hsession
    next partials hpartials =>
      have hsize := of_decide_eq_true hsession
      have hmem := mem_iff_of_size (h.partialSigners _ partials hpartials) hsize
      obtain ⟨nonces, hnonces, hcomplete, hagg⟩ := h.summed _ partials _ hpartials
        ((hmem _).mpr OperatorTable.povP2pKey_mem)
      obtain ⟨sigs, hsigs⟩ := aggregateGraph_ok hmusig
        (mem_iff_of_size (h.signers _ nonces hnonces) hcomplete) hmem
        (hready.verified k input hk partials nonces hpartials hnonces)
      rw [hready.apart.cachedGraph hk]
      refine ⟨_, auxData_ok hagg, sigs, ?_⟩
      rw [← hsigs, ← hpartials]
      rfl
    · cases hsession
  obtain ⟨aux, haux, hfrom⟩ := MayPanic.mapM_ok
    (f := fun input => auxData env r.aggNonces (cfg.cachedGraph env pog input))
    fun input hinput => (hone input hinput).imp fun _ h => h.1
  have hgraph : ∀ e ∈ (ofEntries aux).toList, ∃ sigs,
      aggregateGraph env cfg.operatorTable e.2 r.graphPartials[e.1]? = .ok sigs := by
    intro e he
    obtain ⟨input, hinput, hf⟩ :=
      hfrom e (mem_of_get_ofEntries (mem_toList.mp he))
    obtain ⟨aux', haux', hsigs⟩ := hone input hinput
    obtain rfl := Except.ok.inj (haux'.symm.trans hf)
    exact hsigs
  obtain ⟨sigs, hsigs⟩ :=
    aggregatePartials_ok (nodup_map_fst_toList (ofEntries aux)) hgraph
  exact ⟨ofEntries sigs, by simp [aggregateAll, haux, hsigs, Except.bind, Except.map]⟩

section Partials

variable (h : r.InOrder env cfg pog) (hsigner : signer ∈ cfg.operatorTable.p2pKey)
  (hcurrent : (ContractState.firstOwner r.claimTxids claim).isSome →
    r.NoncesCurrent cfg.operatorTable.cardinality claim)
  {partials : PogMusigF PartialSignature}

include h hsigner hcurrent in
theorem InOrder.insertPartials_of_pass {session : Session PartialSignature}
    (hsession : r.graphPartials[claim]? = some session)
    (hpass : r.PartialsPass env cfg pog signer claim partials) :
    (r.insertPartials claim session signer partials).InOrder env cfg pog ∧
      (r.insertPartials claim session signer partials).Ready env cfg pog := by
  obtain ⟨owner, input, howner, hinput, hpass⟩ := hpass
  have hready := h.ready_of_firstOwner howner
  replace hcurrent := hcurrent (by rw [howner]; rfl)
  obtain ⟨input', hinput', rfl⟩ := hready.exists_of_firstOwner howner
  obtain rfl := Option.some.inj (hinput'.symm.trans hinput)
  obtain ⟨nonces, hnonces⟩ := mem_iff_exists.mp (hready.nonces owner input' hinput)
  obtain ⟨hsize, n, aggnonces, hn, hagg, hverified⟩ :=
    verified_of_verifyPartialsFromPeer hnonces hpass
  obtain rfl := hcurrent nonces aggnonces hnonces hsize hagg
  rw [hready.apart.cachedGraph hinput] at hverified
  exact h.insertPartials hready hinput hsession hsigner hnonces hsize hagg hn hverified

include h hsigner hcurrent in
/-- **Partial signatures do not make a contract in order panic**: the check finds what it looks
up, and the last ones join. -/
theorem InOrder.processGraphSignatures_not_isPanic (hmusig : env.Musig2 cfg.operatorTable.btcKeys) :
    ¬(r.processGraphSignatures env cfg pog signer claim partials).IsPanic := by
  rw [processGraphSignatures]
  split
  · simp
  next session hsession =>
  split
  · simp
  split
  · simp
  next owner howner =>
  split
  · simp
  next input hinput =>
  split
  next msg hpanic =>
    have hready := h.ready_of_firstOwner howner
    obtain ⟨input', hinput', rfl⟩ := hready.exists_of_firstOwner howner
    obtain ⟨nonces, hnonces⟩ := mem_iff_exists.mp (hready.nonces owner input' hinput')
    have hsafe : ¬(verifyPartialsFromPeer env cfg signer (cfg.builtClaim env input')
        (cfg.cachedGraph env pog input) r.graphNonces r.aggNonces partials).IsPanic :=
      verifyPartialsFromPeer_not_isPanic hmusig hsigner hnonces (h.signers _ nonces hnonces)
    exact absurd (hpanic ▸ trivial) hsafe
  · simp
  · simp
  next hpass =>
    obtain ⟨horder, hready⟩ := h.insertPartials_of_pass hsigner hcurrent hsession
      ⟨owner, input, howner, hinput, hpass⟩
    rw [finishGraphSignatures]
    split
    next hall =>
      obtain ⟨sigs, hsigs⟩ := horder.aggregateAll_ok hready hmusig hall
      simp [hsigs]
    · simp

end Partials

/-! ### Handing the graphs over -/

/-- **A contract in order can hand its graphs over.** -/
theorem InOrder.intoGraphData_ok (h : r.InOrder env cfg pog) :
    ∃ graphs, r.intoGraphData = .ok graphs := by
  obtain ⟨graphs, hgraphs⟩ : ∃ graphs,
      takeGraphs r.claimTxids.toList r.pegOutGraphInputs r.pegOutGraphSummaries = .ok graphs := by
    rcases h.ready with hempty | hready
    · rw [hempty]
      exact ⟨[], rfl⟩
    · have howner {e : P2POperatorPubKey × Txid} (he : e ∈ r.claimTxids.toList) :
          ∃ input, r.pegOutGraphInputs[e.1]? = some input ∧ cfg.builtClaim env input = e.2 := by
        have hget : r.claimTxids[e.1]? = some e.2 := mem_toList.mp he
        rw [hready.claims] at hget
        exact Option.map_eq_some_iff.mp hget
      refine (exists_takeGraphs_iff (nodup_map_fst_toList _)).mpr ⟨fun e he => ?_, ?_⟩
      · obtain ⟨input, hinput, hclaim⟩ := howner he
        exact ⟨mem_iff_exists.mpr ⟨input, hinput⟩, hclaim ▸ hready.summaries _ input hinput⟩
      · refine List.Nodup.map_on (fun e he e' he' heq => ?_)
          (List.Nodup.of_map _ (nodup_map_fst_toList r.claimTxids))
        obtain ⟨input, hinput, hclaim⟩ := howner he
        obtain ⟨input', hinput', hclaim'⟩ := howner he'
        refine Prod.ext (hready.apart.claims_inj hinput hinput' ?_) heq
        rw [hclaim, hclaim', heq]
  exact ⟨_, by rw [intoGraphData, hgraphs]; rfl⟩

end Requested

end StrataBridge
