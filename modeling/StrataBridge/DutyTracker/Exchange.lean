import StrataBridge.DutyTracker.SigningState
import StrataBridge.Transition.Collect

/-!
# Exchanging setup data, nonces and partial signatures

While a deposit is requested, a contract collects three kinds of messages one after the other:
the announcements of the operators, their nonces for every graph, and their partial signatures
for every graph. Each kind is collected in the same way: a message is entered in its place, and
the last one that was missing makes the contract go on. Here the data of the requested phase is
written as a function of the messages that have arrived, and every handler is shown to enter one
more.

## References

* `crates/duty-tracker/src/contract_state_machine.rs`, lines 1634–2085, 3285–3440
-/

namespace StrataBridge

open Rust Transition BTreeMap List PogMusigF OperatorTable Requested

variable {l : List Announcement} {nonces : PogMusigF PubNonce}

/-! ### Messages -/

/-- What an operator announces for a contract: the fields of a `DepositSetup` message. -/
structure Announcement where
  signer : P2POperatorPubKey
  operatorPubkey : XOnlyPublicKey
  stakeHash : Sha256Hash
  stakeTxid : Txid
  wotsKeys : Wots.PublicKeys

namespace Announcement

def event (a : Announcement) : ContractEvent :=
  .depositSetup a.signer a.operatorPubkey a.stakeHash a.stakeTxid a.wotsKeys

def input (a : Announcement) : PegOutGraphInput where
  stakeOutpoint := ⟨a.stakeTxid, stakeVout⟩
  withdrawalFulfillmentOutpoint := ⟨a.stakeTxid, withdrawalFulfillmentVout⟩
  stakeHash := a.stakeHash
  wotsPublicKeys := a.wotsKeys
  operatorPubkey := a.operatorPubkey

def claim (env : Env) (cfg : ContractCfg) (a : Announcement) : Txid := cfg.builtClaim env a.input

end Announcement

/-- A contribution of an operator to the graph of a claim, as it is sent. -/
abbrev GraphMessage (T : Type) : Type := Contribution P2POperatorPubKey Txid (List T)

def nonceEvent (m : GraphMessage PubNonce) : ContractEvent := .graphNonces m.sender m.item m.value

def partialEvent (m : GraphMessage PartialSignature) : ContractEvent :=
  .graphSigs m.sender m.item m.value

/-! ### The first announcements -/

namespace Requested

def call (env : Env) (cfg : ContractCfg) (p : Requested × PogCache) (ev : ContractEvent) :
    Option ((Requested × PogCache) × Except TransitionErr (List OperatorDuty)) :=
  (p.1.process env cfg p.2 ev).bind Outcome.result

def announced (r : Requested) (l : List Announcement) : Requested :=
  { r with pegOutGraphInputs := ofEntries (l.map fun a => (a.signer, a.input)) }

variable {env : Env} {cfg : ContractCfg} {r : Requested} {pog : PogCache}

theorem fst_announced (l : List Announcement) :
    (l.map fun a => (a.signer, a.input)).map Prod.fst = l.map Announcement.signer := by
  rw [map_map]
  rfl

theorem announced_perm {l' : List Announcement} (hl : (l.map Announcement.signer).Nodup)
    (h : l.Perm l') : r.announced l = r.announced l' := by
  rw [announced, announced, ofEntries_perm (by rwa [fst_announced]) (h.map _)]

theorem upsertInput_announced {a : Announcement} (ha : a.signer ∉ l.map Announcement.signer) :
    (r.announced l).upsertInput a.signer a.operatorPubkey a.stakeHash a.stakeTxid a.wotsKeys =
      r.announced (l ++ [a]) := by
  have hnone : (ofEntries (l.map fun a => (a.signer, a.input)))[a.signer]? = none := by
    rw [← notMem_iff, mem_ofEntries, fst_announced]
    exact ha
  simp only [upsertInput, announced, map_append, map_cons, map_nil,
    ofEntries_concat, mk.injEq, true_and, and_true]
  refine Std.ExtTreeMap.ext_getElem? fun k => ?_
  rw [get_alter, get_insert, hnone]
  rfl

/-- **An announcement is entered**, and the last one generates the graphs. -/
theorem call_announced {a : Announcement} (hl : ((l ++ [a]).map Announcement.signer).Nodup) :
    call env cfg (r.announced l, pog) a.event =
      some (if l.length + 1 ≠ cfg.operatorTable.cardinality then
          ((r.announced (l ++ [a]), pog), .ok [])
        else
          ((((r.announced (l ++ [a])).allGraphs env cfg pog).1.foldl (insertGraph env)
              (r.announced (l ++ [a])), ((r.announced (l ++ [a])).allGraphs env cfg pog).2),
            .ok (((r.announced (l ++ [a])).allGraphs env cfg pog).1.map fun e =>
              nonceDuty env e.2))) := by
  have hfresh : a.signer ∉ l.map Announcement.signer := by
    rw [map_append, nodup_append] at hl
    exact fun hmem => hl.2.2 _ hmem _ (mem_singleton_self _) rfl
  have hsize : (r.announced (l ++ [a])).pegOutGraphInputs.size = l.length + 1 := by
    rw [announced, size_ofEntries (by rwa [fst_announced])]
    simp
  rw [call, Announcement.event, process, processDepositSetup, upsertInput_announced hfresh]
  rw [hsize]
  split <;> rfl

/-! ### The graphs -/

/-- The graphs of the announcements are generated, and no nonces or partial signatures for them
have arrived. -/
structure Opened (env : Env) (cfg : ContractCfg) (pog : PogCache) (setups : List Announcement)
    (r : Requested) : Prop where
  inOrder : r.InOrder env cfg pog
  ready : r.Ready env cfg pog
  inputs : (vals r.pegOutGraphInputs).Perm (setups.map Announcement.input)
  nonces : ∀ (claim : Txid) session, r.graphNonces[claim]? = some session → session = ∅
  partials : ∀ (claim : Txid) session, r.graphPartials[claim]? = some session → session = ∅
  opened : ∀ (k : P2POperatorPubKey) input, r.pegOutGraphInputs[k]? = some input →
    cfg.builtClaim env input ∈ r.graphPartials
  rootNonces : r.rootNonces = ∅

/-- The aggregated nonces of every graph are the sums of complete sessions, and no partial
signatures have arrived. -/
structure Signing (env : Env) (cfg : ContractCfg) (pog : PogCache) (items : List Txid)
    (r : Requested) : Prop where
  inOrder : r.InOrder env cfg pog
  ready : r.Ready env cfg pog
  claims : (vals r.claimTxids).Perm items
  current : ∀ claim, r.NoncesCurrent cfg.operatorTable.cardinality claim
  partials : ∀ (claim : Txid) session, r.graphPartials[claim]? = some session → session = ∅
  opened : ∀ claim ∈ items, claim ∈ r.graphPartials
  rootNonces : r.rootNonces = ∅

structure Fresh (r : Requested) : Prop where
  inputs : r.pegOutGraphInputs = ∅
  claimTxids : r.claimTxids = ∅
  graphNonces : r.graphNonces = ∅
  graphPartials : r.graphPartials = ∅
  rootNonces : r.rootNonces = ∅

theorem Fresh.announced_nil (h : r.Fresh) : r.announced [] = r := by
  have hnil : ofEntries ([] : List (P2POperatorPubKey × PegOutGraphInput)) = ∅ := rfl
  rw [announced, map_nil, hnil, ← h.inputs]

theorem apart_announced {setups : List Announcement}
    (hsigners : (setups.map Announcement.signer).Nodup)
    (hstakes : (setups.map Announcement.stakeTxid).Nodup)
    (hclaims : (setups.map (Announcement.claim env cfg)).Nodup) :
    Apart env cfg ∅ (r.announced setups).pegOutGraphInputs := by
  have hperm : (r.announced setups).pegOutGraphInputs.toList.Perm
      (setups.map fun a => (a.signer, a.input)) :=
    toList_ofEntries_perm (by rwa [fst_announced])
  refine ⟨?_, ?_, fun e _ => ?_⟩
  · rw [(hperm.map _).nodup_iff, map_map]
    exact hstakes
  · rw [(hperm.map _).nodup_iff, map_map]
    exact hclaims
  · simp [ContractCfg.cachedGraph]

/-- **The graphs of announcements that are apart.** They are the ones built from the
announcements, one for each operator. -/
theorem Opened.of_announced {setups : List Announcement} (hr : r.Fresh)
    (hsigners : (setups.map Announcement.signer).Perm cfg.operatorTable.p2pKeys)
    (hstakes : (setups.map Announcement.stakeTxid).Nodup)
    (hclaims : (setups.map (Announcement.claim env cfg)).Nodup) :
    ((r.announced setups).allGraphs env cfg ∅).1 =
        (r.announced setups).pegOutGraphInputs.toList.map (fun e => (e.1, cfg.buildGraph env e.2)) ∧
      Opened env cfg ((r.announced setups).allGraphs env cfg ∅).2 setups
        (((r.announced setups).allGraphs env cfg ∅).1.foldl (insertGraph env)
          (r.announced setups)) := by
  have hnodup : (setups.map Announcement.signer).Nodup :=
    hsigners.nodup_iff.mpr Std.ExtTreeMap.nodup_keys
  have hfst : ((setups.map fun a => (a.signer, a.input)).map Prod.fst).Nodup := by
    rwa [fst_announced]
  obtain ⟨hgraphs, hapart⟩ := (apart_announced hnodup hstakes hclaims).allGraphs (r := r.announced
    setups)
  refine ⟨hgraphs, ?_⟩
  rw [hgraphs]
  have hoperators : ∀ k ∈ (r.announced setups).pegOutGraphInputs, k ∈ cfg.operatorTable.p2pKey := by
    intro k hk
    rw [announced, mem_ofEntries, fst_announced] at hk
    exact Std.ExtTreeMap.mem_keys.mp (hsigners.subset hk)
  have hsessions : (r.announced setups).SessionsInOrder cfg.operatorTable := by
    refine ⟨?_, ?_, ?_⟩ <;> simp [announced, hr.graphNonces, hr.graphPartials]
  have hfull : (r.announced setups).pegOutGraphInputs.size = cfg.operatorTable.cardinality := by
    rw [announced, size_ofEntries hfst, length_map, ← length_map,
      hsigners.length_eq, p2pKeys, Std.ExtTreeMap.length_keys,
      size_p2pKey]
  have horder := hsessions.foldl_insertGraph hoperators
    (by simp [ClaimsHaveInputs, announced, hr.claimTxids]) hfull hapart
  generalize hlist : ((r.announced setups).pegOutGraphInputs.toList.map fun e =>
    (e.1, cfg.buildGraph env e.2)) = graphs at horder ⊢
  have hinputs : (graphs.foldl (insertGraph env) (r.announced setups)).pegOutGraphInputs =
      (r.announced setups).pegOutGraphInputs := pegOutGraphInputs_foldl_insertGraph graphs
  have hready : (graphs.foldl (insertGraph env) (r.announced setups)).Ready env cfg
      ((r.announced setups).allGraphs env cfg ∅).2 := by
    refine horder.ready.resolve_left fun hempty => ?_
    have hpov : cfg.operatorTable.povP2pKey ∈ graphs.map Prod.fst := by
      rw [← hlist, map_map]
      change _ ∈ (r.announced setups).pegOutGraphInputs.toList.map Prod.fst
      rw [Std.ExtTreeMap.map_fst_toList_eq_keys, Std.ExtTreeMap.mem_keys, announced,
        mem_ofEntries, fst_announced, hsigners.mem_iff]
      exact Std.ExtTreeMap.mem_keys.mpr povP2pKey_mem
    have hmem : cfg.operatorTable.povP2pKey ∈
        (graphs.foldl (insertGraph env) (r.announced setups)).claimTxids :=
      (claimTxids_foldl_insertGraph graphs).mpr (.inr hpov)
    rw [hempty] at hmem
    exact Std.ExtTreeMap.not_mem_empty hmem
  refine ⟨horder, hready, ?_, ?_, ?_, ?_, ?_⟩
  · rw [hinputs]
    exact (vals_ofEntries_perm hfst).trans (.of_eq (by rw [map_map]; rfl))
  · intro claim session hget
    rw [graphNonces_foldl_insertGraph] at hget
    split_ifs at hget
    · exact (Option.some.inj hget).symm
    · simp [announced, hr.graphNonces] at hget
  · intro claim session hget
    rw [graphPartials_foldl_insertGraph] at hget
    split_ifs at hget
    · exact (Option.some.inj hget).symm
    · simp [announced, hr.graphPartials] at hget
  · intro k input hk
    rw [hinputs] at hk
    rw [mem_iff_exists, graphPartials_foldl_insertGraph, if_pos]
    · exact ⟨∅, rfl⟩
    · rw [← hlist, map_map]
      exact mem_map.mpr ⟨(k, input), mem_toList.mpr hk, rfl⟩
  · exact (foldl_insertGraph_eq (f := Requested.rootNonces) (fun _ _ => rfl) _).trans hr.rootNonces

/-! ### Nonces -/

def withNonces (r : Requested) (l : List (GraphMessage PubNonce)) : Requested :=
  { r with graphNonces := fill unpack r.graphNonces l }

def withPartials (r : Requested) (l : List (GraphMessage PartialSignature)) : Requested :=
  { r with graphPartials := fill unpack r.graphPartials l }

section Sessions

variable {T : Type} {sessions : BTreeMap Txid (Session T)} {l rest : List (GraphMessage T)}
  {claims : List Txid}

theorem haveAll_fill {n : ℕ} (hclaims : ∀ c ∈ claims, c ∈ sessions) :
    haveAll n claims (fill unpack sessions l) = true ↔ ∀ c ∈ claims, (row unpack c l).size = n := by
  rw [haveAll, all_eq_true]
  refine forall₂_congr fun c hc => ?_
  rw [get_fill_of_mem (hclaims c hc)]
  exact decide_eq_true_iff

def OnePerSlot (table : OperatorTable) (items : List Txid) (msgs : List (GraphMessage T)) : Prop :=
  (msgs.map Contribution.slot).Perm (table.p2pKeys ×ˢ items)

section OnePerSlot

variable {table : OperatorTable} {items : List Txid} {msgs : List (GraphMessage T)}

variable (h : OnePerSlot table items msgs)
include h

theorem OnePerSlot.nodup (hitems : items.Nodup) :
    (msgs.map Contribution.slot).Nodup := by
  have hkeys : table.p2pKeys.Nodup := Std.ExtTreeMap.nodup_keys
  exact h.nodup_iff.mpr (hkeys.product hitems)

theorem OnePerSlot.mem {m : GraphMessage T} (hm : m ∈ msgs) :
    m.sender ∈ table.p2pKey ∧ m.item ∈ items := by
  obtain ⟨hkey, hitem⟩ := mem_product.mp (h.subset (mem_map_of_mem hm))
  exact ⟨Std.ExtTreeMap.mem_keys.mp hkey, hitem⟩

theorem OnePerSlot.ne_nil {c : Txid} (hc : c ∈ items) :
    msgs ≠ [] := by
  rintro rfl
  have hmem : (table.povP2pKey, c) ∈ table.p2pKeys ×ˢ items :=
    mem_product.mpr ⟨Std.ExtTreeMap.mem_keys.mpr povP2pKey_mem, hc⟩
  simpa using h.symm.subset hmem

theorem OnePerSlot.haveAll_iff (hitems : items.Nodup)
    (hclaims : claims.Perm items) (hopen : ∀ c ∈ claims, c ∈ sessions)
    (hperm : (l ++ rest).Perm msgs) :
    haveAll table.cardinality claims (fill unpack sessions l) = true ↔
      rest = [] ∧ ∀ m ∈ l, (unpack m.value).isSome := by
  have hkeys : table.p2pKeys.Nodup := Std.ExtTreeMap.nodup_keys
  have hlength : table.p2pKeys.length = table.cardinality := by
    rw [p2pKeys, Std.ExtTreeMap.length_keys, size_p2pKey]
  rw [haveAll_fill hopen, ← rows_full_iff hitems hkeys ((hperm.map _).trans h), hlength]
  simp only [hclaims.mem_iff]

/-- A message that comes after some others is for another slot, and all sessions are complete
after it when it is the last one and all could be unpacked. -/
theorem OnePerSlot.next (hitems : items.Nodup)
    (hclaims : claims.Perm items) (hopen : ∀ c ∈ claims, c ∈ sessions) {m : GraphMessage T}
    (hperm : (l ++ m :: rest).Perm msgs) :
    m.item ∈ sessions ∧ m.slot ∉ l.map Contribution.slot ∧
      (haveAll table.cardinality claims (fill unpack sessions (l ++ [m])) = true ↔
        rest = [] ∧ ∀ m' ∈ l ++ [m], (unpack m'.value).isSome) := by
  have hm : m ∈ msgs := hperm.subset (by simp)
  have hnodup : ((l ++ m :: rest).map Contribution.slot).Nodup :=
    (hperm.map _).nodup_iff.mpr (h.nodup hitems)
  refine ⟨hopen _ (hclaims.mem_iff.mpr (h.mem hm).2), ?_, ?_⟩
  · rw [map_append, map_cons, nodup_middle, nodup_cons] at hnodup
    exact fun hmem => hnodup.1 (mem_append_left _ hmem)
  · refine h.haveAll_iff hitems hclaims hopen ?_
    rwa [append_assoc, singleton_append]

end OnePerSlot

end Sessions

section Nonces

variable {l : List (GraphMessage PubNonce)} {m : GraphMessage PubNonce}

theorem processGraphNonces_withNonces (hitem : m.item ∈ r.graphNonces)
    (hfresh : m.slot ∉ l.map Contribution.slot) (hm : unpack m.value = some nonces) :
    (r.withNonces l).processGraphNonces env cfg pog m.sender m.item m.value =
      if haveAll cfg.operatorTable.cardinality (vals r.claimTxids)
          (r.withNonces (l ++ [m])).graphNonces then
        match signatureDuties env cfg (r.withNonces (l ++ [m])).sumNonces pog
          (vals r.claimTxids) with
        | (.ok duties, pog) => .ok ((r.withNonces (l ++ [m])).sumNonces, pog) duties
        | (.error e, pog) => .err ((r.withNonces (l ++ [m])).sumNonces, pog) e
      else .ok (r.withNonces (l ++ [m]), pog) [] := by
  have hget : (r.withNonces l).graphNonces[m.item]? = some (row unpack m.item l) :=
    get_fill_of_mem hitem
  have hins : (r.withNonces l).insertNonces m.item (row unpack m.item l) m.sender
      nonces = r.withNonces (l ++ [m]) := by
    rw [insertNonces, withNonces, withNonces, fill_concat hitem hm]
  rw [processGraphNonces, hm, hget]
  simp only [if_neg (notMem_row hfresh), hins]
  rfl

/-- **Nonces are entered.** -/
theorem call_withNonces (hitem : m.item ∈ r.graphNonces)
    (hfresh : m.slot ∉ l.map Contribution.slot) (hm : unpack m.value = some nonces)
    (hmore : ¬haveAll cfg.operatorTable.cardinality (vals r.claimTxids)
      (r.withNonces (l ++ [m])).graphNonces = true) :
    call env cfg (r.withNonces l, pog) (nonceEvent m) =
      some ((r.withNonces (l ++ [m]), pog), .ok []) := by
  rw [call, nonceEvent, process, Option.bind_some, processGraphNonces_withNonces hitem hfresh hm,
    if_neg hmore, Outcome.result_ok]

/-- **The last nonces start the signing.** -/
theorem call_last_nonces (hitem : m.item ∈ r.graphNonces)
    (hfresh : m.slot ∉ l.map Contribution.slot) (hm : unpack m.value = some nonces)
    (hall : haveAll cfg.operatorTable.cardinality (vals r.claimTxids)
      (r.withNonces (l ++ [m])).graphNonces = true) {duties : List OperatorDuty} {pog' : PogCache}
    (hduties : signatureDuties env cfg (r.withNonces (l ++ [m])).sumNonces pog
      (vals r.claimTxids) = (.ok duties, pog')) :
    call env cfg (r.withNonces l, pog) (nonceEvent m) =
      some (((r.withNonces (l ++ [m])).sumNonces, pog'), .ok duties) := by
  rw [call, nonceEvent, process, processGraphNonces_withNonces hitem hfresh hm,
    if_pos hall, hduties]
  rfl

theorem call_withNonces_of_none (hm : unpack m.value = none) :
    call env cfg (r.withNonces l, pog) (nonceEvent m) =
      some ((r.withNonces (l ++ [m]), pog), .error .unpackNonces) := by
  have hsame : r.withNonces (l ++ [m]) = r.withNonces l := by
    rw [withNonces, withNonces, fill_concat_of_none hm]
  rw [call, nonceEvent, process, processGraphNonces, hm, hsame]
  rfl

theorem InOrder.withNonces (h : r.InOrder env cfg pog)
    (hempty : ∀ (claim : Txid) session, r.graphNonces[claim]? = some session → session = ∅)
    (hl : (l.map Contribution.slot).Nodup)
    (hsenders : ∀ m ∈ l, m.sender ∈ cfg.operatorTable.p2pKey)
    (hitems : ∀ m ∈ l, m.item ∈ r.graphNonces) : (r.withNonces l).InOrder env cfg pog := by
  -- over the messages in the order of their arrival
  induction l using reverseRecOn with
  | nil =>
    rw [Requested.withNonces, fill_nil hempty]
    exact h
  | append_singleton l m ih =>
    rw [map_append, nodup_append] at hl
    have hfresh : m.slot ∉ l.map Contribution.slot :=
      fun hmem => hl.2.2 _ hmem _ (mem_singleton_self _) rfl
    have hl := ih hl.1 (fun m' hm' => hsenders m' (mem_append_left _ hm'))
      fun m' hm' => hitems m' (mem_append_left _ hm')
    have hlast : m ∈ l ++ [m] := mem_append_right _ (mem_singleton_self m)
    cases hm : unpack m.value with
    | none =>
      rw [Requested.withNonces, fill_concat_of_none hm]
      exact hl
    | some nonces =>
      have hins := hl.insertNonces (get_fill_of_mem (hitems m hlast)) (notMem_row hfresh)
        (hsenders m hlast) nonces
      rwa [Requested.insertNonces, Requested.withNonces, fill_concat (hitems m hlast) hm] at hins

end Nonces

/-! ### Signing duties -/

section

variable (h : r.Ready env cfg pog)
include h

theorem Ready.vals_claimTxids : vals r.claimTxids =
    (vals r.pegOutGraphInputs).map (cfg.builtClaim env) := by
  have hvals := map_vals_eq (f := id) (g := cfg.builtClaim env) (m := r.claimTxids)
    (t := r.pegOutGraphInputs) fun k => by rw [Option.map_id, id, h.claims]
  rwa [map_id] at hvals

theorem Ready.nodup_claims : (vals r.claimTxids).Nodup := by
  rw [h.vals_claimTxids, vals, map_map]
  exact h.apart.claims

theorem Ready.lastOwner {k : P2POperatorPubKey}
    {input : PegOutGraphInput} (hk : r.pegOutGraphInputs[k]? = some input) :
    lastOwner r.claimTxids (cfg.builtClaim env input) = some k := by
  have hnodup : ((r.claimTxids.toList.map Prod.swap).map Prod.fst).Nodup := by
    rw [map_map]
    exact h.nodup_claims
  rw [Requested.lastOwner, get_ofEntries hnodup]
  refine mem_map.mpr ⟨(k, cfg.builtClaim env input), ?_, rfl⟩
  rw [mem_toList, h.claims, hk, Option.map_some]

theorem Ready.signatureDuties_eq {agg : Txid → PogMusigF AggNonce}
    (hagg : ∀ c ∈ vals r.claimTxids, r.aggNonces[c]? = some (agg c))
    {inputs : List PegOutGraphInput} (hinputs : inputs ⊆ vals r.pegOutGraphInputs) :
    (signatureDuties env cfg r pog (inputs.map (cfg.builtClaim env))).1 =
      .ok (inputs.map fun input => signatureDuty env (cfg.builtClaim env input)
        (agg (cfg.builtClaim env input)) (cfg.buildGraph env input)
        (r.ownPartials cfg (cfg.builtClaim env input))) := by
  induction inputs generalizing pog with
  | nil => rfl
  | cons input rest ih =>
    obtain ⟨k, hk⟩ := mem_vals.mp (hinputs mem_cons_self)
    obtain ⟨hgraph, hapart⟩ := h.apart.retrieveGraph (e := (k, input)) (mem_toList.mpr hk)
    have hclaim : cfg.builtClaim env input ∈ vals r.claimTxids := by
      rw [h.vals_claimTxids]
      exact mem_map_of_mem (hinputs mem_cons_self)
    have hready : r.Ready env cfg (cfg.retrieveGraph env pog input).2 :=
      ⟨h.full, hapart, h.claims, h.summaries, h.nonces, h.verified⟩
    have hrest := ih hready fun i hi => hinputs (mem_cons_of_mem input hi)
    rw [map_cons, signatureDuties, h.lastOwner hk]
    simp only [hk, hagg _ hclaim, hrest, hgraph]
    rfl

end

/-! ### Partial signatures -/

/-- The partial signatures of a message pass the check of the contract (lines 1958–2001). -/
def verifies (env : Env) (cfg : ContractCfg) (r : Requested) (pog : PogCache)
    (m : GraphMessage PartialSignature) : Bool :=
  match unpack m.value, ContractState.firstOwner r.claimTxids m.item with
  | some partials, some owner =>
    match r.pegOutGraphInputs[owner]? with
    | some input =>
      match verifyPartialsFromPeer env cfg m.sender m.item (cfg.cachedGraph env pog input)
        r.graphNonces r.aggNonces partials with
      | .ok _ true => true
      | _ => false
    | none => false
  | _, _ => false

theorem exists_of_verifies {m : GraphMessage PartialSignature}
    (h : r.verifies env cfg pog m = true) : ∃ partials owner input,
      unpack m.value = some partials ∧
      ContractState.firstOwner r.claimTxids m.item = some owner ∧
      r.pegOutGraphInputs[owner]? = some input ∧
      verifyPartialsFromPeer env cfg m.sender m.item (cfg.cachedGraph env pog input)
        r.graphNonces r.aggNonces partials = .ok () true := by
  rw [verifies] at h
  split at h
  next partials owner hm howner =>
    split at h
    next input hinput =>
      split at h
      next hpass => exact ⟨partials, owner, input, hm, howner, hinput, hpass⟩
      · cases h
    · cases h
  · cases h

section Partials

variable {l : List (GraphMessage PartialSignature)} {m : GraphMessage PartialSignature}

/-- **Partial signatures that pass the check are entered.** -/
theorem call_withPartials (hitem : m.item ∈ r.graphPartials)
    (hfresh : m.slot ∉ l.map Contribution.slot) (hm : r.verifies env cfg pog m = true) :
    call env cfg (r.withPartials l, pog) (partialEvent m) =
      ((r.withPartials (l ++ [m])).finishGraphSignatures env cfg pog).result := by
  obtain ⟨partials, owner, input, hm, howner, hinput, hpass⟩ := exists_of_verifies hm
  have hget : (r.withPartials l).graphPartials[m.item]? = some (row unpack m.item l) :=
    get_fill_of_mem hitem
  have hins : (r.withPartials l).insertPartials m.item (row unpack m.item l) m.sender
      partials = r.withPartials (l ++ [m]) := by
    rw [insertPartials, withPartials, withPartials, fill_concat hitem hm]
  rw [call, partialEvent, process, Option.bind_some, hm]
  dsimp only
  rw [processGraphSignatures, hget]
  simp only [if_neg (notMem_row hfresh), hins]
  simp only [withPartials, howner, hinput, hpass]

theorem InOrder.withPartials (h : r.InOrder env cfg pog) (hready : r.Ready env cfg pog)
    (hempty : ∀ (claim : Txid) session, r.graphPartials[claim]? = some session → session = ∅)
    (hcurrent : ∀ claim, r.NoncesCurrent cfg.operatorTable.cardinality claim)
    (hl : (l.map Contribution.slot).Nodup)
    (hsenders : ∀ m ∈ l, m.sender ∈ cfg.operatorTable.p2pKey)
    (hitems : ∀ m ∈ l, m.item ∈ r.graphPartials)
    (hpass : ∀ m ∈ l, r.verifies env cfg pog m = true) :
    (r.withPartials l).InOrder env cfg pog ∧ (r.withPartials l).Ready env cfg pog := by
  induction l using reverseRecOn with
  | nil =>
    rw [Requested.withPartials, fill_nil hempty]
    exact ⟨h, hready⟩
  | append_singleton l m ih =>
    rw [map_append, nodup_append] at hl
    obtain ⟨horder, -⟩ := ih hl.1 (fun m' hm' => hsenders m' (mem_append_left _ hm'))
      (fun m' hm' => hitems m' (mem_append_left _ hm'))
      fun m' hm' => hpass m' (mem_append_left _ hm')
    have hlast : m ∈ l ++ [m] := mem_append_right _ (mem_singleton_self m)
    obtain ⟨partials, owner, input, hm, howner, hinput, hverify⟩ :=
      exists_of_verifies (hpass m hlast)
    have hins := horder.insertPartials_of_pass (hsenders m hlast) (fun _ => hcurrent m.item)
      (get_fill_of_mem (hitems m hlast)) ⟨owner, input, howner, hinput, hverify⟩
    rwa [Requested.insertPartials, Requested.withPartials, fill_concat (hitems m hlast) hm] at hins

end Partials

end Requested

end StrataBridge
