import StrataBridge.DutyTracker.Phases

/-!
# What the requested phase writes

The announcement that completes the setup of a contract generates the graphs of all operators
and opens empty signing sessions for them; every other event leaves the graphs alone. This file
says what the maps of `Requested` hold after either.
-/

namespace StrataBridge

open Rust BTreeMap List

variable {k : P2POperatorPubKey}

/-- The announcement of an operator's data. -/
def ContractEvent.isSetup : ContractEvent → Bool
  | .depositSetup .. => true
  | _ => false

namespace Requested

variable {env : Env} {cfg : ContractCfg} {r : Requested} {pog : PogCache}

/-! ### Generating the graphs -/

theorem map_fst_retrieveGraphs (pog : PogCache) (l : List (P2POperatorPubKey × PegOutGraphInput)) :
    (retrieveGraphs env cfg pog l).1.map Prod.fst = l.map Prod.fst := by
  induction l generalizing pog with
  | nil => rfl
  | cons e rest ih => simp [retrieveGraphs, ih]

/-- A graph is generated for every operator that has announced its data. -/
theorem map_fst_allGraphs (r : Requested) (pog : PogCache) :
    (r.allGraphs env cfg pog).1.map Prod.fst = r.pegOutGraphInputs.keys := by
  rw [allGraphs, ← Std.ExtTreeMap.map_fst_toList_eq_keys]
  split
  · simp [Function.comp_def]
  · exact map_fst_retrieveGraphs pog _

variable (graphs : List (P2POperatorPubKey × PegOutGraph)) {o : Requested.Reply}
  {ev : ContractEvent}

/-- Entering graphs gives their operators a claim. -/
theorem claimTxids_foldl_insertGraph :
    k ∈ (graphs.foldl (insertGraph env) r).claimTxids ↔
      k ∈ r.claimTxids ∨ k ∈ graphs.map Prod.fst := by
  induction graphs generalizing r with
  | nil => simp
  | cons e rest ih =>
    simp only [foldl_cons, insertGraph]
    grind

/-- What entering one graph leaves alone, entering several leaves alone. -/
theorem foldl_insertGraph_eq {β : Type} {f : Requested → β}
    (hf : ∀ r e, f (insertGraph env r e) = f r)
    (graphs : List (P2POperatorPubKey × PegOutGraph)) :
    f (graphs.foldl (insertGraph env) r) = f r := by
  induction graphs generalizing r with
  | nil => rfl
  | cons e rest ih => rw [foldl_cons, ih, hf]

theorem pegOutGraphInputs_foldl_insertGraph :
    (graphs.foldl (insertGraph env) r).pegOutGraphInputs = r.pegOutGraphInputs :=
  foldl_insertGraph_eq (f := pegOutGraphInputs) (fun _ _ => rfl) graphs

/-- The claim of an operator's graph. -/
def claimOf (env : Env) (e : P2POperatorPubKey × PegOutGraph) : Txid :=
  e.2.claimTx.computeTxid env

/-- Entering graphs opens an empty session for each of their claims. -/
theorem sessions_foldl_insertGraph {T : Type} {s : Requested → BTreeMap Txid (Session T)}
    (hopen : ∀ r e, s (insertGraph env r e) = (s r).insert (claimOf env e) ∅)
    (graphs : List (P2POperatorPubKey × PegOutGraph)) (c : Txid) :
    (s (graphs.foldl (insertGraph env) r))[c]? =
      if c ∈ graphs.map (claimOf env) then some ∅ else (s r)[c]? := by
  induction graphs generalizing r with
  | nil => simp
  | cons e rest ih =>
    simp only [foldl_cons, ih, hopen, get_insert, map_cons, mem_cons]
    grind

section Entered

variable (env r) (graphs : List (P2POperatorPubKey × PegOutGraph)) (c : Txid)

theorem graphNonces_foldl_insertGraph : (graphs.foldl (insertGraph env) r).graphNonces[c]? =
    if c ∈ graphs.map (claimOf env) then some ∅ else r.graphNonces[c]? :=
  sessions_foldl_insertGraph (s := graphNonces) (fun _ _ => rfl) graphs c

theorem graphPartials_foldl_insertGraph : (graphs.foldl (insertGraph env) r).graphPartials[c]? =
    if c ∈ graphs.map (claimOf env) then some ∅ else r.graphPartials[c]? :=
  sessions_foldl_insertGraph (s := graphPartials) (fun _ _ => rfl) graphs c

theorem aggNonces_foldl_insertGraph :
    (graphs.foldl (insertGraph env) r).aggNonces = r.aggNonces :=
  foldl_insertGraph_eq (f := aggNonces) (fun _ _ => rfl) graphs

end Entered

theorem claimTxid_of_foldl_insertGraph {graphs : List (P2POperatorPubKey × PegOutGraph)}
    {c : Txid} (h : (graphs.foldl (insertGraph env) r).claimTxids[k]? = some c) :
    c ∈ graphs.map (claimOf env) ∨ r.claimTxids[k]? = some c := by
  induction graphs generalizing r with
  | nil => exact .inr h
  | cons e rest ih =>
    rcases ih h with hmem | hget
    · exact .inl (mem_cons_of_mem _ hmem)
    · simp only [insertGraph, get_insert] at hget
      split_ifs at hget
      · left
        rw [← Option.some.inj hget]
        exact mem_cons_self
      · exact .inr hget

/-- The claims whose graphs an announcement generates anew: all of them once everyone has
announced its data, and none before. -/
def setupClaims (env : Env) (cfg : ContractCfg) (r : Requested) (pog : PogCache)
    (signer : P2POperatorPubKey) (operatorPubkey : XOnlyPublicKey) (stakeHash : Sha256Hash)
    (stakeTxid : Txid) (wotsKeys : Wots.PublicKeys) : List Txid :=
  let r := r.upsertInput signer operatorPubkey stakeHash stakeTxid wotsKeys
  if r.pegOutGraphInputs.size ≠ cfg.operatorTable.cardinality then []
  else (r.allGraphs env cfg pog).1.map (claimOf env)

/-- An announcement adds the data of its sender. -/
theorem mem_upsertInput {signer : P2POperatorPubKey} {operatorPubkey : XOnlyPublicKey}
    {stakeHash : Sha256Hash} {stakeTxid : Txid} {wotsKeys : Wots.PublicKeys} :
    k ∈ (r.upsertInput signer operatorPubkey stakeHash stakeTxid wotsKeys).pegOutGraphInputs ↔
      k = signer ∨ k ∈ r.pegOutGraphInputs := by
  rw [mem_iff_exists, mem_iff_exists, upsertInput]
  simp only [get_alter]
  by_cases hk : signer = k
  · cases hget : r.pegOutGraphInputs[signer]? <;> simp [hk]
  · simp [hk, Ne.symm hk]

/-! ### What stays -/

/-- Two states with the same graphs. -/
structure SameGraphs (r r' : Requested) : Prop where
  inputs : r'.pegOutGraphInputs = r.pegOutGraphInputs
  summaries : r'.pegOutGraphSummaries = r.pegOutGraphSummaries
  claims : r'.claimTxids = r.claimTxids

/-- Two states with the same graphs and the same nonces for them. -/
structure SameNonces (r r' : Requested) : Prop extends SameGraphs r r' where
  nonces : r'.graphNonces = r.graphNonces
  aggregated : r'.aggNonces = r.aggNonces

/-- **Only an announcement changes the graphs.** -/
theorem process_sameGraphs (ho : r.process env cfg pog ev = some o) (hev : ev.isSetup = false) :
    o.Leaves fun p => r.SameGraphs p.1 := by
  cases reaction ho with
  | announces | generates => cases hev
  | lastNonces _ _ hr' | noncesFail _ _ hr' | lastPartials _ _ _ hr' =>
    subst hr'
    exact ⟨rfl, rfl, rfl⟩
  | partialsPanic | rootPanics => trivial
  | _ => exact ⟨rfl, rfl, rfl⟩

/-- The request and its deadline stay as they are. -/
theorem process_fixed (ho : r.process env cfg pog ev = some o) : o.Leaves fun p =>
      p.1.depositRequestTxid = r.depositRequestTxid ∧ p.1.abortDeadline = r.abortDeadline := by
  cases reaction ho with
  | generates hr' =>
    subst hr'
    exact ⟨foldl_insertGraph_eq (f := depositRequestTxid) (fun _ _ => rfl) _,
      foldl_insertGraph_eq (f := abortDeadline) (fun _ _ => rfl) _⟩
  | announces hr' | lastNonces _ _ hr' | noncesFail _ _ hr' | lastPartials _ _ _ hr' =>
    subst hr'
    exact ⟨rfl, rfl⟩
  | partialsPanic | rootPanics => trivial
  | _ => exact ⟨rfl, rfl⟩

/-! ### Signing duties -/

/-- A duty to sign a graph carries the aggregated nonces of its claim. -/
theorem mem_signatureDuties {claims : List Txid} {duties : List OperatorDuty}
    (h : (signatureDuties env cfg r pog claims).1 = .ok duties) : ∀ d ∈ duties,
      ∃ claim ∈ claims, ∃ aggnonces graph existing, r.aggNonces[claim]? = some aggnonces ∧
        d = signatureDuty env claim aggnonces graph existing := by
  induction claims generalizing pog duties with
  | nil =>
    cases h
    simp
  | cons c rest ih =>
    rw [signatureDuties] at h
    split at h
    · cases h
    split at h
    · cases h
    next input _ =>
    dsimp only at h
    split at h
    · cases h
    next aggnonces hagg =>
    cases hrest : (signatureDuties env cfg r (cfg.retrieveGraph env pog input).2 rest).1 with
    | error e => simp [hrest, Except.map] at h
    | ok ds =>
      simp only [hrest, Except.map, Except.ok.injEq] at h
      subst h
      intro d hd
      rcases mem_cons.mp hd with rfl | hd
      · exact ⟨c, mem_cons_self, aggnonces, _, _, hagg, rfl⟩
      · obtain ⟨claim, hclaim, hex⟩ := ih hrest d hd
        exact ⟨claim, mem_cons_of_mem _ hclaim, hex⟩

/-! ### Claims and inputs -/

/-- Every operator with a claim has announced its data. -/
def ClaimsHaveInputs (r : Requested) : Prop := ∀ k ∈ r.claimTxids, k ∈ r.pegOutGraphInputs

theorem ClaimsHaveInputs.of_sameGraphs {r' : Requested} (h : r.ClaimsHaveInputs)
    (hsame : r.SameGraphs r') : r'.ClaimsHaveInputs := by
  rw [ClaimsHaveInputs, hsame.claims, hsame.inputs]
  exact h

/-- Every event keeps it so. -/
theorem ClaimsHaveInputs.process (h : r.ClaimsHaveInputs) (ho : r.process env cfg pog ev = some o) :
    o.Leaves fun p => p.1.ClaimsHaveInputs := by
  cases hev : ev.isSetup with
  | false => exact (process_sameGraphs ho hev).mono fun p hp => h.of_sameGraphs hp
  | true =>
    cases reaction ho with
    | rejects | passes => exact h
    | announces hr' =>
      subst hr'
      exact fun k hk => mem_upsertInput.mpr (.inr (h k hk))
    | generates hr' =>
      intro k hk
      rw [pegOutGraphInputs_foldl_insertGraph]
      rcases (claimTxids_foldl_insertGraph _).mp hk with hk | hk
      · subst hr'
        exact mem_upsertInput.mpr (.inr (h k hk))
      · rwa [map_fst_allGraphs, Std.ExtTreeMap.mem_keys] at hk
    | _ => cases hev

end Requested

/-- **Every operator with a claim has announced its data.** -/
theorem ContractSM.Reachable.claimsHaveInputs {env : Env} {cfg : ContractCfg}
    {height deadline : BitcoinBlockHeight} {sm : ContractSM}
    (h : Reachable env (.new cfg height deadline) sm) {r : Requested}
    (hs : sm.state.state = .requested r) : r.ClaimsHaveInputs := by
  refine h.invariant (P := fun sm => ∀ r, sm.state.state = .requested r → r.ClaimsHaveInputs)
    ?_ (fun sm ev sm' ds hsm hstep => requested_invariant (Q := fun r _ => r.ClaimsHaveInputs)
      hstep hsm ?_) r hs
  · intro r hr
    cases hr
    intro k hk
    exact absurd hk Std.ExtTreeMap.not_mem_empty
  · intro r o _ hr ho
    exact hr.process ho

end StrataBridge
