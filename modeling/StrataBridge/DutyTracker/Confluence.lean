import StrataBridge.DutyTracker.Exchange

/-!
# The exchange in any order

The operators exchange their messages over a network that keeps no order. A contract in its
initial state that is sent one announcement of every operator, then the nonces of every operator
for every graph, and then their partial signatures, ends in the same state whatever the order
within each of the three rounds. Only the last message of a round makes it hand out duties.

## References

* `crates/duty-tracker/src/contract_state_machine.rs`, lines 1634–2085, 3285–3440
-/

namespace StrataBridge

open Rust Transition Linear BTreeMap List PogMusigF OperatorTable Requested

namespace Requested

variable {env : Env} {cfg : ContractCfg} {r : Requested} {pog : PogCache}
  {setups : List Announcement}

/-! ### One round after the other -/

def lastOnly (n : ℕ) (duties : List OperatorDuty) :
    List (Except TransitionErr (List OperatorDuty)) :=
  replicate (n - 1) (.ok []) ++ [.ok duties]

/-- **The announcements, in any order.** -/
theorem Fresh.calls_announced (hr : r.Fresh)
    (hsigners : (setups.map Announcement.signer).Perm cfg.operatorTable.p2pKeys)
    (hstakes : (setups.map Announcement.stakeTxid).Nodup)
    (hclaims : (setups.map (Announcement.claim env cfg)).Nodup) :
    ∃ r₁ pog₁ duties, Opened env cfg pog₁ setups r₁ ∧
      duties.Perm (setups.map fun a => nonceDuty env (cfg.buildGraph env a.input)) ∧
      ∀ order, order.Perm setups →
        calls (fun p (a : Announcement) => call env cfg p a.event) (r, ∅) order =
          some ((r₁, pog₁), lastOnly setups.length duties) := by
  obtain ⟨hgraphs, hopened⟩ := Opened.of_announced hr hsigners hstakes hclaims
  have hnodup : (setups.map Announcement.signer).Nodup :=
    hsigners.nodup_iff.mpr Std.ExtTreeMap.nodup_keys
  have hlength : setups.length = cfg.operatorTable.cardinality := by
    rw [← length_map, hsigners.length_eq, p2pKeys, Std.ExtTreeMap.length_keys, size_p2pKey]
  refine ⟨_, _, ((r.announced setups).allGraphs env cfg ∅).1.map fun e => nonceDuty env e.2,
    hopened, ?_, fun order horder => ?_⟩
  · rw [hgraphs, map_map]
    have hperm := toList_ofEntries_perm (l := setups.map fun a => (a.signer, a.input))
      (by rwa [fst_announced])
    refine (hperm.map _).trans (.of_eq ?_)
    rw [map_map]
    rfl
  · have hstart : (r, (∅ : PogCache)) = (r.announced [], ∅) := by rw [hr.announced_nil]
    rw [hstart]
    refine calls_collect (fun l => (r.announced l, (∅ : PogCache))) _ (_, _) ?_ ?_ ?_ horder
    · rintro rfl
      have hpos := (hsigners.mem_iff (a := cfg.operatorTable.povP2pKey)).mpr
        (Std.ExtTreeMap.mem_keys.mpr povP2pKey_mem)
      cases hpos
    · intro l a rest hperm hrest
      have hlen := hperm.length_eq
      have hne : rest.length ≠ 0 := fun h => hrest (length_eq_zero_iff.mp h)
      rw [length_append, length_cons] at hlen
      rw [call_announced, if_pos (by omega)]
      have hsub : (l ++ [a]).Sublist (l ++ a :: rest) :=
        List.Sublist.append_left (singleton_sublist.mpr mem_cons_self) l
      exact ((hperm.map Announcement.signer).nodup_iff.mpr hnodup).sublist (hsub.map _)
    · intro l a hperm
      have hla : ((l ++ [a]).map Announcement.signer).Nodup :=
        (hperm.map Announcement.signer).nodup_iff.mpr hnodup
      have hlen := hperm.length_eq
      rw [length_append, length_singleton] at hlen
      rw [call_announced hla, if_neg (by omega), announced_perm hla hperm]

theorem Opened.claims (h : Opened env cfg pog setups r) :
    (vals r.claimTxids).Perm (setups.map (Announcement.claim env cfg)) := by
  rw [h.ready.vals_claimTxids]
  refine (h.inputs.map _).trans (.of_eq ?_)
  rw [map_map]
  rfl

private theorem exists_claim (h : r.InOrder env cfg pog) (hready : r.Ready env cfg pog) :
    ∃ claim, claim ∈ vals r.claimTxids := by
  have hpov := mem_of_size_eq h.operators (hready.full.trans size_p2pKey.symm) _ povP2pKey_mem
  obtain ⟨input, hinput⟩ := mem_iff_exists.mp hpov
  rw [hready.vals_claimTxids]
  exact ⟨_, mem_map_of_mem (mem_vals.mpr ⟨_, hinput⟩)⟩

section Nonces

variable {nonces : List (GraphMessage PubNonce)} (h : Opened env cfg pog setups r)
  (hslots : OnePerSlot cfg.operatorTable (setups.map (Announcement.claim env cfg)) nonces)

include h

private theorem Opened.nodup_claims : (setups.map (Announcement.claim env cfg)).Nodup :=
  h.claims.nodup_iff.mp h.ready.nodup_claims

theorem Opened.mem_graphNonces (claim : Txid)
    (hclaim : claim ∈ vals r.claimTxids) : claim ∈ r.graphNonces := by
  rw [h.ready.vals_claimTxids] at hclaim
  obtain ⟨input, hinput, rfl⟩ := mem_map.mp hclaim
  obtain ⟨k, hk⟩ := mem_vals.mp hinput
  exact h.ready.nonces k input hk

theorem Opened.withNonces_nil : r.withNonces [] = r := by
  rw [withNonces, fill_nil h.nonces]

theorem Opened.ready_summed :
    (r.withNonces nonces).sumNonces.Ready env cfg pog := by
  refine ⟨h.ready.full, h.ready.apart, h.ready.claims, h.ready.summaries, ?_, ?_⟩
  · intro k input hk
    rw [mem_iff_exists]
    exact ⟨_, get_fill_of_mem (h.ready.nonces k input hk)⟩
  · intro k input hk partials session hpartials _ op p n hp
    rw [h.partials _ partials hpartials] at hp
    simp at hp

include hslots

private theorem Opened.signing {pog₂ : PogCache} (hapart : Apart env cfg pog₂ r.pegOutGraphInputs) :
    Signing env cfg pog₂ (setups.map (Announcement.claim env cfg))
      (r.withNonces nonces).sumNonces := by
  have horder := h.inOrder.withNonces h.nonces (hslots.nodup h.nodup_claims)
    (fun m hm => (hslots.mem hm).1)
    fun m hm => h.mem_graphNonces _ (h.claims.mem_iff.mpr (hslots.mem hm).2)
  have hready : (r.withNonces nonces).sumNonces.Ready env cfg pog := h.ready_summed
  refine ⟨horder.aggregate.of_apart fun _ => hapart,
    ⟨hready.full, hapart, hready.claims, hready.summaries, hready.nonces, hready.verified⟩,
    h.claims, ?_, h.partials, ?_, h.rootNonces⟩
  · intro claim session aggnonces hsession _ hagg
    simp only [aggregateNonces, Std.ExtTreeMap.getElem?_map] at hagg hsession
    rw [hsession] at hagg
    exact (Option.some.inj hagg).symm
  · intro claim hclaim
    rw [← h.claims.mem_iff, h.ready.vals_claimTxids] at hclaim
    obtain ⟨input, hinput, rfl⟩ := mem_map.mp hclaim
    obtain ⟨k, hk⟩ := mem_vals.mp hinput
    exact h.opened k input hk

private theorem Opened.exists_signatureDuties : ∃ pog₂ duties,
    signatureDuties env cfg (r.withNonces nonces).sumNonces pog (vals r.claimTxids) =
      (.ok duties, pog₂) ∧
    duties.Perm (setups.map fun a => signatureDuty env (a.claim env cfg)
      (aggregateSession (row unpack (a.claim env cfg) nonces))
      (cfg.buildGraph env a.input) none) ∧
    Signing env cfg pog₂ (setups.map (Announcement.claim env cfg))
      (r.withNonces nonces).sumNonces := by
  have hready : (r.withNonces nonces).sumNonces.Ready env cfg pog := h.ready_summed
  have hagg : ∀ claim ∈ vals r.claimTxids,
      (r.withNonces nonces).sumNonces.aggNonces[claim]? =
        some (aggregateSession (row unpack claim nonces)) := by
    intro claim hclaim
    simp [withNonces, aggregateNonces, get_fill_of_mem (h.mem_graphNonces claim hclaim)]
  have hown (claim : Txid) : (r.withNonces nonces).sumNonces.ownPartials cfg claim = none := by
    change (r.graphPartials[claim]?.bind fun session => _) = none
    cases hget : r.graphPartials[claim]? with
    | none => rfl
    | some session => simp [h.partials claim session hget]
  have hduties := hready.signatureDuties_eq hagg (List.Subset.refl _)
  simp only [hown, ← hready.vals_claimTxids] at hduties
  have hapart := hready.apart.signatureDuties (vals r.claimTxids)
  refine ⟨_, _, Prod.ext hduties rfl, (h.inputs.map _).trans (.of_eq ?_), h.signing hslots hapart⟩
  rw [map_map]
  rfl

private theorem Opened.next {l rest : List (GraphMessage PubNonce)} {m : GraphMessage PubNonce}
    (hperm : (l ++ m :: rest).Perm nonces) :
    m.item ∈ r.graphNonces ∧ m.slot ∉ l.map Contribution.slot ∧
      (haveAll cfg.operatorTable.cardinality (vals r.claimTxids)
          (r.withNonces (l ++ [m])).graphNonces = true ↔
        rest = [] ∧ ∀ m' ∈ l ++ [m], (unpack m'.value).isSome) :=
  hslots.next h.nodup_claims h.claims h.mem_graphNonces hperm

theorem Opened.withNonces_perm {l : List (GraphMessage PubNonce)} (hperm : l.Perm nonces) :
    r.withNonces l = r.withNonces nonces := by
  rw [withNonces, withNonces,
    fill_perm ((hperm.map _).nodup_iff.mpr (hslots.nodup h.nodup_claims)) hperm]

/-- **The nonces, in any order.** -/
theorem Opened.calls_withNonces (hread : ∀ m ∈ nonces, (unpack m.value).isSome) :
    ∃ pog₂ duties,
      (∀ order, order.Perm nonces →
        calls (fun p m => call env cfg p (nonceEvent m)) (r, pog) order =
          some (((r.withNonces nonces).sumNonces, pog₂), lastOnly nonces.length duties)) ∧
      duties.Perm (setups.map fun a => signatureDuty env (a.claim env cfg)
        (aggregateSession (row unpack (a.claim env cfg) nonces))
        (cfg.buildGraph env a.input) none) ∧
      Signing env cfg pog₂ (setups.map (Announcement.claim env cfg))
        (r.withNonces nonces).sumNonces := by
  obtain ⟨pog₂, duties, hduties, hperm, hsigning⟩ := h.exists_signatureDuties hslots
  refine ⟨pog₂, duties, fun order horder => ?_, hperm, hsigning⟩
  have hstart : (r, pog) = (r.withNonces [], pog) := by rw [h.withNonces_nil]
  obtain ⟨claim, hclaim⟩ := exists_claim h.inOrder h.ready
  rw [hstart]
  refine calls_collect (fun l => (r.withNonces l, pog)) _ (_, _)
    (hslots.ne_nil (h.claims.subset hclaim)) ?_ ?_ horder
  · intro l m rest hperm hrest
    obtain ⟨hitem, hfresh, hall⟩ := h.next hslots hperm
    obtain ⟨v, hv⟩ := Option.isSome_iff_exists.mp (hread m (hperm.subset (by simp)))
    exact call_withNonces hitem hfresh hv fun hfull => hrest (hall.mp hfull).1
  · intro l m hperm
    obtain ⟨hitem, hfresh, hall⟩ := h.next hslots hperm
    obtain ⟨v, hv⟩ := Option.isSome_iff_exists.mp (hread m (hperm.subset (by simp)))
    have hsame := h.withNonces_perm hslots hperm
    rw [← hsame] at hduties ⊢
    refine call_last_nonces hitem hfresh hv ?_ hduties
    exact hall.mpr ⟨rfl, fun m' hm' => hread m' (hperm.subset hm')⟩

/-- Nonces that cannot be unpacked leave the sessions of their graphs incomplete, again in any
order. -/
theorem Opened.calls_unread (hunread : ∃ m ∈ nonces, unpack m.value = none)
    {order : List (GraphMessage PubNonce)} (horder : order.Perm nonces) :
    ∃ results, calls (fun p m => call env cfg p (nonceEvent m)) (r, pog) order =
      some ((r.withNonces nonces, pog), results) := by
  have hstart : (r, pog) = (r.withNonces [], pog) := by rw [h.withNonces_nil]
  rw [hstart, ← h.withNonces_perm hslots horder]
  refine calls_state (fun l => (r.withNonces l, pog)) (fun l m rest hperm => ?_) horder
  cases hm : unpack m.value with
  | none => exact ⟨_, call_withNonces_of_none hm⟩
  | some v =>
    obtain ⟨hitem, hfresh, hall⟩ := h.next hslots hperm
    refine ⟨_, call_withNonces hitem hfresh hm fun hfull => ?_⟩
    obtain ⟨rfl, hread⟩ := hall.mp hfull
    obtain ⟨m', hm', hnone⟩ := hunread
    have hsome := hread m' (hperm.symm.subset hm')
    simp [hnone] at hsome

end Nonces

/-- **The partial signatures, in any order**, when each passes the check of the contract. -/
theorem Signing.calls_withPartials {items : List Txid} (h : Signing env cfg pog items r)
    {sigs : List (GraphMessage PartialSignature)} (hslots : OnePerSlot cfg.operatorTable items sigs)
    (hmusig : env.Musig2 cfg.operatorTable.btcKeys)
    (hpass : ∀ m ∈ sigs, r.verifies env cfg pog m = true) :
    ∃ graphSigs, ∀ order, order.Perm sigs →
      calls (fun p m => call env cfg p (partialEvent m)) (r, pog) order =
        some (({ r.withPartials sigs with graphSigs }, pog),
          lastOnly sigs.length [r.rootNonceDuty cfg]) := by
  have hitems : items.Nodup := h.claims.nodup_iff.mp h.ready.nodup_claims
  have hopen : ∀ claim ∈ vals r.claimTxids, claim ∈ r.graphPartials :=
    fun claim hclaim => h.opened claim (h.claims.subset hclaim)
  have hread : ∀ m ∈ sigs, (unpack m.value).isSome := by
    intro m hm
    obtain ⟨partials, -, -, hm, -⟩ := exists_of_verifies (hpass m hm)
    rw [hm]
    rfl
  have hnext {l rest : List (GraphMessage PartialSignature)} {m : GraphMessage PartialSignature}
      (hperm : (l ++ m :: rest).Perm sigs) := hslots.next hitems h.claims hopen hperm
  have hall : haveAll cfg.operatorTable.cardinality (vals (r.withPartials sigs).claimTxids)
      (r.withPartials sigs).graphPartials = true :=
    (hslots.haveAll_iff hitems h.claims hopen (.of_eq (append_nil sigs))).mpr ⟨rfl, hread⟩
  obtain ⟨horder, hready⟩ := h.inOrder.withPartials h.ready h.partials h.current
    (hslots.nodup hitems) (fun m hm => (hslots.mem hm).1)
    (fun m hm => h.opened _ (hslots.mem hm).2) hpass
  obtain ⟨graphSigs, hsigs⟩ := horder.aggregateAll_ok hready hmusig hall
  have hfinish : (r.withPartials sigs).finishGraphSignatures env cfg pog =
      .ok ({ r.withPartials sigs with graphSigs }, pog) [r.rootNonceDuty cfg] := by
    rw [finishGraphSignatures, if_pos hall, hsigs]
    rfl
  refine ⟨graphSigs, fun order hperm => ?_⟩
  have hstart : (r, pog) = (r.withPartials [], pog) := by
    rw [withPartials, fill_nil h.partials]
  obtain ⟨claim, hclaim⟩ := exists_claim h.inOrder h.ready
  rw [hstart]
  refine calls_collect (fun l => (r.withPartials l, pog)) _ (_, _)
    (hslots.ne_nil (h.claims.subset hclaim)) ?_ ?_ hperm
  · intro l m rest hperm hrest
    obtain ⟨hitem, hfresh, hfull⟩ := hnext hperm
    have hmore : ¬haveAll cfg.operatorTable.cardinality
        (vals (r.withPartials (l ++ [m])).claimTxids)
        (r.withPartials (l ++ [m])).graphPartials = true :=
      fun hall => hrest (hfull.mp hall).1
    rw [call_withPartials hitem hfresh (hpass m (hperm.subset (by simp))), finishGraphSignatures,
      if_neg hmore, Outcome.result_ok]
  · intro l m hperm
    obtain ⟨hitem, hfresh, -⟩ := hnext hperm
    have hsame : r.withPartials (l ++ [m]) = r.withPartials sigs := by
      rw [withPartials, withPartials,
        fill_perm ((hperm.map _).nodup_iff.mpr (hslots.nodup hitems)) hperm]
    rw [call_withPartials hitem hfresh (hpass m (hperm.subset (by simp))), hsame, hfinish,
      Outcome.result_ok]

end Requested

/-! ### The contract -/

/-- Different stake transactions lead to different claims: the claim transaction spends an output
of the stake transaction, so equal claims of two announcements would be a collision of txids. -/
def ContractCfg.ClaimsFollowStakes (env : Env) (cfg : ContractCfg) (setups : List Announcement) :
    Prop :=
  ∀ a ∈ setups, ∀ b ∈ setups, a.claim env cfg = b.claim env cfg → a.stakeTxid = b.stakeTxid

instance (env : Env) (cfg : ContractCfg) (setups : List Announcement) :
    Decidable (cfg.ClaimsFollowStakes env setups) :=
  inferInstanceAs (Decidable (∀ a ∈ setups, ∀ b ∈ setups, _ → _))

namespace ContractSM

variable {env : Env}

def call (env : Env) (sm : ContractSM) (ev : ContractEvent) :
    Option (ContractSM × Except TransitionErr (List OperatorDuty)) :=
  (sm.processContractEvent env ev).result

/-- In whatever order the messages arrive, all calls but the last return no duty, the last one
returns the given duties, and the contract ends in the given state. -/
def AnyOrder {ι : Type} (env : Env) (sm : ContractSM) (event : ι → ContractEvent) (msgs : List ι)
    (sm' : ContractSM) (duties : List OperatorDuty) : Prop :=
  ∀ order : List ι, order.Perm msgs → calls (call env) sm (order.map event) =
    some (sm', replicate (msgs.length - 1) (.ok []) ++ [.ok duties])

def verifies (env : Env) (sm : ContractSM) (m : GraphMessage PartialSignature) : Bool :=
  match sm.state.state with
  | .requested r => r.verifies env sm.cfg sm.pog m
  | _ => false

theorem calls_putRequested {ι : Type} (sm : ContractSM) {event : ι → ContractEvent}
    (hevent : ∀ (p : Requested × PogCache) i, (p.1.process env sm.cfg p.2 (event i)).isSome)
    (p : Requested × PogCache) (order : List ι) :
    calls (call env) (sm.putRequested p) (order.map event) =
      (calls (fun p i => Requested.call env sm.cfg p (event i)) p order).map fun q =>
        (sm.putRequested q.1, q.2) := by
  rw [calls_comp]
  refine calls_map sm.putRequested (fun p i _ => ?_) p
  obtain ⟨o, ho⟩ := Option.isSome_iff_exists.mp (hevent p i)
  have hprocess : (sm.putRequested p).processContractEvent env (event i) =
      o.embed (sm.putRequested p).putRequested id := processContractEvent_requested rfl ho
  rw [call, hprocess, Outcome.result_embed, Requested.call, ho]
  rfl

theorem anyOrder_of_calls {ι : Type} (sm : ContractSM) {event : ι → ContractEvent}
    (hevent : ∀ (p : Requested × PogCache) i, (p.1.process env sm.cfg p.2 (event i)).isSome)
    {p p' : Requested × PogCache} {msgs : List ι} {duties : List OperatorDuty}
    (h : ∀ order, order.Perm msgs →
      calls (fun p i => Requested.call env sm.cfg p (event i)) p order =
        some (p', Requested.lastOnly msgs.length duties)) :
    AnyOrder env (sm.putRequested p) event msgs (sm.putRequested p') duties := by
  intro order horder
  rw [calls_putRequested sm hevent, h order horder]
  rfl

private theorem exists_fresh (cfg : ContractCfg) (height deadline : BitcoinBlockHeight) :
    ∃ r : Requested, r.Fresh ∧ (ContractSM.new cfg height deadline).putRequested (r, ∅) =
      ContractSM.new cfg height deadline :=
  ⟨_, ⟨rfl, rfl, rfl, rfl, rfl⟩, rfl⟩

/-- **The exchange is confluent.** Let the messages of every round be one for each operator: the
announcements, with different stake transactions; then the nonces for every claim; then partial
signatures for every claim that pass the check of the contract. Then a contract in its initial
state ends every round in one state, whatever the order of the messages. All calls but the last of
a round return no duty. The last announcement returns the duty to publish nonces for the graph of
each operator. The last nonces return the duty to sign the graph of each operator, under the sums of
its nonces. The last partial signatures return the duty to publish the nonce for the deposit.
Vectors of nonces that cannot be unpacked are rejected; they too leave one state. -/
theorem exchange_confluent {cfg : ContractCfg} (height deadline : BitcoinBlockHeight)
    {setups : List Announcement}
    (hsigners : (setups.map Announcement.signer).Perm cfg.operatorTable.p2pKeys)
    (hstakes : (setups.map Announcement.stakeTxid).Nodup)
    (hclaims : cfg.ClaimsFollowStakes env setups)
    (hmusig : env.Musig2 cfg.operatorTable.btcKeys) :
    ∃ sm₁ duties₁, AnyOrder env (.new cfg height deadline) Announcement.event setups sm₁ duties₁ ∧
      duties₁.Perm (setups.map fun a => Requested.nonceDuty env (cfg.buildGraph env a.input)) ∧
      ∀ nonces, Requested.OnePerSlot cfg.operatorTable
          (setups.map (Announcement.claim env cfg)) nonces →
        (∃ sm, ∀ order : List (GraphMessage PubNonce), order.Perm nonces → ∃ results,
          calls (call env) sm₁ (order.map nonceEvent) = some (sm, results)) ∧
        ((∀ m ∈ nonces, (unpack m.value).isSome) →
          ∃ sm₂ duties₂, AnyOrder env sm₁ nonceEvent nonces sm₂ duties₂ ∧
            duties₂.Perm (setups.map fun a => Requested.signatureDuty env (a.claim env cfg)
              (Requested.aggregateSession (row unpack (a.claim env cfg) nonces))
              (cfg.buildGraph env a.input) none) ∧
            ∀ sigs, Requested.OnePerSlot cfg.operatorTable
                (setups.map (Announcement.claim env cfg)) sigs →
              (∀ m ∈ sigs, sm₂.verifies env m = true) →
              ∃ sm₃, AnyOrder env sm₂ partialEvent sigs sm₃
                [.publishRootNonce cfg.depositRequestTxid (cfg.depositTx.tx.witnesses.get 0)
                  none]) := by
  have hnodup : (setups.map (Announcement.claim env cfg)).Nodup := by
    refine pairwise_map.mpr ((pairwise_map.mp hstakes).imp_of_mem ?_)
    exact fun ha hb hne heq => hne (hclaims _ ha _ hb heq)
  obtain ⟨r, hr, hnew⟩ := exists_fresh cfg height deadline
  obtain ⟨r₁, pog₁, duties₁, hopened, hduties₁, hcalls₁⟩ :=
    hr.calls_announced hsigners hstakes hnodup
  refine ⟨(ContractSM.new cfg height deadline).putRequested (r₁, pog₁), duties₁, ?_, hduties₁, ?_⟩
  · have hround := anyOrder_of_calls (.new cfg height deadline) (fun _ _ => rfl) hcalls₁
    rwa [hnew] at hround
  intro nonces hnonces
  have hround (hread : ∀ m ∈ nonces, (unpack m.value).isSome) :=
    hopened.calls_withNonces hnonces hread
  refine ⟨?_, fun hread => ?_⟩
  · by_cases hread : ∀ m ∈ nonces, (unpack m.value).isSome
    · obtain ⟨pog₂, duties₂, hcalls₂, -⟩ := hround hread
      exact ⟨_, fun order horder => ⟨_, anyOrder_of_calls (.new cfg height deadline)
        (fun _ _ => rfl) hcalls₂ order horder⟩⟩
    · simp only [not_forall, Option.not_isSome_iff_eq_none] at hread
      obtain ⟨m, hm, hunread⟩ := hread
      refine ⟨(ContractSM.new cfg height deadline).putRequested (r₁.withNonces nonces, pog₁),
        fun order horder => ?_⟩
      obtain ⟨results, hcalls⟩ := hopened.calls_unread hnonces ⟨m, hm, hunread⟩ horder
      exact ⟨results, (calls_putRequested (.new cfg height deadline) (fun _ _ => rfl) (r₁, pog₁)
        order).trans (congrArg _ hcalls)⟩
  obtain ⟨pog₂, duties₂, hcalls₂, hduties₂, hsigning⟩ := hround hread
  refine ⟨_, duties₂, anyOrder_of_calls (.new cfg height deadline) (fun _ _ => rfl) hcalls₂,
    hduties₂, fun sigs hsigs hpass => ?_⟩
  obtain ⟨graphSigs, hcalls₃⟩ := hsigning.calls_withPartials hsigs hmusig hpass
  have hduty : (r₁.withNonces nonces).sumNonces.rootNonceDuty cfg = .publishRootNonce
      cfg.depositRequestTxid (cfg.depositTx.tx.witnesses.get 0) none := by
    rw [Requested.rootNonceDuty, hsigning.rootNonces]
    simp
  rw [hduty] at hcalls₃
  exact ⟨_, anyOrder_of_calls (.new cfg height deadline) (fun _ _ => rfl) hcalls₃⟩

private def linearSetup (i : ℕ) : Announcement :=
  ⟨⟨10 + i⟩, ⟨30 + i⟩, ⟨40 + i⟩, stakeTxid (2 + i), wotsKeys i⟩

private def linearNonces (i j : ℕ) : GraphMessage PubNonce :=
  ⟨⟨10 + i⟩, claimTxid j (2 + j) 1, replicate 51 ⟨1 + i⟩⟩

private def linearPartials (i j : ℕ) : GraphMessage PartialSignature :=
  ⟨⟨10 + i⟩, claimTxid j (2 + j) 1, shares twoOperators [1, 2] i (graph j (2 + j) 1)⟩

theorem two_operators_exchange : ∃ sm₁ duties₁ sm₂ duties₂ sm₃ duty,
    AnyOrder plain (contract twoOperators) Announcement.event
      [linearSetup 0, linearSetup 1] sm₁ duties₁ ∧ duties₁.length = 2 ∧
    AnyOrder plain sm₁ nonceEvent
      [linearNonces 0 0, linearNonces 0 1, linearNonces 1 0, linearNonces 1 1] sm₂ duties₂ ∧
    duties₂.length = 2 ∧
    AnyOrder plain sm₂ partialEvent
      [linearPartials 0 0, linearPartials 0 1, linearPartials 1 0, linearPartials 1 1] sm₃
      [duty] := by
  have hkeys : (Linear.cfg twoOperators 0 1).operatorTable.btcKeys ≠ [] := by decide +kernel
  have hsigners : ([linearSetup 0, linearSetup 1].map Announcement.signer).Perm
      (Linear.cfg twoOperators 0 1).operatorTable.p2pKeys := by decide +kernel
  have hstakes : ([linearSetup 0, linearSetup 1].map Announcement.stakeTxid).Nodup := by
    decide +kernel
  have hclaims : (Linear.cfg twoOperators 0 1).ClaimsFollowStakes plain
      [linearSetup 0, linearSetup 1] := by decide +kernel
  obtain ⟨sm₁, duties₁, hround₁, hduties₁, hrounds⟩ :=
    exchange_confluent 100 1100 hsigners hstakes hclaims (musig2 _ hkeys)
  obtain ⟨sm₂, duties₂, hround₂, hduties₂, hlast⟩ :=
    (hrounds [linearNonces 0 0, linearNonces 0 1, linearNonces 1 0, linearNonces 1 1]
      (by unfold Requested.OnePerSlot; decide +kernel)).2 (by decide +kernel)
  have hpass : ((calls (call plain) (contract twoOperators)
      ([linearSetup 0, linearSetup 1].map Announcement.event)).bind fun q =>
      calls (call plain) q.1
        ([linearNonces 0 0, linearNonces 0 1, linearNonces 1 0, linearNonces 1 1].map
          nonceEvent)).any (fun q =>
      [linearPartials 0 0, linearPartials 0 1, linearPartials 1 0, linearPartials 1 1].all
        (q.1.verifies plain)) = true := by decide +kernel
  rw [hround₁ _ (.refl _), Option.bind_some, hround₂ _ (.refl _), Option.any_some,
    all_eq_true] at hpass
  obtain ⟨sm₃, hround₃⟩ :=
    hlast _ (by unfold Requested.OnePerSlot; decide +kernel) hpass
  exact ⟨sm₁, duties₁, sm₂, duties₂, sm₃, _, hround₁, hduties₁.length_eq, hround₂,
    hduties₂.length_eq, hround₃⟩

end ContractSM

end StrataBridge
