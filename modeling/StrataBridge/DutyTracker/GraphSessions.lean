import StrataBridge.DutyTracker.Duties
import StrataBridge.Instance.Linear

/-!
# Signing graphs under one aggregated nonce

The secret nonce of an operator for an input is a fixed function of the keys and the input. So
the operator must never sign a graph twice under different aggregated nonces: any two duties to
sign the graph of a claim afresh have to carry the same ones. The nonces of a complete session
are never changed by further nonces, but an announcement that generates the graphs anew empties
the sessions, and others may then be collected. `ContractSM.KeepsSessions` excludes that.
-/

namespace StrataBridge

open Rust Transition Linear BTreeMap List OperatorDuty

variable {table : OperatorTable}

variable {claim : Txid} {ds ds' : List OperatorDuty} {sm' : ContractSM}

def OperatorDuty.freshGraphSigning : OperatorDuty → Option (Txid × PogMusigF AggNonce)
  | .publishGraphSignatures claim aggnonces _ _ _ none => some (claim, aggnonces)
  | _ => none

theorem OperatorDuty.exists_of_freshGraphSigning {d : OperatorDuty}
    {aggnonces : PogMusigF AggNonce} (h : d.freshGraphSigning = some (claim, aggnonces)) :
    ∃ pre msg wit, d = .publishGraphSignatures claim aggnonces pre msg wit none := by
  cases d with
  | publishGraphSignatures claim' aggnonces' pre msg wit existing =>
    cases existing with
    | none =>
      cases h
      exact ⟨pre, msg, wit, rfl⟩
    | some _ => cases h
  | _ => cases h

theorem Requested.freshGraphSigning_signatureDuty {env : Env} {claim' : Txid}
    {aggnonces aggnonces' : PogMusigF AggNonce} {graph : PegOutGraph}
    {existing : Option (PogMusigF PartialSignature)}
    (h : (signatureDuty env claim aggnonces graph existing).freshGraphSigning =
      some (claim', aggnonces')) : claim = claim' ∧ aggnonces = aggnonces' := by
  cases existing with
  | none => exact Prod.mk.inj (Option.some.inj h)
  | some _ => cases h

/-! ### The sessions of a contract -/

namespace Requested

/-- The aggregated nonces recorded for a claim are those of its session, which has the nonces of
`n` operators. -/
def Aggregated (r : Requested) (n : ℕ) (claim : Txid) (aggnonces : PogMusigF AggNonce) : Prop :=
  r.aggNonces[claim]? = some aggnonces ∧ ∃ session : Session PubNonce,
    r.graphNonces[claim]? = some session ∧ session.size = n ∧ aggregateSession session = aggnonces

/-- Only operators take part in sessions, and what is recorded for a current claim comes from a
complete session. -/
structure SessionsKept (r : Requested) (table : OperatorTable) : Prop where
  signers : ∀ (claim : Txid) (session : Session PubNonce), r.graphNonces[claim]? = some session →
    ∀ k ∈ session, k ∈ table.p2pKey
  current : ∀ (k : P2POperatorPubKey) (claim : Txid) (aggnonces : PogMusigF AggNonce),
    r.claimTxids[k]? = some claim → r.aggNonces[claim]? = some aggnonces →
    r.Aggregated table.cardinality claim aggnonces

variable {env : Env} {cfg : ContractCfg} {r : Requested} {pog : PogCache}

def KeepsAggregated (r : Requested) (table : OperatorTable) (r' : Requested) : Prop :=
  r'.SessionsKept table ∧ ∀ claim aggnonces, r.Aggregated table.cardinality claim aggnonces →
    r'.Aggregated table.cardinality claim aggnonces

section

variable (h : r.SessionsKept table)
include h

theorem SessionsKept.of_eq {r' : Requested}
    (hclaims : r'.claimTxids = r.claimTxids) (hnonces : r'.graphNonces = r.graphNonces)
    (hagg : r'.aggNonces = r.aggNonces) : r.KeepsAggregated table r' := by
  have hkept {claim : Txid} {aggnonces : PogMusigF AggNonce}
      (ha : r.Aggregated table.cardinality claim aggnonces) :
      r'.Aggregated table.cardinality claim aggnonces := by
    rw [Aggregated, hnonces, hagg]
    exact ha
  refine ⟨⟨?_, ?_⟩, fun claim aggnonces => hkept⟩
  · rw [hnonces]
    exact h.signers
  · intro k claim aggnonces hk hget
    rw [hclaims] at hk
    rw [hagg] at hget
    exact hkept (h.current k claim aggnonces hk hget)

private theorem SessionsKept.foldl_insertGraph {graphs : List (P2POperatorPubKey × PegOutGraph)}
    (hfresh : ∀ claim ∈ graphs.map (claimOf env), claim ∉ r.aggNonces) :
    r.KeepsAggregated table (graphs.foldl (insertGraph env) r) := by
  have hagg := aggNonces_foldl_insertGraph env r graphs
  have hnonces := graphNonces_foldl_insertGraph env r graphs
  have hkept {claim : Txid} {aggnonces : PogMusigF AggNonce}
      (ha : r.Aggregated table.cardinality claim aggnonces) :
      (graphs.foldl (insertGraph env) r).Aggregated table.cardinality claim aggnonces := by
    have hnot : claim ∉ graphs.map (claimOf env) := fun hmem =>
      hfresh claim hmem (mem_iff_exists.mpr ⟨aggnonces, ha.1⟩)
    rw [Aggregated, hagg, hnonces, if_neg hnot]
    exact ha
  refine ⟨⟨?_, ?_⟩, fun claim aggnonces => hkept⟩
  · intro claim session hget k hk
    rw [hnonces] at hget
    split_ifs at hget
    · cases hget
      exact absurd hk Std.ExtTreeMap.not_mem_empty
    · exact h.signers claim session hget k hk
  · intro k claim aggnonces hk hget
    rw [hagg] at hget
    rcases claimTxid_of_foldl_insertGraph hk with hmem | hold
    · exact absurd (mem_iff_exists.mpr ⟨aggnonces, hget⟩) (hfresh claim hmem)
    · exact hkept (h.current k claim aggnonces hold hget)

private theorem SessionsKept.not_aggregated
    {session : Session PubNonce} {signer : P2POperatorPubKey}
    (hsession : r.graphNonces[claim]? = some session) (hnew : signer ∉ session)
    (hsigner : signer ∈ table.p2pKey) (aggnonces : PogMusigF AggNonce) :
    ¬r.Aggregated table.cardinality claim aggnonces := by
  rintro ⟨-, session', hget, hsize, -⟩
  obtain rfl := Option.some.inj (hsession.symm.trans hget)
  refine hnew (mem_of_size_eq (h.signers claim session hsession) ?_ signer hsigner)
  rw [hsize, OperatorTable.size_p2pKey]

/-- Entering nonces leaves the aggregated sessions alone: the session they go to was not
complete. -/
private theorem SessionsKept.insertNonces {session : Session PubNonce}
    {signer : P2POperatorPubKey} (hsession : r.graphNonces[claim]? = some session)
    (hnew : signer ∉ session) (hsigner : signer ∈ table.p2pKey) (nonces : PogMusigF PubNonce) :
    r.KeepsAggregated table (r.insertNonces claim session signer nonces) := by
  have hkept {claim' : Txid} {aggnonces : PogMusigF AggNonce}
      (ha : r.Aggregated table.cardinality claim' aggnonces) :
      (r.insertNonces claim session signer nonces).Aggregated table.cardinality claim'
        aggnonces := by
    have hne : claim ≠ claim' := by
      rintro rfl
      exact h.not_aggregated hsession hnew hsigner aggnonces ha
    rw [Aggregated, Requested.insertNonces, get_insert_of_ne _ _ hne]
    exact ha
  refine ⟨⟨?_, ?_⟩, fun claim aggnonces => hkept⟩
  · intro claim' session' hget k hk
    rw [Requested.insertNonces, get_insert] at hget
    split_ifs at hget with heq
    · cases hget
      rcases Std.ExtTreeMap.mem_insert.mp hk with hcmp | hk
      · rwa [← Std.LawfulEqOrd.eq_of_compare hcmp]
      · exact h.signers claim session hsession k hk
    · exact h.signers claim' session' hget k hk
  · intro k claim' aggnonces hk hget
    exact hkept (h.current k claim' aggnonces hk hget)

private theorem SessionsKept.aggregate
    (hall : haveAll table.cardinality (vals r.claimTxids) r.graphNonces = true) :
    r.KeepsAggregated table r.sumNonces := by
  have hrecord {claim : Txid} {session : Session PubNonce}
      (hget : r.graphNonces[claim]? = some session) (hsize : session.size = table.cardinality) :
      r.sumNonces.Aggregated table.cardinality claim (aggregateSession session) := by
    refine ⟨?_, session, hget, hsize, rfl⟩
    change (aggregateNonces r.graphNonces)[claim]? = _
    rw [aggregateNonces, Std.ExtTreeMap.getElem?_map, hget]
    rfl
  refine ⟨⟨h.signers, ?_⟩, ?_⟩
  · intro k claim aggnonces hk hget
    have hclaim := all_eq_true.mp hall claim (mem_vals.mpr ⟨k, hk⟩)
    cases hsession : r.graphNonces[claim]? with
    | none => simp [hsession] at hclaim
    | some session =>
      have ha := hrecord hsession (by simpa [hsession] using hclaim)
      obtain rfl := Option.some.inj (hget.symm.trans ha.1)
      exact ha
  · rintro claim aggnonces ⟨-, session, hget, hsize, rfl⟩
    exact hrecord hget hsize

end

/-- **An event never changes what is aggregated**, as long as no announcement generates an
aggregated claim anew, and the duties it leads to carry what is aggregated. -/
theorem SessionsKept.process (h : r.SessionsKept cfg.operatorTable) {ev : ContractEvent}
    {o : Requested.Reply}
    (ho : r.process env cfg pog ev = some o)
    (htable : ∀ op, ev.sender = some op → op ∈ cfg.operatorTable.p2pKey)
    (hfresh : ∀ signer operatorPubkey stakeHash stakeTxid wotsKeys,
      ev = .depositSetup signer operatorPubkey stakeHash stakeTxid wotsKeys →
      ∀ claim ∈ setupClaims env cfg r pog signer operatorPubkey stakeHash stakeTxid wotsKeys,
        claim ∉ r.aggNonces) :
    o.Yields fun p ds => r.KeepsAggregated cfg.operatorTable p.1 ∧
      ∀ d ∈ ds, ∀ claim aggnonces, d.freshGraphSigning = some (claim, aggnonces) →
        p.1.Aggregated cfg.operatorTable.cardinality claim aggnonces := by
  cases reaction ho with
  | announces hr' =>
    subst hr'
    exact ⟨h.of_eq rfl rfl rfl, by simp⟩
  | @generates signer operatorPubkey stakeHash stakeTxid wotsKeys r' hr' hsize =>
    have hfresh := hfresh _ _ _ _ _ rfl
    rw [setupClaims, ← hr', if_neg (not_not.mpr hsize)] at hfresh
    subst hr'
    have hup : r.KeepsAggregated cfg.operatorTable
        (r.upsertInput signer operatorPubkey stakeHash stakeTxid wotsKeys) := h.of_eq rfl rfl rfl
    obtain ⟨hkept, hagg⟩ := hup.1.foldl_insertGraph hfresh
    refine ⟨⟨hkept, fun c a ha => hagg c a (hup.2 c a ha)⟩, fun d hd _ _ hf => ?_⟩
    obtain ⟨e, -, rfl⟩ := mem_map.mp hd
    cases hf
  | nonces hsession hnew => exact ⟨h.insertNonces hsession hnew (htable _ rfl) _, by simp⟩
  | @lastNonces _ _ _ _ unpacked _ _ _ hsession hnew hr' hall hduties =>
    have hins := h.insertNonces hsession hnew (htable _ rfl) unpacked
    rw [← hr'] at hins
    have hrec := hins.1.aggregate hall
    refine ⟨⟨hrec.1, fun c a ha => hrec.2 c a (hins.2 c a ha)⟩, fun d hd _ _ hf => ?_⟩
    obtain ⟨claim, hclaim, agg, graph, existing, hget, rfl⟩ :=
      mem_signatureDuties (congrArg Prod.fst hduties) d hd
    obtain ⟨rfl, rfl⟩ := freshGraphSigning_signatureDuty hf
    obtain ⟨k, hk⟩ := mem_vals.mp hclaim
    exact hrec.1.current k claim agg hk hget
  | @noncesFail _ _ _ _ unpacked _ _ _ hsession hnew hr' hall _ =>
    have hins := h.insertNonces hsession hnew (htable _ rfl) unpacked
    rw [← hr'] at hins
    have hrec := hins.1.aggregate hall
    exact ⟨⟨hrec.1, fun c a ha => hrec.2 c a (hins.2 c a ha)⟩, by simp⟩
  | lastPartials _ _ _ hr' =>
    subst hr'
    exact ⟨h.of_eq rfl rfl rfl, by simp [freshGraphSigning, rootNonceDuty]⟩
  | partialsPanic | rootPanics => trivial
  | _ => exact ⟨h.of_eq rfl rfl rfl, by simp [freshGraphSigning, rootNonceDuty]⟩

end Requested

/-! ### Runs -/

namespace ContractSM

/-- No announcement generates the graph of a claim anew once the nonces for that claim are
aggregated. -/
def KeepsSessions (env : Env) (sm : ContractSM) : Input → Prop
  | .event (.depositSetup signer operatorPubkey stakeHash stakeTxid wotsKeys) =>
    match sm.state.state with
    | .requested r => ∀ claim ∈ r.setupClaims env sm.cfg sm.pog signer operatorPubkey stakeHash
        stakeTxid wotsKeys, claim ∉ r.aggNonces
    | _ => True
  | _ => True

instance (env : Env) (sm : ContractSM) (i : Input) : Decidable (sm.KeepsSessions env i) := by
  unfold KeepsSessions
  split
  · split <;> infer_instance
  · infer_instance

variable {env : Env} {sm : ContractSM}

/-- The sessions of the contract are kept, the duties to sign carry what is aggregated, and any
two of them for one claim carry the same. -/
structure SignedOnce (ds : List OperatorDuty) (sm : ContractSM) : Prop where
  kept : ∀ r, sm.state.state = .requested r → r.SessionsKept sm.cfg.operatorTable
  carried : ∀ r, sm.state.state = .requested r → ∀ d ∈ ds, ∀ claim aggnonces,
    d.freshGraphSigning = some (claim, aggnonces) →
    r.Aggregated sm.cfg.operatorTable.cardinality claim aggnonces
  agree : ∀ d ∈ ds, ∀ d' ∈ ds, ∀ claim aggnonces aggnonces',
    d.freshGraphSigning = some (claim, aggnonces) →
    d'.freshGraphSigning = some (claim, aggnonces') → aggnonces = aggnonces'

section

variable (h : SignedOnce ds sm)
include h

private theorem SignedOnce.extend {r r' : Requested}
    (hs : sm.state.state = .requested r) (hs' : sm'.state.state = .requested r')
    (hcfg : sm'.cfg = sm.cfg) (hkeep : r.KeepsAggregated sm.cfg.operatorTable r')
    (hnew : ∀ d ∈ ds', ∀ claim aggnonces, d.freshGraphSigning = some (claim, aggnonces) →
      r'.Aggregated sm.cfg.operatorTable.cardinality claim aggnonces) :
    SignedOnce (ds ++ ds') sm' := by
  have hall : ∀ d ∈ ds ++ ds', ∀ claim aggnonces,
      d.freshGraphSigning = some (claim, aggnonces) →
      r'.Aggregated sm.cfg.operatorTable.cardinality claim aggnonces := by
    intro d hd claim aggnonces hf
    rcases mem_append.mp hd with hd | hd
    · exact hkeep.2 claim aggnonces (h.carried r hs d hd claim aggnonces hf)
    · exact hnew d hd claim aggnonces hf
  refine ⟨?_, ?_, ?_⟩
  · intro r'' hr''
    obtain rfl := ContractState.requested.inj (hs'.symm.trans hr'')
    rw [hcfg]
    exact hkeep.1
  · intro r'' hr''
    obtain rfl := ContractState.requested.inj (hs'.symm.trans hr'')
    rw [hcfg]
    exact hall
  · intro d hd d' hd' claim aggnonces aggnonces' hf hf'
    exact Option.some.inj ((hall d hd claim aggnonces hf).1.symm.trans
      (hall d' hd' claim aggnonces' hf').1)

private theorem SignedOnce.skip (hcfg : sm'.cfg = sm.cfg)
    (hsame : ∀ r, sm'.state.state = .requested r → sm.state.state = .requested r)
    (hnew : ∀ d ∈ ds', d.freshGraphSigning = none) : SignedOnce (ds ++ ds') sm' := by
  have hold {d : OperatorDuty} {x : Txid × PogMusigF AggNonce} (hd : d ∈ ds ++ ds')
      (hf : d.freshGraphSigning = some x) : d ∈ ds := by
    rcases mem_append.mp hd with hd | hd
    · exact hd
    · rw [hnew d hd] at hf
      cases hf
  refine ⟨?_, ?_, ?_⟩
  · intro r hr
    rw [hcfg]
    exact h.kept r (hsame r hr)
  · intro r hr d hd claim aggnonces hf
    rw [hcfg]
    exact h.carried r (hsame r hr) d (hold hd hf) claim aggnonces hf
  · intro d hd d' hd' claim aggnonces aggnonces' hf hf'
    exact h.agree d (hold hd hf) d' (hold hd' hf') claim aggnonces aggnonces' hf hf'

theorem SignedOnce.event {ev : ContractEvent}
    (htable : sm.FromTable (.event ev)) (hkeeps : sm.KeepsSessions env (.event ev))
    (hstep : sm.step env ev = some (sm', ds')) : SignedOnce (ds ++ ds') sm' := by
  rcases step_cases hstep with ⟨r, o, p, hs, ho, hnext, rfl⟩ | ⟨hsame, hother⟩
  · obtain ⟨hkeep, hnew⟩ := ((h.kept r hs).process ho htable fun _ _ _ _ _ heq => by
      subst heq
      simpa only [KeepsSessions, hs] using hkeeps).of_next hnext
    exact h.extend hs rfl rfl hkeep hnew
  · refine h.skip (cfg_of_step hstep) (fun r hr => (hsame r hr).1) fun d hd => ?_
    have := hother d hd
    cases d <;> first | rfl | cases this

private theorem SignedOnce.graphSignaturesRequest
    {ourP2pKey : P2POperatorPubKey} {duty : Option OperatorDuty}
    (hduty : sm.processGraphSignaturesRequest env ourP2pKey claim = .ok duty) :
    SignedOnce (ds ++ duty.toList) sm := by
  have hnone : SignedOnce (ds ++ (none : Option OperatorDuty).toList) sm :=
    h.skip rfl (fun _ hr => hr) (by simp)
  rw [processGraphSignaturesRequest] at hduty
  split at hduty
  next r hs =>
    split at hduty
    · cases hduty
      exact hnone
    next owner howner =>
    split at hduty
    · cases hduty
    split at hduty
    · cases hduty
      exact hnone
    next aggnonces hget =>
    cases hduty
    have hk : r.claimTxids[owner]? = some claim := by
      rw [hs] at howner
      exact ContractState.get_of_firstOwner howner
    refine h.extend hs hs rfl ⟨h.kept r hs, fun _ _ ha => ha⟩ ?_
    intro d hd claim' aggnonces' hf
    obtain rfl := mem_singleton.mp hd
    obtain ⟨rfl, rfl⟩ := Requested.freshGraphSigning_signatureDuty hf
    exact (h.kept r hs).current owner claim aggnonces hk hget
  next =>
    cases hduty
    exact hnone

private theorem SignedOnce.serve {i : Input} (htable : sm.FromTable i)
    (hkeeps : sm.KeepsSessions env i) (hserve : sm.serve env i = some (sm', ds')) :
    SignedOnce (ds ++ ds') sm' := by
  have hother (hi : ∀ ev, i ≠ .event ev)
      (hfresh : ∀ d, i.MayEmit d → d.freshGraphSigning = none) : SignedOnce (ds ++ ds') sm' := by
    obtain ⟨rfl, hemit⟩ := serve_request hserve hi
    exact h.skip rfl (fun _ hr => hr) fun d hd => hfresh d (hemit d hd)
  cases i with
  | event ev => exact h.event htable hkeeps hserve
  | graphSignaturesRequest claim =>
    cases hduty : sm.processGraphSignaturesRequest env sm.cfg.operatorTable.povP2pKey claim with
    | error msg => simp [ContractSM.serve, hduty, ContractSM.answer] at hserve
    | ok duty =>
      simp only [ContractSM.serve, hduty] at hserve
      obtain ⟨rfl, rfl⟩ := hserve
      exact h.graphSignaturesRequest hduty
  | graphNoncesRequest | rootNoncesRequest | rootSignaturesRequest =>
    refine hother (by simp) fun d hd => ?_
    cases d <;> first | rfl | exact hd.elim

end

/-- **Every graph is signed under one aggregated nonce.** In a run of a contract under events and
requests in which no announcement empties an aggregated session, any two duties to sign the
graph of a claim afresh carry the same aggregated nonces. -/
theorem graph_signed_under_one_nonce {cfg : ContractCfg} {height deadline : BitcoinBlockHeight}
    {ds : List OperatorDuty}
    (hrun : Run (serve env) (fun sm i => sm.FromTable i ∧ sm.KeepsSessions env i)
      (.new cfg height deadline) ds sm) {claim : Txid} {aggnonces aggnonces' : PogMusigF AggNonce}
    {pre pre' : PogMusigF OutPoint} {msg msg' : PogMusigF Message}
    {wit wit' : PogMusigF TaprootWitness}
    (h : .publishGraphSignatures claim aggnonces pre msg wit none ∈ ds)
    (h' : .publishGraphSignatures claim aggnonces' pre' msg' wit' none ∈ ds) :
    aggnonces = aggnonces' := by
  have hinit : SignedOnce [] (.new cfg height deadline) := by
    refine ⟨?_, by simp, by simp⟩
    intro r hr
    cases hr
    exact ⟨by simp, by simp⟩
  have hinv := hrun.invariant (I := SignedOnce) hinit
    fun ds sm i sm' ds' hI hG hs => hI.serve hG.1 hG.2 hs
  exact hinv.agree _ h _ h' claim aggnonces aggnonces' rfl rfl

private def exchange (code : ℕ) : List Input :=
  [.event (setup 0 2), .event (setup 1 3),
    .event (nonces 0 (claimTxid 0 2 1) 1),
    .event (nonces 0 (claimTxid 1 3 1) 1),
    .event (nonces 1 (claimTxid 0 2 1) code),
    .event (nonces 1 (claimTxid 1 3 1) code)]

/-- After one exchange, the duty to sign and the answer to a later request agree. -/
theorem signed_under_one_nonce_after_exchange : ∃ sm ds claim aggnonces pre msg wit,
    Run (serve plain) (fun sm i => sm.FromTable i ∧ sm.KeepsSessions plain i)
      (contract twoOperators) ds sm ∧
    .publishGraphSignatures claim aggnonces pre msg wit none ∈ ds ∧
    ∀ aggnonces' pre' msg' wit', .publishGraphSignatures claim aggnonces' pre' msg' wit' none ∈ ds →
      aggnonces = aggnonces' := by
  obtain ⟨sm, ds, hrun, h⟩ := exists_run_of_exec (serve plain)
    (fun sm i => sm.FromTable i ∧ sm.KeepsSessions plain i) (contract twoOperators)
    (exchange 2 ++ [.graphSignaturesRequest (claimTxid 0 2 1)])
    (fun _ ds => ds.any fun d => d.freshGraphSigning.isSome) (by decide +kernel)
  obtain ⟨d, hd, hfresh⟩ := any_eq_true.mp h
  obtain ⟨⟨claim, aggnonces⟩, hfresh⟩ := Option.isSome_iff_exists.mp hfresh
  obtain ⟨pre, msg, wit, rfl⟩ := exists_of_freshGraphSigning hfresh
  exact ⟨sm, ds, claim, aggnonces, pre, msg, wit, hrun, hd,
    fun _ _ _ _ hd' => graph_signed_under_one_nonce hrun hd hd'⟩

/-- A repeated announcement empties the sessions, and the graph is to be signed again under other
nonces. -/
theorem repeated_setup_changes_nonces : ∃ sm ds claim aggnonces aggnonces',
    Run (serve plain) (fun sm i => sm.FromTable i) (contract twoOperators) ds sm ∧
    (∃ pre msg wit, .publishGraphSignatures claim aggnonces pre msg wit none ∈ ds) ∧
    (∃ pre msg wit, .publishGraphSignatures claim aggnonces' pre msg wit none ∈ ds) ∧
    aggnonces ≠ aggnonces' := by
  obtain ⟨sm, ds, hrun, h⟩ := exists_run_of_exec (serve plain) (fun sm i => sm.FromTable i)
    (contract twoOperators) (exchange 2 ++ (exchange 5).drop 1)
    (fun _ ds => ds.any fun d => ds.any fun d' => d.freshGraphSigning.any fun x =>
      d'.freshGraphSigning.any fun x' => x.1 = x'.1 && x.2.challenge ≠ x'.2.challenge)
    (by decide +kernel)
  obtain ⟨d, hd, h⟩ := any_eq_true.mp h
  obtain ⟨d', hd', h⟩ := any_eq_true.mp h
  obtain ⟨x, hf, h⟩ := (Option.any_eq_true _ _).mp h
  obtain ⟨x', hf', h⟩ := (Option.any_eq_true _ _).mp h
  obtain ⟨hclaim, hchallenge⟩ := (Bool.and_eq_true _ _).mp h
  obtain ⟨pre, msg, wit, rfl⟩ := exists_of_freshGraphSigning hf
  obtain ⟨pre', msg', wit', rfl⟩ := exists_of_freshGraphSigning hf'
  refine ⟨sm, ds, x.1, x.2, x'.2, hrun, ⟨pre, msg, wit, hd⟩, ⟨pre', msg', wit', ?_⟩, ?_⟩
  · rw [of_decide_eq_true hclaim]
    exact hd'
  · intro heq
    exact of_decide_eq_true hchallenge (congrArg PogMusigF.challenge heq)

end ContractSM

end StrataBridge
