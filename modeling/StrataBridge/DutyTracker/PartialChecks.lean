import StrataBridge.DutyTracker.Aggregation
import StrataBridge.Instance.Linear

/-!
# What the check of partial signatures leaves unchecked

The partial signatures of an operator come as a list with two entries for every slash-stake
transaction behind a fixed part, and so do its nonces. The check zips them with the messages and
the witnesses of the graph and with the aggregated nonces. Nothing compares the numbers of
slash-stake pairs: the zip is cut to the shortest list, and what is cut off is not checked.

## References

* `crates/duty-tracker/src/contract_state_machine.rs`, lines 3367–3439;
  `crates/tx-graph/src/pog_musig_functor.rs`, lines 64–117, 154–201, 306–319
-/

namespace StrataBridge

open Rust BTreeMap List PogMusigF

section Checks

variable (env : Env) (table : OperatorTable) (graph : PegOutGraph) (pubkey : PublicKey)
  (nonces : PogMusigF PubNonce) (aggnonces : PogMusigF AggNonce)

/-- A partial signature verifies for input `i` of a graph: against the nonce of the signer, the
aggregated nonce and the message of that input. -/
def EntryVerifies (i : ℕ) (share : PartialSignature) : Prop :=
  ∃ nonce message witness aggnonce ctx, nonces.pack[i]? = some nonce ∧
    (graph.musigSighashes env).pack[i]? = some message ∧
    graph.musigWitnesses.pack[i]? = some witness ∧ aggnonces.pack[i]? = some aggnonce ∧
    env.createAggCtx table.btcKeys witness = some ctx ∧
    env.verifyPartial ctx share aggnonce pubkey nonce message = true

def ChecksEveryInput (packed : List PartialSignature) : Prop :=
  packed.length = (graph.musigSighashes env).pack.length ∧
    ∀ i share, packed[i]? = some share →
      EntryVerifies env table graph pubkey nonces aggnonces i share

end Checks

section Peer

variable {env : Env} {cfg : ContractCfg} {signer : P2POperatorPubKey} {claim : Txid}
  {graph : PegOutGraph} {graphNonces : BTreeMap Txid (Session PubNonce)}
  {aggNonces : BTreeMap Txid (PogMusigF AggNonce)} {partials : PogMusigF PartialSignature}

theorem length_slashStake_musigSighashes (env : Env) (graph : PegOutGraph) :
    (graph.musigSighashes env).slashStake.length = graph.slashStakeTxs.length := by
  simp [PegOutGraph.musigSighashes, PegOutGraph.musig]

theorem length_slashStake_musigWitnesses (graph : PegOutGraph) :
    graph.musigWitnesses.slashStake.length = graph.slashStakeTxs.length := by
  simp [PegOutGraph.musigWitnesses, PegOutGraph.musig]

private theorem EntryVerifies.lt {table : OperatorTable} {pubkey : PublicKey}
    {nonces : PogMusigF PubNonce} {aggnonces : PogMusigF AggNonce} {i : ℕ}
    {share : PartialSignature}
    (h : EntryVerifies env table graph pubkey nonces aggnonces i share) :
    i < nonces.pack.length ∧ i < aggnonces.pack.length := by
  obtain ⟨_, _, _, _, _, hnonce, -, -, hagg, -⟩ := h
  exact ⟨(List.getElem?_eq_some_iff.mp hnonce).1, (List.getElem?_eq_some_iff.mp hagg).1⟩

/-- **When a positive answer covers every input.** When the partial signatures of a peer pass the
check, there are a session, nonces of the peer and aggregated nonces that they were checked with.
The answer says that every input has an entry and every entry verifies if and only if the peer sent
as many slash-stake pairs as the graph has, and its nonces and the aggregated nonces have no
fewer. -/
theorem verifyPartialsFromPeer_checks_iff {packed : List PartialSignature}
    (hunpack : unpack packed = some partials)
    (h : verifyPartialsFromPeer env cfg signer claim graph graphNonces aggNonces partials =
      .ok () true) :
    ∃ pubkey session nonces aggnonces, cfg.operatorTable.p2pKeyToBtcKey signer = some pubkey ∧
      graphNonces[claim]? = some session ∧ session[signer]? = some nonces ∧
      aggNonces[claim]? = some aggnonces ∧
      (ChecksEveryInput env cfg.operatorTable graph pubkey nonces aggnonces packed ↔
        partials.slashStake.length = graph.slashStakeTxs.length ∧
        graph.slashStakeTxs.length ≤ nonces.slashStake.length ∧
        graph.slashStakeTxs.length ≤ aggnonces.slashStake.length) := by
  cases hsession : graphNonces[claim]? with
  | none =>
    rw [verifyPartialsFromPeer] at h
    split at h
    · cases h
    · simp [hsession] at h
  | some session =>
    obtain ⟨-, nonces, aggnonces, hnonces, hagg, hverified⟩ :=
      verified_of_verifyPartialsFromPeer hsession h
    obtain ⟨pubkey, hpubkey, hvalid⟩ := hverified
    refine ⟨pubkey, session, nonces, aggnonces, hpubkey, rfl, hnonces, hagg, ?_⟩
    have hpack := pack_of_unpack hunpack
    have hmessages := length_pack (graph.musigSighashes env)
    have hwitnesses := length_pack graph.musigWitnesses
    rw [length_slashStake_musigSighashes] at hmessages
    rw [length_slashStake_musigWitnesses] at hwitnesses
    have hlen := length_pack partials
    rw [hpack] at hlen
    have hlenNonces := length_pack nonces
    have hlenAgg := length_pack aggnonces
    constructor
    · rintro ⟨heq, hall⟩
      -- the last entry that was sent has a nonce and an aggregated nonce
      have hlast : packed.length - 1 < packed.length := by omega
      have hlt := (hall _ _ (getElem?_eq_getElem hlast)).lt
      omega
    · rintro ⟨hpairs, hle, hle'⟩
      refine ⟨by omega, fun i share hshare => ?_⟩
      have hi : i < packed.length := (List.getElem?_eq_some_iff.mp hshare).1
      obtain ⟨nonce, hnonce⟩ : ∃ nonce, nonces.pack[i]? = some nonce :=
        ⟨_, getElem?_eq_getElem (by omega)⟩
      obtain ⟨message, hmessage⟩ : ∃ m, (graph.musigSighashes env).pack[i]? = some m :=
        ⟨_, getElem?_eq_getElem (by omega)⟩
      obtain ⟨witness, hwitness⟩ : ∃ w, graph.musigWitnesses.pack[i]? = some w :=
        ⟨_, getElem?_eq_getElem (by omega)⟩
      obtain ⟨aggnonce, haggnonce⟩ : ∃ a, aggnonces.pack[i]? = some a :=
        ⟨_, getElem?_eq_getElem (by omega)⟩
      rw [← hpack] at hshare
      obtain ⟨ctx, hctx, hverifies⟩ :=
        hvalid _ (mem_partialChecks hnonce hmessage hwitness hshare haggnonce)
      exact ⟨nonce, message, witness, aggnonce, ctx, hnonce, hmessage, hwitness, haggnonce, hctx,
        hverifies⟩

end Peer

/-! ### Lists with too few and with too many partial signatures -/

section Instance

open Linear

private def sessions (pairs : ℕ) : BTreeMap Txid (Session PubNonce) :=
  ofEntries [(claimTxid 0 2 1, ofEntries
    ((unpack (replicate (51 + 2 * pairs) ⟨5⟩)).toList.map fun n => (⟨10⟩, n)))]

private def sums (pairs : ℕ) : BTreeMap Txid (PogMusigF AggNonce) :=
  ofEntries ((unpack (replicate (51 + 2 * pairs)
    (AggNonce.sum [⟨5⟩]))).toList.map fun n => (claimTxid 0 2 1, n))

private def slashable : PegOutGraph :=
  { graph 0 2 1 with slashStakeTxs := [covenant 2 (txSpending [⟨claimTxid 0 2 1, 0⟩] [[9]])] }

private def passes : Outcome Unit TransitionErr Bool → Bool
  | .ok _ answer => answer
  | _ => false

private theorem eq_of_passes {o : Outcome Unit TransitionErr Bool} (h : passes o = true) :
    o = .ok () true := by
  cases o with
  | ok _ answer =>
    obtain rfl : answer = true := h
    rfl
  | err | panic => cases h

private theorem shares_pass : ∃ partials,
    unpack (shares oneOperator [5] 0 (graph 0 2 1)) = some partials ∧
    partials.slashStake = [] ∧
    verifyPartialsFromPeer plain (cfg oneOperator 0 1) ⟨10⟩ (claimTxid 0 2 1) (graph 0 2 1)
      (sessions 0) (sums 0) partials = .ok () true ∧
    verifyPartialsFromPeer plain (cfg oneOperator 0 1) ⟨10⟩ (claimTxid 0 2 1) slashable
      (sessions 1) (sums 1) partials = .ok () true := by
  have h : (unpack (shares oneOperator [5] 0 (graph 0 2 1))).any (fun partials =>
      partials.slashStake.isEmpty &&
      passes (verifyPartialsFromPeer plain (cfg oneOperator 0 1) ⟨10⟩ (claimTxid 0 2 1)
        (graph 0 2 1) (sessions 0) (sums 0) partials) &&
      passes (verifyPartialsFromPeer plain (cfg oneOperator 0 1) ⟨10⟩ (claimTxid 0 2 1)
        slashable (sessions 1) (sums 1) partials)) = true := by
    decide +kernel
  obtain ⟨partials, hunpack, h⟩ := (Option.any_eq_true _ _).mp h
  rw [Bool.and_eq_true, Bool.and_eq_true, List.isEmpty_iff] at h
  exact ⟨partials, hunpack, h.1.1, eq_of_passes h.1.2, eq_of_passes h.2⟩

/-- The partial signatures for a graph without slash-stake transactions. -/
theorem shares_check_every_input : ∃ pubkey nonces aggnonces,
    ChecksEveryInput plain oneOperator (graph 0 2 1) pubkey nonces aggnonces
      (shares oneOperator [5] 0 (graph 0 2 1)) := by
  obtain ⟨partials, hunpack, hpairs, hpass, -⟩ := shares_pass
  obtain ⟨pubkey, _, nonces, aggnonces, -, -, -, -, hiff⟩ :=
    verifyPartialsFromPeer_checks_iff hunpack hpass
  refine ⟨pubkey, nonces, aggnonces, hiff.mpr ⟨?_, Nat.zero_le _, Nat.zero_le _⟩⟩
  rw [hpairs]
  rfl

/-- **Partial signatures that leave inputs out pass the check, and so do entries for no input.**
First, the graph has a slash-stake transaction, and nonces for it are there; the partial signatures
stop before it. Then, the graph is one as a node builds it, without slash-stake transactions; the
partial signatures have a pair of zeros behind those for the graph. -/
theorem missing_slash_stake_passes :
    (∃ partials, unpack (shares oneOperator [5] 0 (graph 0 2 1)) = some partials ∧
      verifyPartialsFromPeer plain (cfg oneOperator 0 1) ⟨10⟩ (claimTxid 0 2 1) slashable
        (sessions 1) (sums 1) partials = .ok () true ∧
      partials.slashStake.length = 0 ∧ slashable.slashStakeTxs.length = 1) ∧
    ∃ partials,
      unpack (shares oneOperator [5] 0 (graph 0 2 1) ++ [⟨0⟩, ⟨0⟩]) = some partials ∧
      verifyPartialsFromPeer plain (cfg oneOperator 0 1) ⟨10⟩ (claimTxid 0 2 1) (graph 0 2 1)
        (sessions 0) (sums 0) partials = .ok () true ∧
      partials.slashStake.length = 1 ∧ (graph 0 2 1).slashStakeTxs.length = 0 := by
  obtain ⟨partials, hunpack, hpairs, -, hpass⟩ := shares_pass
  refine ⟨⟨partials, hunpack, hpass, by rw [hpairs]; rfl, rfl⟩, ?_⟩
  have h : (unpack (shares oneOperator [5] 0 (graph 0 2 1) ++ [⟨0⟩, ⟨0⟩])).any
      (fun partials => passes (verifyPartialsFromPeer plain (cfg oneOperator 0 1) ⟨10⟩
        (claimTxid 0 2 1) (graph 0 2 1) (sessions 0) (sums 0) partials) &&
        partials.slashStake.length = 1) = true := by
    decide +kernel
  obtain ⟨surplus, hsurplus, h⟩ := (Option.any_eq_true _ _).mp h
  rw [Bool.and_eq_true, decide_eq_true_iff] at h
  exact ⟨surplus, hsurplus, eq_of_passes h.1, h.2, rfl⟩

end Instance

end StrataBridge
