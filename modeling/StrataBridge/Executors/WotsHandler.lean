import StrataBridge.Primitives.Wots
import StrataBridge.TxGraph.PogMusigF

/-!
# One-time keys of a deposit

The secret service derives a one-time key from a width, a transaction identifier, an output
index and a key index. For every deposit an operator publishes keys for the withdrawal
fulfillment, the public inputs, the field elements and the hashes of its assertion
(`get_wots_pks`); it signs the withdrawal fulfillment when it claims (`handle_publish_claim`)
and every component when it asserts (`sign_assertions`). The functions here return the requests
they make to the service beside their result, so that one can see which key signs what.

## Main definitions

* `NoKeyReuse`: no key signs two messages
* `OneTimeKeys`: the keys of a deposit are one-time keys

## Main results

* `noKeyReuse_iff`: when the former holds
* `component_keys_not_one_time`: the latter does not

## References

* `crates/duty-tracker/src/executors/wots_handler.rs`,
  `crates/duty-tracker/src/executors/optimistic_withdrawal.rs`, lines 416–488
-/

namespace StrataBridge

open Wots List PogMusigF

/-! ### The secret service -/

inductive WotsWidth where
  | w128
  | w256
  deriving DecidableEq, Repr

structure WotsKey where
  width : WotsWidth
  txid : Txid
  vout : ℕ
  index : ℕ
  deriving DecidableEq, Repr

inductive Signing where
  | wots256 (txid : Txid) (vout index : ℕ) (msg : BitVec 256)
  | wots128 (txid : Txid) (vout index : ℕ) (msg : BitVec 128)
  deriving DecidableEq, Repr

def Signing.key : Signing → WotsKey
  | .wots256 txid vout index _ => ⟨.w256, txid, vout, index⟩
  | .wots128 txid vout index _ => ⟨.w128, txid, vout, index⟩

structure ClientErr where
  code : ℕ
  deriving DecidableEq, Repr

structure WotsClient where
  get256PublicKey : Txid → ℕ → ℕ → Except ClientErr Wots256PublicKey
  get128PublicKey : Txid → ℕ → ℕ → Except ClientErr Wots128PublicKey
  get256Signature : Txid → ℕ → ℕ → BitVec 256 → Except ClientErr Wots256Sig
  get128Signature : Txid → ℕ → ℕ → BitVec 128 → Except ClientErr Wots128Sig

/-! ### Publishing and signing -/

/-- `DEPOSIT_VOUT` (`executors/constants.rs`, line 6). -/
def depositVout : ℕ := 0

/-- `WITHDRAWAL_FULFILLMENT_PK_IDX` (`executors/constants.rs`, line 10). -/
def withdrawalFulfillmentPkIdx : ℕ := 0

section Handlers

variable (client : WotsClient) (depositTxid : Txid)

/-- `get_withdrawal_fulfillment_wots_pk` (`wots_handler.rs`, lines 68–80). -/
def getWithdrawalFulfillmentWotsPk : Except ClientErr Wots256PublicKey :=
  client.get256PublicKey depositTxid depositVout withdrawalFulfillmentPkIdx

/-- `get_wots_pks` (`wots_handler.rs`, lines 17–66). -/
def getWotsPks : Except ClientErr WotsPublicKeys :=
  (getWithdrawalFulfillmentWotsPk client depositTxid).bind fun withdrawalFulfillment =>
  (collectResults ((range numPubs).map fun i =>
    client.get256PublicKey depositTxid depositVout
      (withdrawalFulfillmentPkIdx + i))).bind fun publicInputs =>
  (collectResults ((range numU256).map fun i =>
    client.get256PublicKey depositTxid depositVout
      (withdrawalFulfillmentPkIdx + (numPubs + i)))).bind fun fqs =>
  (collectResults ((range numHash).map fun i =>
    client.get128PublicKey depositTxid depositVout i)).bind fun hashes =>
  .ok ⟨withdrawalFulfillment, ⟨publicInputs, fqs, hashes⟩⟩

def WotsClient.sign256 (txid : Txid) (vout index : ℕ) (msg : BitVec 256) :
    Signing × Except ClientErr Wots256Sig :=
  (.wots256 txid vout index msg, client.get256Signature txid vout index msg)

def WotsClient.sign128 (txid : Txid) (vout index : ℕ) (msg : BitVec 128) :
    Signing × Except ClientErr Wots128Sig :=
  (.wots128 txid vout index msg, client.get128Signature txid vout index msg)

/-- `sign_assertions` (`wots_handler.rs`, lines 82–184): the withdrawal fulfillment first, then
all other components at once. The sizes that the source checks after joining are those of the
arrays it started from. -/
def signAssertions (assertions : Assertions) : List Signing × Except ClientErr Signatures :=
  let first := client.sign256 depositTxid depositVout withdrawalFulfillmentPkIdx
    assertions.withdrawalFulfillment
  match first.2 with
  | .error e => ([first.1], .error e)
  | .ok withdrawalFulfillment =>
    let publicParams := assertions.publicParams.mapFinIdx fun i param _ =>
      client.sign256 depositTxid depositVout (withdrawalFulfillmentPkIdx + i) param
    let fieldElems := assertions.fieldElems.mapFinIdx fun i elem _ =>
      client.sign256 depositTxid depositVout (withdrawalFulfillmentPkIdx + numPubs + i) elem
    let hashes := assertions.hashes.mapFinIdx fun i hash _ =>
      client.sign128 depositTxid depositVout i hash
    (first.1 :: publicParams.toList.map Prod.fst ++ fieldElems.toList.map Prod.fst ++
        hashes.toList.map Prod.fst,
      (collectArray (publicParams.map Prod.snd)).bind fun publicParams =>
      (collectArray (fieldElems.map Prod.snd)).bind fun fieldElems =>
      (collectArray (hashes.map Prod.snd)).bind fun hashes =>
      .ok ⟨withdrawalFulfillment, ⟨publicParams, fieldElems, hashes⟩⟩)

/-- The signing of a claim in `handle_publish_claim` (`optimistic_withdrawal.rs`,
lines 416–488): the commitment is to the withdrawal fulfillment. Before it is signed the general
wallet is asked for its key, with the given answer. -/
def signClaim (generalPubkey : Except ClientErr XOnlyPublicKey) (withdrawalFulfillmentTxid : Txid) :
    List Signing × Except ClientErr Wots256Sig :=
  match getWithdrawalFulfillmentWotsPk client depositTxid, generalPubkey with
  | .error e, _ => ([], .error e)
  | .ok _, .error e => ([], .error e)
  | .ok _, .ok _ =>
    let signing := client.sign256 depositTxid depositVout withdrawalFulfillmentPkIdx
      withdrawalFulfillmentTxid.hash
    ([signing.1], signing.2)

end Handlers

/-! ### Components and their keys -/

inductive Component where
  | withdrawalFulfillment
  | publicInput (i : Fin numPubs)
  | fieldElement (i : Fin numU256)
  | hash (i : Fin numHash)
  deriving DecidableEq, Repr

namespace Component

variable (depositTxid : Txid) (assertions : Assertions)

def signing : Component → Signing
  | .withdrawalFulfillment => .wots256 depositTxid depositVout withdrawalFulfillmentPkIdx
      assertions.withdrawalFulfillment
  | .publicInput i => .wots256 depositTxid depositVout (withdrawalFulfillmentPkIdx + i)
      (assertions.publicParams.get i)
  | .fieldElement i => .wots256 depositTxid depositVout (withdrawalFulfillmentPkIdx + numPubs + i)
      (assertions.fieldElems.get i)
  | .hash i => .wots128 depositTxid depositVout i (assertions.hashes.get i)

def Published (client : WotsClient) (pks : WotsPublicKeys) (key : WotsKey) : Component → Prop
  | .withdrawalFulfillment => key.width = .w256 ∧
      client.get256PublicKey key.txid key.vout key.index = .ok pks.withdrawalFulfillment
  | .publicInput i => key.width = .w256 ∧ ∃ pk, pks.groth16.publicInputs[i]? = some pk ∧
      client.get256PublicKey key.txid key.vout key.index = .ok pk
  | .fieldElement i => key.width = .w256 ∧ ∃ pk, pks.groth16.fqs[i]? = some pk ∧
      client.get256PublicKey key.txid key.vout key.index = .ok pk
  | .hash i => key.width = .w128 ∧ ∃ pk, pks.groth16.hashes[i]? = some pk ∧
      client.get128PublicKey key.txid key.vout key.index = .ok pk

def firstPublicInput : Component := .publicInput ⟨0, numPubs_pos⟩

theorem publicInput_eq (i : Fin numPubs) : publicInput i = firstPublicInput := by
  have hi : i.val = 0 := Nat.lt_one_iff.mp i.isLt
  exact congrArg publicInput (Fin.ext hi)

variable {depositTxid assertions}

/-- **The only coincidence of keys**: the withdrawal fulfillment and the first public input. -/
theorem key_eq_iff {c c' : Component} :
    (c.signing depositTxid assertions).key = (c'.signing depositTxid assertions).key ↔
      c = c' ∨ c = .withdrawalFulfillment ∧ c' = firstPublicInput ∨
        c = firstPublicInput ∧ c' = .withdrawalFulfillment := by
  cases c with
  | withdrawalFulfillment =>
    cases c' with
    | withdrawalFulfillment => simp
    | publicInput i =>
      rw [publicInput_eq i]
      simp [firstPublicInput, signing, Signing.key]
    | fieldElement i =>
      simp [firstPublicInput, signing, Signing.key, numPubs]
      omega
    | hash i => simp [firstPublicInput, signing, Signing.key]
  | publicInput i =>
    rw [publicInput_eq i]
    cases c' with
    | withdrawalFulfillment => simp [firstPublicInput, signing, Signing.key]
    | publicInput j => simp [publicInput_eq j]
    | fieldElement j =>
      simp [firstPublicInput, signing, Signing.key, numPubs]
      omega
    | hash j => simp [firstPublicInput, signing, Signing.key]
  | fieldElement i =>
    cases c' with
    | withdrawalFulfillment =>
      simp [firstPublicInput, signing, Signing.key, numPubs, withdrawalFulfillmentPkIdx]
    | publicInput j =>
      rw [publicInput_eq j]
      simp [firstPublicInput, signing, Signing.key, numPubs, withdrawalFulfillmentPkIdx]
    | fieldElement j => simp [signing, Signing.key, Fin.ext_iff]
    | hash j => simp [signing, Signing.key]
  | hash i =>
    cases c' with
    | hash j => simp [signing, Signing.key, Fin.ext_iff]
    | _ => simp [firstPublicInput, signing, Signing.key]

end Component

section Requests

variable {client : WotsClient} {depositTxid withdrawalFulfillmentTxid : Txid}
  {assertions : Assertions} {generalPubkey : Except ClientErr XOnlyPublicKey}

theorem exists_component {s : Signing} (hs : s ∈ (signAssertions client depositTxid assertions).1) :
    ∃ c : Component, s = c.signing depositTxid assertions := by
  rw [signAssertions] at hs
  dsimp only at hs
  split at hs
  · exact ⟨.withdrawalFulfillment, mem_singleton.mp hs⟩
  simp only [mem_append, mem_cons, mem_map, Vector.mem_toList_iff, Vector.mem_mapFinIdx] at hs
  rcases hs with ((rfl | ⟨_, ⟨i, hi, rfl⟩, rfl⟩) | ⟨_, ⟨i, hi, rfl⟩, rfl⟩) | ⟨_, ⟨i, hi, rfl⟩, rfl⟩
  · exact ⟨.withdrawalFulfillment, rfl⟩
  · exact ⟨.publicInput ⟨i, hi⟩, rfl⟩
  · exact ⟨.fieldElement ⟨i, hi⟩, rfl⟩
  · exact ⟨.hash ⟨i, hi⟩, rfl⟩

/-- Once the fulfillment is signed, a request is made for every component. -/
theorem mem_signAssertions {sig : Wots256Sig}
    (hfirst : client.get256Signature depositTxid depositVout withdrawalFulfillmentPkIdx
      assertions.withdrawalFulfillment = .ok sig) {s : Signing} :
    s ∈ (signAssertions client depositTxid assertions).1 ↔
      ∃ c : Component, s = c.signing depositTxid assertions := by
  refine ⟨exists_component, ?_⟩
  simp only [signAssertions, WotsClient.sign256, hfirst]
  simp only [mem_append, mem_cons, mem_map, Vector.mem_toList_iff, Vector.mem_mapFinIdx]
  rintro ⟨c, rfl⟩
  cases c with
  | withdrawalFulfillment => exact .inl (.inl (.inl rfl))
  | publicInput i => exact .inl (.inl (.inr ⟨_, ⟨i, i.isLt, rfl⟩, rfl⟩))
  | fieldElement i => exact .inl (.inr ⟨_, ⟨i, i.isLt, rfl⟩, rfl⟩)
  | hash i => exact .inr ⟨_, ⟨i, i.isLt, rfl⟩, rfl⟩

def NoKeyReuse (signings : List Signing) : Prop :=
  ∀ s ∈ signings, ∀ s' ∈ signings, s.key = s'.key → s = s'

/-- **When a claim and an assertion sign one message per key**: only if the claim and the first
public input of the assertion carry the same 256 bits as its withdrawal fulfillment. No other key
is used for two components. -/
theorem noKeyReuse_iff {pk : Wots256PublicKey} {cpfpKey : XOnlyPublicKey} {sig : Wots256Sig}
    (hpk : getWithdrawalFulfillmentWotsPk client depositTxid = .ok pk)
    (hgeneral : generalPubkey = .ok cpfpKey)
    (hfirst : client.get256Signature depositTxid depositVout withdrawalFulfillmentPkIdx
      assertions.withdrawalFulfillment = .ok sig) :
    (NoKeyReuse ((signClaim client depositTxid generalPubkey withdrawalFulfillmentTxid).1 ++
        (signAssertions client depositTxid assertions).1) ↔
      withdrawalFulfillmentTxid.hash = assertions.withdrawalFulfillment ∧
        assertions.publicParams.get ⟨0, by decide⟩ = assertions.withdrawalFulfillment) ∧
    ∀ c c' : Component, c ≠ c' →
      (c.signing depositTxid assertions).key = (c'.signing depositTxid assertions).key →
      c = .withdrawalFulfillment ∧ c' = .firstPublicInput ∨
        c = .firstPublicInput ∧ c' = .withdrawalFulfillment := by
  refine ⟨?_, fun c c' hne hkey => (Component.key_eq_iff.mp hkey).resolve_left hne⟩
  have hclaim : (signClaim client depositTxid generalPubkey withdrawalFulfillmentTxid).1 =
      [.wots256 depositTxid depositVout withdrawalFulfillmentPkIdx
        withdrawalFulfillmentTxid.hash] := by
    simp only [signClaim, hpk, hgeneral, WotsClient.sign256]
  have hmem (c : Component) : c.signing depositTxid assertions ∈
      (signAssertions client depositTxid assertions).1 :=
    (mem_signAssertions hfirst).mpr ⟨c, rfl⟩
  rw [hclaim]
  constructor
  · intro h
    have h1 := h _ (mem_cons_self) _ (mem_append_right _ (hmem .withdrawalFulfillment)) rfl
    have h2 := h _ (mem_append_right _ (hmem Component.firstPublicInput)) _
      (mem_append_right _ (hmem .withdrawalFulfillment))
      (Component.key_eq_iff.mpr (.inr (.inr ⟨rfl, rfl⟩)))
    simp only [Component.signing, Component.firstPublicInput, Signing.wots256.injEq] at h1 h2
    exact ⟨h1.2.2.2, h2.2.2.2⟩
  · rintro ⟨h1, h2⟩
    have hwf : Signing.wots256 depositTxid depositVout withdrawalFulfillmentPkIdx
        withdrawalFulfillmentTxid.hash =
        Component.withdrawalFulfillment.signing depositTxid assertions := by
      rw [h1, Component.signing]
    have hsame : Component.firstPublicInput.signing depositTxid assertions =
        Component.withdrawalFulfillment.signing depositTxid assertions := by
      simp [Component.signing, Component.firstPublicInput, h2]
    intro s hs s' hs' hkey
    obtain ⟨c, rfl⟩ : ∃ c : Component, s = c.signing depositTxid assertions := by
      rcases mem_cons.mp hs with rfl | hs
      · exact ⟨_, hwf⟩
      · exact exists_component hs
    obtain ⟨c', rfl⟩ : ∃ c : Component, s' = c.signing depositTxid assertions := by
      rcases mem_cons.mp hs' with rfl | hs'
      · exact ⟨_, hwf⟩
      · exact exists_component hs'
    rcases Component.key_eq_iff.mp hkey with rfl | ⟨rfl, rfl⟩ | ⟨rfl, rfl⟩
    · rfl
    · exact hsame.symm
    · exact hsame

theorem getElem_of_collectResults {T : Type} {n : ℕ} {f : ℕ → Except ClientErr T}
    {l : List T} (h : collectResults ((range n).map f) = .ok l) (i : Fin n) :
    ∃ a, l[i]? = some a ∧ f i = .ok a := by
  have hl := eq_map_ok_of_collectResults h
  have hlen : l.length = n := by simpa using (congrArg length hl).symm
  have hi := congrArg (·[i.val]?) hl
  simpa [hlen] using hi

private theorem Component.published {pks : WotsPublicKeys}
    (h : getWotsPks client depositTxid = .ok pks) (assertions : Assertions) (c : Component) :
    c.Published client pks (c.signing depositTxid assertions).key := by
  rw [getWotsPks] at h
  cases hwf : getWithdrawalFulfillmentWotsPk client depositTxid with
  | error e => simp [hwf, Except.bind] at h
  | ok withdrawalFulfillment =>
  simp only [hwf, Except.bind] at h
  split at h
  · cases h
  next publicInputs hpub =>
  split at h
  · cases h
  next fqs hfqs =>
  split at h
  · cases h
  next hashes hhashes =>
  cases h
  cases c with
  | withdrawalFulfillment => exact ⟨rfl, hwf⟩
  | publicInput i => exact ⟨rfl, getElem_of_collectResults hpub i⟩
  | fieldElement i =>
    obtain ⟨pk, hpk, hget⟩ := getElem_of_collectResults hfqs i
    exact ⟨rfl, pk, hpk, by rw [← hget]; simp only [Signing.key, Component.signing, Nat.add_assoc]⟩
  | hash i => exact ⟨rfl, getElem_of_collectResults hhashes i⟩

/-- **Every component is signed with the key that is published for it**, and every request for a
signature is for a component. -/
theorem published_of_getWotsPks {pks : WotsPublicKeys}
    (h : getWotsPks client depositTxid = .ok pks) (assertions : Assertions) :
    (∀ c : Component, c.Published client pks (c.signing depositTxid assertions).key) ∧
    ∀ s ∈ (signAssertions client depositTxid assertions).1, ∃ c : Component,
      s = c.signing depositTxid assertions ∧ c.Published client pks s.key := by
  refine ⟨fun c => c.published h assertions, fun s hs => ?_⟩
  obtain ⟨c, rfl⟩ := exists_component hs
  exact ⟨c, rfl, c.published h assertions⟩

/-- One-time use of the keys of a deposit: no key signs two messages, every component is signed
with its published key, and no two components share a key. -/
structure OneTimeKeys (client : WotsClient) (generalPubkey : Except ClientErr XOnlyPublicKey)
    (depositTxid withdrawalFulfillmentTxid : Txid) (assertions : Assertions) : Prop where
  noReuse : NoKeyReuse ((signClaim client depositTxid generalPubkey
    withdrawalFulfillmentTxid).1 ++ (signAssertions client depositTxid assertions).1)
  published : ∀ pks, getWotsPks client depositTxid = .ok pks →
    ∀ c : Component, c.Published client pks (c.signing depositTxid assertions).key
  separate : ∀ c c' : Component,
    (c.signing depositTxid assertions).key = (c'.signing depositTxid assertions).key → c = c'

/-- **The keys of a deposit are never all separate**: the withdrawal fulfillment and the first
public input are signed with the same key. -/
theorem component_keys_not_one_time (client : WotsClient)
    (generalPubkey : Except ClientErr XOnlyPublicKey)
    (depositTxid withdrawalFulfillmentTxid : Txid) (assertions : Assertions) :
    ¬OneTimeKeys client generalPubkey depositTxid withdrawalFulfillmentTxid assertions := by
  intro h
  have hkey := h.separate .withdrawalFulfillment .firstPublicInput
    (Component.key_eq_iff.mpr (.inr (.inl ⟨rfl, rfl⟩)))
  cases hkey

end Requests

def WotsClient.answering : WotsClient where
  get256PublicKey _ _ index := .ok ⟨index⟩
  get128PublicKey _ _ index := .ok ⟨index⟩
  get256Signature _ _ _ _ := .ok ⟨[]⟩
  get128Signature _ _ _ _ := .ok ⟨[]⟩

def Wots.Assertions.sample : Assertions where
  withdrawalFulfillment := 1
  publicParams := .replicate _ 2
  fieldElems := .replicate _ 3
  hashes := .replicate _ 4

/-- Claiming and asserting signs two messages with one key. -/
theorem fulfillment_key_signs_twice :
    ∃ s ∈ (signClaim .answering ⟨0⟩ (.ok ⟨5⟩) ⟨1⟩).1 ++ (signAssertions .answering ⟨0⟩ .sample).1,
    ∃ s' ∈ (signClaim .answering ⟨0⟩ (.ok ⟨5⟩) ⟨1⟩).1 ++ (signAssertions .answering ⟨0⟩ .sample).1,
      s.key = s'.key ∧ s ≠ s' :=
  ⟨.wots256 ⟨0⟩ 0 0 1, by decide +kernel, .wots256 ⟨0⟩ 0 0 2, by decide +kernel, rfl, by decide⟩

/-- The claim carries the fulfillment, but the first public input something else. -/
theorem noKeyReuse_answering :
    ¬NoKeyReuse ((signClaim .answering ⟨0⟩ (.ok ⟨5⟩) ⟨1⟩).1 ++
      (signAssertions .answering ⟨0⟩ .sample).1) :=
  fun h => absurd ((noKeyReuse_iff rfl rfl rfl).1.mp h).2 (by decide)

/-- The keys of a service that answers every request. -/
theorem published_answering : ∃ pks, getWotsPks .answering ⟨0⟩ = .ok pks ∧
    (∀ c : Component, c.Published .answering pks (c.signing ⟨0⟩ .sample).key) ∧
    ∀ s ∈ (signAssertions .answering ⟨0⟩ .sample).1, ∃ c : Component,
      s = c.signing ⟨0⟩ .sample ∧ c.Published .answering pks s.key := by
  cases h : getWotsPks .answering ⟨0⟩ with
  | ok pks => exact ⟨pks, rfl, published_of_getWotsPks h .sample⟩
  | error e =>
    have hok : (getWotsPks .answering ⟨0⟩).isOk = true := by decide +kernel
    rw [h] at hok
    cases hok

end StrataBridge
