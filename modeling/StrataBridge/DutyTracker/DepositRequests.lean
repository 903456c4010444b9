import StrataBridge.Instance.LinearBridge
import StrataBridge.Script.Bytes

/-!
# The parser of deposit requests

Every transaction of every block is looked at for a deposit request: a first output of more than the
deposit amount, and a second one that carries the tag, the key by which the user takes the request
back, and an address of the sidesystem. The bytes in the second output are anybody's choice. The key
in them is parsed without a check that it is one, so a transaction whose 32 bytes are no coordinate
of the curve makes the parser panic; it reads every request that is built as one.

## Main results

* `depositRequestInfo_iff`: when a request is recognised
* `depositRequestInfo_panics`: a transaction that the parser panics on

## References

* `crates/duty-tracker/src/predicates.rs`, lines 22–94
* `crates/primitives/src/scripts/metadata.rs`, lines 67–97
* `crates/primitives/src/scripts/general.rs`, lines 80–93
-/

namespace StrataBridge

open Rust Linear List

/-! ### Metadata -/

theorem opReturnData_pushSlice {data : Bytes} (h : data.length < 2 ^ 32) :
    opReturnData (opReturn :: pushSlice data) = some data := by
  have hreturn : Script.next (opReturn :: pushSlice data) =
      some (.op opReturn, pushSlice data) := by
    rw [Script.next]
    simp [opReturn]
  have hpush := Script.next_pushSlice data [] h
  rw [append_nil] at hpush
  simp [opReturnData, hreturn, hpush]

theorem magicTaggedData_append {tag payload : Bytes} (h : (tag ++ payload).length < 2 ^ 32) :
    magicTaggedData tag (opReturn :: pushSlice (tag ++ payload)) = some payload := by
  have htag : tag.isPrefixOf (tag ++ payload) = true :=
    isPrefixOf_iff_prefix.mpr ⟨payload, rfl⟩
  rw [magicTaggedData, opReturnData_pushSlice h, Option.bind_some, if_pos htag, drop_left]

/-- **Metadata is read back.** The key and the address of a request are what the parser finds
behind the tag, whatever their lengths. -/
theorem magicTaggedData_metadataScript {tag : Tag} {takeback eeAddress : Bytes}
    (h : (AuxiliaryData.toVec ⟨tag, .depositRequestTx takeback eeAddress⟩).length < 2 ^ 32) :
    magicTaggedData tag.bytes (metadataScript ⟨tag, .depositRequestTx takeback eeAddress⟩) =
      some (takeback ++ eeAddress) :=
  magicTaggedData_append h

/-! ### Requests -/

/-- What a transaction shows before the key is parsed: a first output of more than the deposit
amount, and tagged metadata of the length of a key and an address (`predicates.rs`,
lines 54–66). -/
def requestMetadata (sidesystemParams : RollupParams) (params : PegOutGraphParams)
    (tx : Transaction) : Option (TxOut × Bytes) :=
  match tx.output with
  | request :: second :: _ =>
    if request.value ≤ params.depositAmount then none
    else
      (magicTaggedData params.tag.bytes second.scriptPubkey).bind fun metadata =>
        if metadata.length = schnorrPublicKeySize + sidesystemParams.addressLength then
          some (request, metadata)
        else none
  | _ => none

section Parser

variable (env : Env) (sidesystemParams : RollupParams) (params : PegOutGraphParams)
  (aggregated : XOnlyPublicKey) (network : Network) (stakeIndex : ℕ) (tx : Transaction)

def requestData (request : TxOut) (metadata : Bytes) (key : XOnlyPublicKey) :
    DepositRequestData where
  depositRequestOutpoint := ⟨env.computeTxid tx, 0⟩
  stakeIndex := stakeIndex
  eeAddress := metadata.drop schnorrPublicKeySize
  totalAmount := request.value
  xOnlyPublicKey := key
  originalScriptPubkey := request.scriptPubkey

theorem depositRequestInfo_eq :
    depositRequestInfo env sidesystemParams params aggregated network stakeIndex tx =
      match requestMetadata sidesystemParams params tx with
      | none => .ok none
      | some (request, metadata) =>
        match env.parseXOnly (metadata.take schnorrPublicKeySize) with
        | none => .error "failed to parse XOnlyPublicKey"
        | some key =>
          let data := requestData env stakeIndex tx request metadata key
          .ok (if data.validate env aggregated network params.refundDelay then some data
            else none) := by
  rw [depositRequestInfo, requestMetadata]
  match tx.output with
  | [] => rfl
  | [_] => rfl
  | request :: second :: _ =>
    dsimp only [head?_cons, getElem?_cons_succ, getElem?_cons_zero]
    split
    · rfl
    cases magicTaggedData params.tag.bytes second.scriptPubkey with
    | none => rfl
    | some metadata =>
      dsimp only [Option.bind_some]
      by_cases hlen : metadata.length = schnorrPublicKeySize + sidesystemParams.addressLength
      · rw [if_pos hlen, if_neg (not_not.mpr hlen)]
        rfl
      · rw [if_neg hlen, if_pos hlen]

/-- **Which transactions the parser returns on, and which requests it reads.** It returns on a
transaction exactly when the key in its metadata is one, if it shows metadata of the right length
under the tag and pays more than the deposit amount. And it reads every request: whatever the tag,
the key by which the user takes it back (given by the bytes that it is written as), the address of
the configured length and the amount above that of a deposit, if the first output is locked to the
joint key with the take-back leaf of that key, and the second one carries the metadata. -/
theorem depositRequestInfo_iff :
    ((∃ found, depositRequestInfo env sidesystemParams params aggregated network stakeIndex tx =
        .ok found) ↔
      ∀ request metadata, requestMetadata sidesystemParams params tx = some (request, metadata) →
        (env.parseXOnly (metadata.take schnorrPublicKeySize)).isSome = true) ∧
    ∀ (takeback eeAddress : Bytes) (key : XOnlyPublicKey) (request second : TxOut)
        (rest : List TxOut),
      tx.output = request :: second :: rest → params.depositAmount < request.value →
      request.scriptPubkey =
        env.taprootScriptPubkey network aggregated [env.drtTakeBack key params.refundDelay] →
      second.scriptPubkey = metadataScript ⟨params.tag, .depositRequestTx takeback eeAddress⟩ →
      (AuxiliaryData.toVec ⟨params.tag, .depositRequestTx takeback eeAddress⟩).length < 2 ^ 32 →
      takeback.length = schnorrPublicKeySize → env.parseXOnly takeback = some key →
      eeAddress.length = sidesystemParams.addressLength →
      depositRequestInfo env sidesystemParams params aggregated network stakeIndex tx =
        .ok (some
          { depositRequestOutpoint := ⟨env.computeTxid tx, 0⟩
            stakeIndex := stakeIndex
            eeAddress := eeAddress
            totalAmount := request.value
            xOnlyPublicKey := key
            originalScriptPubkey := request.scriptPubkey }) := by
  refine ⟨?_, ?_⟩
  · rw [depositRequestInfo_eq]
    cases hshown : requestMetadata sidesystemParams params tx with
    | none => simp
    | some shown =>
      obtain ⟨request, metadata⟩ := shown
      cases hkey : env.parseXOnly (metadata.take schnorrPublicKeySize) with
      | none => simp [hkey]
      | some key => simp [hkey]
  · intro takeback eeAddress key request second rest hout hamount hrequest hsecond hfits htakeback
      hkey haddress
    have hlen : (takeback ++ eeAddress).length =
        schnorrPublicKeySize + sidesystemParams.addressLength := by
      rw [length_append, htakeback, haddress]
    have hshown : requestMetadata sidesystemParams params tx =
        some (request, takeback ++ eeAddress) := by
      rw [requestMetadata, hout]
      dsimp only
      rw [if_neg (Nat.not_le.mpr hamount), hsecond, magicTaggedData_metadataScript hfits,
        Option.bind_some, if_pos hlen]
    have hvalid : (requestData env stakeIndex tx request (takeback ++ eeAddress) key).validate env
        aggregated network params.refundDelay = true := decide_eq_true hrequest.symm
    rw [depositRequestInfo_eq, hshown]
    dsimp only
    rw [take_left' htakeback, hkey]
    dsimp only
    rw [if_pos hvalid, requestData, drop_left' htakeback]

end Parser

/-! ### Keys on the curve -/

namespace Linear

def fieldPrime : ℕ := 2 ^ 256 - 2 ^ 32 - 977

def powMod (m : ℕ) : ℕ → ℕ → ℕ → ℕ
  | 0, _, _ => 1
  | bits + 1, b, e =>
    let square := powMod m bits (b * b % m) (e / 2)
    if e % 2 = 1 then square * b % m else square

/-- `XOnlyPublicKey::from_slice`: 32 bytes, for which the equation of the curve has a solution. -/
def parseXOnly (b : Bytes) : Option XOnlyPublicKey :=
  let x := ofBeBytes b
  if b.length = 32 ∧ x < fieldPrime ∧
      powMod fieldPrime 256 ((x * x * x + 7) % fieldPrime) ((fieldPrime - 1) / 2) = 1 then
    some ⟨x⟩
  else none

def onCurve : Env := { plain with parseXOnly := parseXOnly }

def requestWith (takeback : Bytes) : Transaction :=
  createTx (createTxIns [⟨stakeTxid 5, 0⟩]) <| createTxOuts
    [(onCurve.taprootScriptPubkey .regtest ⟨40⟩
        [onCurve.drtTakeBack ⟨ofBeBytes takeback⟩ graphParams.refundDelay], 2000),
      (metadataScript ⟨graphParams.tag, .depositRequestTx takeback eeAddress⟩, 0)]

end Linear

/-- The user takes the request back with the key 1, which is on the curve. -/
theorem depositRequestInfo_key_one :
    depositRequestInfo onCurve ⟨20, 0⟩ graphParams ⟨40⟩ .regtest 3 (requestWith (toBeBytes 32 1)) =
      .ok (some
        { depositRequestOutpoint :=
            ⟨computeTxid (requestWith (toBeBytes 32 1)), 0⟩
          stakeIndex := 3
          eeAddress := eeAddress
          totalAmount := 2000
          xOnlyPublicKey := ⟨1⟩
          originalScriptPubkey := onCurve.taprootScriptPubkey .regtest ⟨40⟩
            [onCurve.drtTakeBack ⟨ofBeBytes (toBeBytes 32 1)⟩ graphParams.refundDelay] }) :=
  (depositRequestInfo_iff onCurve ⟨20, 0⟩ graphParams ⟨40⟩ .regtest 3
    (requestWith (toBeBytes 32 1))).2 (toBeBytes 32 1) eeAddress ⟨1⟩ _ _ []
    rfl (by decide +kernel) (by decide +kernel) rfl (by decide +kernel) (by decide +kernel)
    (by decide +kernel) (by decide +kernel)

/-- No point has the coordinate 5. Whoever puts it into the metadata of a transaction stops the
parser. -/
theorem depositRequestInfo_panics :
    depositRequestInfo onCurve ⟨20, 0⟩ graphParams ⟨40⟩ .regtest 3
        (requestWith (toBeBytes 32 5)) = .error "failed to parse XOnlyPublicKey" := by
  decide +kernel

end StrataBridge
