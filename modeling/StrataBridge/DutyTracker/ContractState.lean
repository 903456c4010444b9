import StrataBridge.DutyTracker.Predicates
import StrataBridge.TxGraph.WithdrawalFulfillment
import StrataBridge.StakeChain.StakeTx

/-!
# States, events and duties of a contract

Every deposit has a contract that follows it from the deposit request to the reimbursement of
the operator who served the withdrawal. This file has the data of the contract state machine:
the phases with what each of them stores, the events, the duties it hands to the operator, and
the reasons for which an event is rejected.

## References

* `crates/duty-tracker/src/contract_state_machine.rs`, lines 60–1230
-/

namespace StrataBridge

open Rust BTreeMap

abbrev Session (T : Type) : Type := BTreeMap P2POperatorPubKey (PogMusigF T)

abbrev ActiveGraph : Type := PegOutGraphInput × PegOutGraphSummary

/-! ### Phases -/

/-- What a contract stores between the deposit request and the deposit. Graphs are indexed by
the txid of their claim transaction. -/
structure Requested where
  depositRequestTxid : Txid
  abortDeadline : BitcoinBlockHeight
  pegOutGraphInputs : BTreeMap P2POperatorPubKey PegOutGraphInput
  pegOutGraphSummaries : BTreeMap Txid PegOutGraphSummary
  claimTxids : BTreeMap P2POperatorPubKey Txid
  graphNonces : BTreeMap Txid (Session PubNonce)
  aggNonces : BTreeMap Txid (PogMusigF AggNonce)
  graphPartials : BTreeMap Txid (Session PartialSignature)
  graphSigs : BTreeMap Txid (PogMusigF TaprootSignature)
  rootNonces : BTreeMap P2POperatorPubKey PubNonce
  rootPartials : BTreeMap P2POperatorPubKey PartialSignature

/-- What a contract keeps about the graphs of all operators once the deposit is confirmed. -/
structure GraphData where
  pegOutGraphs : BTreeMap Txid ActiveGraph
  claimTxids : BTreeMap P2POperatorPubKey Txid
  graphSigs : BTreeMap Txid (PogMusigF TaprootSignature)

structure Assigned extends GraphData where
  fulfiller : OperatorIdx
  recipient : Descriptor
  deadline : BitcoinBlockHeight
  activeGraph : ActiveGraph
  withdrawalRequestTxid : Buf32
  l1StartHeight : BitcoinBlockHeight

structure Fulfilled extends GraphData where
  fulfiller : OperatorIdx
  activeGraph : ActiveGraph
  withdrawalRequestTxid : Buf32
  withdrawalFulfillmentTxid : Txid
  withdrawalFulfillmentHeight : BitcoinBlockHeight
  l1StartHeight : BitcoinBlockHeight

structure Claimed extends GraphData where
  claimHeight : BitcoinBlockHeight
  fulfiller : OperatorIdx
  activeGraph : ActiveGraph
  withdrawalRequestTxid : Buf32
  withdrawalFulfillmentTxid : Txid
  withdrawalFulfillmentCommitment : Wots.Wots256Sig
  l1StartHeight : BitcoinBlockHeight

structure PreAssertConfirmed extends Claimed where
  signedAssertDataTxs : BTreeMap Txid Transaction

structure AssertDataConfirmed extends GraphData where
  fulfiller : OperatorIdx
  activeGraph : ActiveGraph
  withdrawalRequestTxid : Buf32
  withdrawalFulfillmentTxid : Txid
  withdrawalFulfillmentCommitment : Wots.Wots256Sig
  signedAssertDataTxs : BTreeMap Txid Transaction

namespace PreAssertConfirmed

def collect (p : PreAssertConfirmed) (txid : Txid) (tx : Transaction) : PreAssertConfirmed :=
  { p with signedAssertDataTxs := p.signedAssertDataTxs.insert txid tx }

section Collect

variable (p : PreAssertConfirmed) (txid : Txid) (tx : Transaction)

theorem collect_fulfiller : (p.collect txid tx).fulfiller = p.fulfiller := rfl

theorem collect_graphSigs : (p.collect txid tx).graphSigs = p.graphSigs := rfl

theorem collect_activeGraph : (p.collect txid tx).activeGraph = p.activeGraph := rfl

end Collect

def assertDataConfirmed (p : PreAssertConfirmed) : AssertDataConfirmed :=
  { p.toGraphData with
    fulfiller := p.fulfiller
    activeGraph := p.activeGraph
    withdrawalRequestTxid := p.withdrawalRequestTxid
    withdrawalFulfillmentTxid := p.withdrawalFulfillmentTxid
    withdrawalFulfillmentCommitment := p.withdrawalFulfillmentCommitment
    signedAssertDataTxs := p.signedAssertDataTxs }

end PreAssertConfirmed

structure Asserted extends GraphData where
  fulfiller : OperatorIdx
  activeGraph : ActiveGraph
  withdrawalRequestTxid : Buf32
  postAssertHeight : BitcoinBlockHeight
  withdrawalFulfillmentTxid : Txid
  withdrawalFulfillmentCommitment : Wots.Wots256Sig
  proofCommitment : Wots.Groth16Sigs

inductive ResolutionPath where
  | optimistic
  | contested
  deriving DecidableEq, Repr

structure Resolved where
  claimTxid : Txid
  withdrawalRequestTxid : Buf32
  withdrawalFulfillmentTxid : Txid
  payoutTxid : Txid
  path : ResolutionPath
  deriving DecidableEq, Repr

/-- `ContractState` (lines 219–608). -/
inductive ContractState where
  | requested (r : Requested)
  | deposited (d : GraphData)
  | assigned (a : Assigned)
  | fulfilled (f : Fulfilled)
  | claimed (c : Claimed)
  | challenged (c : Claimed)
  | preAssertConfirmed (p : PreAssertConfirmed)
  | assertDataConfirmed (a : AssertDataConfirmed)
  | asserted (a : Asserted)
  | disproved
  | resolved (r : Resolved)
  | aborted

namespace ContractState

/-- `ContractState::new`. -/
def new (depositRequestTxid : Txid) (abortDeadline : BitcoinBlockHeight) : ContractState :=
  .requested
    { depositRequestTxid, abortDeadline
      pegOutGraphInputs := ∅, pegOutGraphSummaries := ∅, claimTxids := ∅, graphNonces := ∅
      aggNonces := ∅, graphPartials := ∅, graphSigs := ∅, rootNonces := ∅, rootPartials := ∅ }

def graphData : ContractState → Option GraphData
  | .deposited d => some d
  | .assigned a => some a.toGraphData
  | .fulfilled f => some f.toGraphData
  | .claimed c => some c.toGraphData
  | .challenged c => some c.toGraphData
  | .preAssertConfirmed p => some p.toGraphData
  | .assertDataConfirmed a => some a.toGraphData
  | .asserted a => some a.toGraphData
  | .requested _ | .disproved | .resolved _ | .aborted => none

/-- `ContractState::summaries`: the graphs to watch. -/
def summaries : ContractState → List PegOutGraphSummary
  | .requested r => vals r.pegOutGraphSummaries
  | s => (s.graphData.map fun d => (vals d.pegOutGraphs).map Prod.snd).getD []

def firstOwner (claimTxids : BTreeMap P2POperatorPubKey Txid) (claim : Txid) :
    Option P2POperatorPubKey :=
  (claimTxids.toList.find? fun e => e.2 = claim).map Prod.fst

theorem get_of_firstOwner {claimTxids : BTreeMap P2POperatorPubKey Txid} {claim : Txid}
    {k : P2POperatorPubKey} (h : firstOwner claimTxids claim = some k) :
    claimTxids[k]? = some claim := by
  obtain ⟨e, he, rfl⟩ := Option.map_eq_some_iff.mp h
  have hclaim : e.2 = claim := by simpa using List.find?_some he
  rw [← hclaim]
  exact mem_toList.mp (List.mem_of_find?_eq_some he)

/-- `ContractState::claim_to_operator`. -/
def claimToOperator (s : ContractState) (claim : Txid) : Option P2POperatorPubKey :=
  match s with
  | .requested r => firstOwner r.claimTxids claim
  | s => s.graphData.bind fun d => firstOwner d.claimTxids claim

end ContractState

/-! ### Events -/

/-- `ContractEvent` (lines 97–183). -/
inductive ContractEvent where
  | depositSetup (operatorP2pKey : P2POperatorPubKey) (operatorBtcKey : XOnlyPublicKey)
      (stakeHash : Sha256Hash) (stakeTxid : Txid) (wotsKeys : Wots.PublicKeys)
  | graphNonces (signer : P2POperatorPubKey) (claimTxid : Txid) (pubnonces : List PubNonce)
  | graphSigs (signer : P2POperatorPubKey) (claimTxid : Txid)
      (signatures : List PartialSignature)
  | aggregatedSigs (aggSigs : BTreeMap Txid (PogMusigF TaprootSignature))
  | rootNonce (op : P2POperatorPubKey) (nonce : PubNonce)
  | rootSig (op : P2POperatorPubKey) (sig : PartialSignature)
  | assignment (depositEntry : DepositEntry) (stakeTx : StakeTxKind)
      (l1StartHeight : BitcoinBlockHeight)
  | depositConfirmation (tx : Transaction)
  | pegOutGraphConfirmation (tx : Transaction) (height : BitcoinBlockHeight)
  | block (height : BitcoinBlockHeight)
  | claimFailure
  | assertionFailure

/-- The operator that a message comes from; the other events come from the chain. -/
def ContractEvent.sender : ContractEvent → Option P2POperatorPubKey
  | .depositSetup signer .. => some signer
  | .graphNonces signer .. => some signer
  | .graphSigs signer .. => some signer
  | .rootNonce op _ => some op
  | .rootSig op _ => some op
  | _ => none

def ContractEvent.isSigning : ContractEvent → Bool
  | .depositSetup .. | .graphNonces .. | .graphSigs .. | .aggregatedSigs _ | .rootNonce ..
  | .rootSig .. => true
  | _ => false

/-! ### Duties -/

structure StakeChainInputs where
  stakeInputs : BTreeMap ℕ StakeTxData
  preStakeOutpoint : OutPoint

inductive FulfillerDuty where
  | initStakeChain
  | handleFulfillment (stakeTx : StakeTxKind) (withdrawalMetadata : WithdrawalMetadata)
      (userDescriptor : Descriptor) (deadline : BitcoinBlockHeight)
  | publishClaim (withdrawalFulfillmentTxid stakeTxid depositTxid : Txid)
  | publishPayoutOptimistic (depositTxid claimTxid stakeTxid : Txid) (stakeIndex : ℕ)
      (aggSigs : Vector TaprootSignature numPayoutOptimisticInputs)
  | publishPreAssert (depositIdx : ℕ) (depositTxid claimTxid : Txid) (aggSig : TaprootSignature)
  | publishAssertData (withdrawalFulfillmentTxid : Txid) (startHeight : BitcoinBlockHeight)
      (depositIdx : ℕ) (depositTxid preAssertTxid : Txid)
      (preAssertLockingScripts : Vector ScriptBuf numAssertDataTx)
  | publishPostAssertData (depositTxid : Txid) (assertDataTxids : Vector Txid numAssertDataTx)
      (aggSigs : Vector TaprootSignature numPostAssertInputs)
  | publishPayout (depositIdx : ℕ) (depositTxid postAssertTxid claimTxid stakeTxid : Txid)
      (aggSigs : Vector TaprootSignature numPayoutInputs)

inductive VerifierDuty where
  | verifyClaim
  | verifyAssertion
  | verifyStake
  | publishChallenge
  | publishDisprove
  deriving DecidableEq, Repr

/-- `OperatorDuty` (lines 873–995). -/
inductive OperatorDuty where
  | abort
  | publishStakeChainExchange
  | publishDepositSetup (depositTxid : Txid) (depositIdx : ℕ) (stakeChainInputs : StakeChainInputs)
  | publishGraphNonces (claimTxid : Txid) (pogPrevouts : PogMusigF OutPoint)
      (pogWitnesses : PogMusigF TaprootWitness) (nonces : Option (PogMusigF PubNonce))
  | publishGraphSignatures (claimTxid : Txid) (aggnonces : PogMusigF AggNonce)
      (pogPrevouts : PogMusigF OutPoint) (pogSighashes : PogMusigF Message)
      (witnesses : PogMusigF TaprootWitness)
      (partialSignatures : Option (PogMusigF PartialSignature))
  | publishRootNonce (depositRequestTxid : Txid) (witness : TaprootWitness)
      (nonce : Option PubNonce)
  | publishRootSignature (depositRequestTxid : Txid) (aggnonce : AggNonce) (sighash : Message)
      (witness : TaprootWitness) (partialSignature : Option PartialSignature)
  | publishDeposit (depositTx : DepositTx) (partialSigs : List PartialSignature)
      (aggnonce : AggNonce)
  | fulfillerDuty (duty : FulfillerDuty)
  | verifierDuty (duty : VerifierDuty)

def OperatorDuty.isSigning : OperatorDuty → Bool
  | .publishGraphNonces .. | .publishGraphSignatures .. | .publishRootNonce ..
  | .publishRootSignature .. | .publishDeposit .. => true
  | _ => false

/-! ### Rejections -/

/-- The handlers of a contract, as their error texts name them. -/
inductive Handler where
  | depositConfirmation | pegOutGraphTxConfirmation | depositSetup | graphNonces
  | graphSignatures | aggregateSigs | rootNonce | rootSignature | fulfillmentConfirmation
  | claimConfirmation | challengeConfirmation | preAssertConfirmation
  | assertDataConfirmation | postAssertConfirmation | disproveConfirmation
  | optimisticPayoutConfirmation | defendedPayoutConfirmation
  | claimVerificationFailure | assertVerificationFailure
  deriving DecidableEq, Repr

/-- Why a contract rejected an event: the text of the source's error with the values it names.
A rejection for the phase carries the state. -/
inductive TransitionErr where
  | unexpectedState (handler : Handler) (state : ContractState)
  | wrongDeposit (txid expected : Txid)
  | unpackNonces
  | unpackSigs
  | claimNotInNonceMap (claim : Txid)
  | claimNotInPartialsMap (claim : Txid)
  | claimNotInClaimTxids (claim : Txid)
  | claimNotInGraphMap (claim : Txid)
  | claimNotInAggNonces (claim : Txid)
  | graphInputMissing (signer : P2POperatorPubKey)
  | aggNoncesMissing (claim : Txid)
  | partialVerificationFailed (claim : Txid) (signer : P2POperatorPubKey)
  | noBtcKey (signer : P2POperatorPubKey)
  | rootNonceNotFound (signer : P2POperatorPubKey)
  | unexpectedBlock (wanted got : BitcoinBlockHeight)
  | graphSigsMissing (claim : Txid)
  | unexpectedAssignment (idx depositIdx : ℕ)
  | notDispatched (entry : DepositEntry)
  | unknownAssignee (assignee : OperatorIdx)
  | noRecipient (deposit : Txid)
  | noWithdrawalRequest (deposit : Txid)
  | assigneeClaimNotFound (assignee : P2POperatorPubKey) (deposit : Txid)
  | assigneeGraphNotFound (claim deposit : Txid)
  | invalidTx (handler : Handler) (txid : Txid)
  | claimWitness (e : TxErr)
  | assertDataNotFound (txid deposit : Txid)
  | assertDataWitness (e : TxErr)

end StrataBridge
