import StrataBridge.DutyTracker.ContractSM
import Mathlib.Algebra.BigOperators.Ring.List
import Mathlib.Algebra.Ring.Nat
import Mathlib.Algebra.BigOperators.Group.Multiset.Basic

/-!
# A linear instance of the operations

The development is about every environment `Env`. This file builds a small one in which the
machines can be run: identifiers are polynomial digests of what they identify, graphs have the
shape of the source's graphs with placeholder scripts, and joint signatures are Schnorr
signatures over the natural numbers, where a key, a nonce and a share are their own discrete
logarithms. As in MuSig2, the shares of all signers add up to a valid signature under the
aggregated nonce they were made for.
-/

namespace StrataBridge.Linear

open Rust List

/-! ### Identifiers -/

def digest (l : List ℕ) : ℕ := l.foldl (fun h x => (h * 1000003 + x + 1) % 2 ^ 256) 7

def ofBytes (b : Bytes) : List ℕ := b.length :: b.map UInt8.toNat

/-- What the identifier of a transaction commits to: everything but the witnesses. -/
def serialize (tx : Transaction) : List ℕ :=
  tx.version :: tx.lockTime :: tx.input.length ::
    (tx.input.flatMap fun i =>
      i.previousOutput.txid.hash.toNat :: i.previousOutput.vout :: i.sequence ::
        ofBytes i.scriptSig) ++
    tx.output.length :: tx.output.flatMap fun o => o.value :: ofBytes o.scriptPubkey

def computeTxid (tx : Transaction) : Txid := ⟨BitVec.ofNat 256 (digest (serialize tx))⟩

/-! ### Joint signatures -/

def nonceSum (agg : AggNonce) : ℕ := (agg.summands.map PubNonce.code).sum

def challenge (ctx : KeyAggContext) (agg : AggNonce) (message : Message) : ℕ :=
  digest [ctx.code, nonceSum agg, message.code]

def sign (ctx : KeyAggContext) (agg : AggNonce) (key : PublicKey) (nonce : PubNonce)
    (message : Message) : PartialSignature :=
  ⟨nonce.code + challenge ctx agg message * key.code⟩

def createAggCtx (keys : List PublicKey) (_witness : TaprootWitness) : Option KeyAggContext :=
  if keys = [] then none else some ⟨(keys.map PublicKey.code).sum⟩

def aggregate (ctx : KeyAggContext) (agg : AggNonce) (partials : List PartialSignature)
    (message : Message) : Option ℕ :=
  let s := (partials.map PartialSignature.code).sum
  if s = nonceSum agg + challenge ctx agg message * ctx.code then some s else none

/-- **Verified shares aggregate.** When every signer's share verifies under the sum of all
nonces, the shares join to a valid signature. -/
theorem aggregate_of_verified {ctx : KeyAggContext} {message : Message} {agg : AggNonce}
    (signers : List (PublicKey × PubNonce × PartialSignature))
    (hctx : ctx.code = (signers.map fun s => s.1.code).sum)
    (hagg : agg = AggNonce.sum (signers.map fun s => s.2.1))
    (hverify : ∀ s ∈ signers, s.2.2 = sign ctx agg s.1 s.2.1 message) :
    (aggregate ctx agg (signers.map fun s => s.2.2) message).isSome := by
  have hsum : nonceSum agg = (signers.map fun s => s.2.1.code).sum := by
    subst hagg
    simp [nonceSum, AggNonce.sum, Function.comp_def]
  have hshares : (signers.map fun s => s.2.2.code).sum =
      nonceSum agg + challenge ctx agg message * ctx.code := by
    calc (signers.map fun s => s.2.2.code).sum
        = (signers.map fun s => s.2.1.code + challenge ctx agg message * s.1.code).sum := by
          congr 1
          refine map_congr_left fun s hs => ?_
          rw [hverify s hs, sign]
      _ = (signers.map fun s => s.2.1.code).sum +
            challenge ctx agg message * (signers.map fun s => s.1.code).sum := by
          rw [sum_map_add, sum_map_mul_left]
      _ = nonceSum agg + challenge ctx agg message * ctx.code := by rw [hsum, hctx]
  simp [aggregate, Function.comp_def, hshares]

/-! ### Graphs -/

def txSpending (utxos : List OutPoint) (scripts : List ScriptBuf) : Transaction where
  version := 2
  lockTime := 0
  input := createTxIns utxos
  output := createTxOuts (scripts.map fun s => (s, segwitMinAmount))

def covenant (n : ℕ) (tx : Transaction) : CovenantTx n where
  unsignedTx := tx
  prevouts := []
  sighashTypes := .replicate n ⟨0⟩
  witnesses := .replicate n .key

/-- The graph of an input: the claim spends the stake transaction and commits to the operator's
key, the hash of the stake and the deposit; all other transactions hang below it. -/
def generate (input : PegOutGraphInput) (deposit : Txid) : PegOutGraph :=
  let claimTx := txSpending [input.withdrawalFulfillmentOutpoint]
    [toBeBytes 4 input.operatorPubkey.code ++ toBeBytes 4 input.stakeHash.code, deposit.toBytes]
  let claim := computeTxid claimTx
  let preAssert := txSpending [⟨claim, 0⟩] ((range numAssertDataTx).map fun i => [UInt8.ofNat i])
  let assertData := Vector.ofFn fun i : Fin numAssertDataTx =>
    txSpending [⟨computeTxid preAssert, i⟩] [[0], [UInt8.ofNat i]]
  let postAssert := txSpending (assertData.toList.map fun tx => ⟨computeTxid tx, 0⟩) [[0], [1]]
  { claimTx := ⟨claimTx, by simp [claimTx, txSpending, createTxIns]⟩
    challengeTx := covenant 1 (txSpending [⟨claim, challengeVout⟩] [[2]])
    payoutOptimistic := covenant _
      (txSpending [⟨deposit, 0⟩, ⟨claim, 0⟩, ⟨claim, 1⟩, input.stakeOutpoint] [[3]])
    assertChain := ⟨covenant 1 preAssert, assertData, covenant _ postAssert⟩
    payoutTx := covenant _
      (txSpending [⟨deposit, 0⟩, ⟨computeTxid postAssert, 0⟩, input.stakeOutpoint] [[4]])
    disproveTx := covenant 1
      (txSpending [input.stakeOutpoint, ⟨computeTxid postAssert, 0⟩] [[5], [6]])
    slashStakeTxs := [] }

/-! ### The environment -/

/-- The signed checkpoint in an envelope: a signature, a state root and a proof, each of one byte,
and the chain state. The last block of Bitcoin it covers is always the same. -/
def decodeSignedCheckpoint : Bytes → Option SignedCheckpoint
  | signature :: root :: receipt :: sidecar =>
    some ⟨⟨sidecar, ⟨root.toNat⟩, ⟨receipt.toNat⟩, 100⟩, signature.toNat⟩
  | _ => none

/-- The environment, for a given decoder of chain states. The first witness of an input is its
script, and its script is its envelope. -/
def env (chainstate : Bytes → Option Chainstate) : Env where
  computeTxid := computeTxid
  createMessageHash tx _ _ sighashType i := ⟨digest (sighashType.code :: i :: serialize tx)⟩
  createAggCtx := createAggCtx
  verifyPartial ctx share agg key nonce message := share = sign ctx agg key nonce message
  aggregatePartialSignatures := aggregate
  aggregatedPubkey keys := ⟨(keys.map PublicKey.code).sum⟩
  generate input _ deposit _ _ _ _ := generate input deposit
  parseWitnesses _ := .ok ⟨.replicate _ ⟨[]⟩, .replicate _ ⟨[]⟩, .replicate _ ⟨[]⟩⟩
  toScriptPubkey d _ := some (toBeBytes 4 d.code)
  toScript d := toBeBytes 4 d.code
  multiThreadGraphGen := false
  connectorK _ pk := toBeBytes 4 pk.code
  connectorP key hash _ := toBeBytes 4 key.code ++ toBeBytes 4 hash.code
  connectorStake agg key hash _ _ :=
    toBeBytes 4 agg.code ++ toBeBytes 4 key.code ++ toBeBytes 4 hash.code
  connectorCpfp key _ := toBeBytes 4 key.code
  connectorStakeSpendInfo _ _ _ _ _ := ([], [])
  minimalNonDust _ := segwitMinAmount
  parseXOnly b := some ⟨digest (ofBytes b)⟩
  drtTakeBack key delay := toBeBytes 32 key.code ++ toBeBytes 4 delay
  tapNodeHash script := BitVec.ofNat 256 (digest (ofBytes script))
  taprootScriptPubkey _ key leaves := toBeBytes 4 key.code ++ leaves.flatten
  deriveFilterConfig _ := .ok ⟨0⟩
  taprootLeafScript witness := witness.head?
  parseEnvelopePayloads script _ := some [script]
  decodeSignedCheckpoint := decodeSignedCheckpoint
  verifySignedCheckpointSig signed _ := signed.signature = 1
  decodeChainstate := chainstate

def plain : Env := env fun _ => none

theorem musig2 (chainstate : Bytes → Option Chainstate) {keys : List PublicKey}
    (hkeys : keys ≠ []) : (env chainstate).Musig2 keys := by
  have hctx (witness : TaprootWitness) :
      createAggCtx keys witness = some ⟨(keys.map PublicKey.code).sum⟩ := if_neg hkeys
  refine ⟨fun witness => ⟨_, hctx witness⟩, ?_⟩
  intro witness ctx message signers shares hcreate hfst hperm hverify
  obtain rfl := Option.some.inj ((hctx witness).symm.trans hcreate)
  have hsum : (shares.map PartialSignature.code).sum =
      ((signers.map fun s => s.2.2).map PartialSignature.code).sum :=
    (hperm.map PartialSignature.code).sum_eq
  have hjoin : (aggregate ⟨(keys.map PublicKey.code).sum⟩
      (AggNonce.sum (signers.map fun s => s.2.1)) (signers.map fun s => s.2.2) message).isSome :=
    aggregate_of_verified signers (by simp [← hfst, Function.comp_def]) rfl fun s hs =>
      of_decide_eq_true (hverify s hs)
  obtain ⟨sig, hsig⟩ := Option.isSome_iff_exists.mp hjoin
  refine ⟨sig, ?_⟩
  rw [← hsig]
  change aggregate _ _ shares message = _
  rw [aggregate, aggregate, hsum]

/-! ### A deposit -/

def graphParams : PegOutGraphParams :=
  { tag := ⟨[0x61, 0x6c, 0x70, 0x6e], rfl⟩, depositAmount := 1000, operatorFee := 100
    challengeCost := 10, refundDelay := 1000, operatorFee_le := by decide }

def connectorParams : ConnectorParams :=
  { payoutOptimisticTimelock := 1, preAssertTimelock := 1, payoutTimelock := 1 }

def stakeParams : StakeChainParams :=
  { stakeAmount := 500, burnAmount := 50, delta := 6, slashStakeCount := 1 }

def depositTx (request : ℕ) : DepositTx where
  tx := covenant 1 (txSpending [⟨⟨BitVec.ofNat 256 request⟩, 0⟩] [[7]])
  hasInput := by simp [covenant, txSpending, createTxIns]

def cfg (table : OperatorTable) (depositIdx request : ℕ) : ContractCfg where
  network := .regtest
  operatorTable := table
  connectorParams := connectorParams
  pegOutGraphParams := graphParams
  sidesystemParams := ⟨20, 0⟩
  stakeChainParams := stakeParams
  depositIdx := depositIdx
  depositTx := depositTx request

/-! ### Operators -/

def operator (i : ℕ) : OperatorTableEntry := ⟨i, ⟨10 + i⟩, ⟨20 + i⟩⟩

def oneOperator : OperatorTable :=
  (OperatorTable.new [operator 0] fun e => e.idx = 0).get (by decide)

def twoOperators : OperatorTable :=
  (OperatorTable.new [operator 0, operator 1] fun e => e.idx = 0).get (by decide)

/-- The contract of request 1, made at block 100 and given up at block 1100. -/
abbrev contract (table : OperatorTable) : ContractSM := .new (cfg table 0 1) 100 1100

def wotsKeys (code : ℕ) : Wots.PublicKeys where
  withdrawalFulfillment := ⟨code⟩
  groth16 := ⟨.replicate _ ⟨code⟩, .replicate _ ⟨code⟩, .replicate _ ⟨code⟩⟩

def stakeTxid (stake : ℕ) : Txid := ⟨BitVec.ofNat 256 stake⟩

def setup (i stake : ℕ) : ContractEvent :=
  .depositSetup ⟨10 + i⟩ ⟨30 + i⟩ ⟨40 + i⟩ (stakeTxid stake) (wotsKeys i)

def graph (i stake request : ℕ) : PegOutGraph :=
  generate
    { stakeOutpoint := ⟨stakeTxid stake, stakeVout⟩
      withdrawalFulfillmentOutpoint := ⟨stakeTxid stake, withdrawalFulfillmentVout⟩
      stakeHash := ⟨40 + i⟩
      wotsPublicKeys := wotsKeys i
      operatorPubkey := ⟨30 + i⟩ }
    (computeTxid (depositTx request).tx.unsignedTx)

def claimTxid (i stake request : ℕ) : Txid :=
  computeTxid (graph i stake request).claimTx.unsignedTx

def nonces (i : ℕ) (claim : Txid) (code : ℕ) : ContractEvent :=
  .graphNonces ⟨10 + i⟩ claim (replicate 51 ⟨code⟩)

def shares (table : OperatorTable) (codes : List ℕ) (i : ℕ) (graph : PegOutGraph) :
    List PartialSignature :=
  (graph.musigSighashes plain).pack.map fun message =>
    sign ⟨(table.btcKeys.map PublicKey.code).sum⟩ (AggNonce.sum (codes.map PubNonce.mk))
      ⟨20 + i⟩ ⟨codes.getD i 0⟩ message

def sigs (table : OperatorTable) (codes : List ℕ) (i : ℕ) (graph : PegOutGraph) : ContractEvent :=
  .graphSigs ⟨10 + i⟩ (computeTxid graph.claimTx.unsignedTx) (shares table codes i graph)

/-- The share of operator `i` for the deposit, when the given codes are those of the nonces that
were added up. -/
def rootShare (table : OperatorTable) (request : ℕ) (codes : List ℕ) (i nonce : ℕ) :
    PartialSignature :=
  sign ⟨(table.btcKeys.map PublicKey.code).sum⟩ (AggNonce.sum (codes.map PubNonce.mk)) ⟨20 + i⟩
    ⟨nonce⟩ (((depositTx request).tx.sighashes plain).get 0)

def stakeTx : StakeTxKind :=
  .head ⟨txSpending [⟨stakeTxid 0, 0⟩] [[8]], none, ⟨40⟩, (.key, .key)⟩

def assignment (assignee depositIdx request : ℕ) : ContractEvent :=
  .assignment
    { idx := depositIdx
      output := ⟨computeTxid (depositTx request).tx.unsignedTx, 0⟩
      amt := 1000
      depositState := .dispatched ⟨[⟨⟨50⟩, 900⟩], assignee, 2000⟩
      withdrawalRequestTxid := some ⟨60⟩ }
    stakeTx 100

def fulfillment (assignee depositIdx request : ℕ) : Transaction where
  version := 2
  lockTime := 0
  input := createTxIns [⟨stakeTxid 9, 0⟩]
  output :=
    let metadata := graphParams.tag.bytes ++ toBeBytes 4 assignee ++ toBeBytes 4 depositIdx ++
      (computeTxid (depositTx request).tx.unsignedTx).toBytes
    createTxOuts [(toBeBytes 4 50, 900), (opReturn :: UInt8.ofNat metadata.length :: metadata, 0)]

def confirmedClaim (i stake request : ℕ) : Transaction :=
  let tx := (graph i stake request).claimTx.unsignedTx
  let chains := (range ClaimTx.totalDigitLen).flatMap fun _ => [replicate 20 0, [1]]
  { tx with input := tx.input.map fun input => { input with witness := chains } }

end StrataBridge.Linear
