import StrataBridge.TxGraph.PegOutGraph

/-!
# Deposit requests and deposits

A user asks for a deposit by paying into a taproot output that the operators can spend together
and the user alone after a delay. From the data of the request everyone builds the same deposit
transaction, which spends that output and records the index of the deposit.

## References

* `crates/tx-graph/src/transactions/deposit.rs`
-/

namespace StrataBridge

/-- `DepositRequestData` (lines 26–59). -/
structure DepositRequestData where
  depositRequestOutpoint : OutPoint
  stakeIndex : ℕ
  eeAddress : Bytes
  totalAmount : ℕ
  xOnlyPublicKey : XOnlyPublicKey
  originalScriptPubkey : ScriptBuf
  deriving DecidableEq, Repr

/-- `DepositRequestData::validate` (lines 108–137): the output is locked to the aggregated key, with
the take-back leaf of the announced key. -/
def DepositRequestData.validate (env : Env) (data : DepositRequestData)
    (aggregated : XOnlyPublicKey) (network : Network) (refundDelay : ℕ) : Bool :=
  env.taprootScriptPubkey network aggregated [env.drtTakeBack data.xOnlyPublicKey refundDelay] =
    data.originalScriptPubkey

structure DepositTx where
  tx : CovenantTx 1
  hasInput : tx.unsignedTx.input ≠ []

inductive DepositTransactionError where
  | invalidTapLeafHash
  | invalidEeAddressSize (actual expected : ℕ)
  deriving DecidableEq, Repr

namespace DepositTx

section New

variable (env : Env) (data : DepositRequestData) (ctx : TxBuildContext) (params : PegOutGraphParams)

def takebackHash : BitVec 256 :=
  env.tapNodeHash (env.drtTakeBack data.xOnlyPublicKey params.refundDelay)

/-- The unsigned deposit of a request (lines 175–219). -/
def unsigned : Transaction :=
  createTx (createTxIns [data.depositRequestOutpoint]) <| createTxOuts
    [(env.taprootScriptPubkey ctx.network (ctx.aggregatedPubkey env) [], params.depositAmount),
      (metadataScript
        { tag := params.tag
          metadata := .depositTx data.stakeIndex data.eeAddress (takebackHash env data params)
            data.totalAmount }, 0)]

/-- `DepositTx::new` (lines 157–237). -/
def new (sidesystemParams : RollupParams) : Except DepositTransactionError DepositTx :=
  if data.validate env (ctx.aggregatedPubkey env) ctx.network params.refundDelay then
    if data.eeAddress.length ≠ sidesystemParams.addressLength then
      .error (.invalidEeAddressSize data.eeAddress.length sidesystemParams.addressLength)
    else
      .ok
        { tx :=
            { unsignedTx := unsigned env data ctx params
              prevouts := [⟨data.totalAmount, data.originalScriptPubkey⟩]
              sighashTypes := #v[.default]
              witnesses := #v[.tweaked (takebackHash env data params)] }
          hasInput := by simp [unsigned, createTx, createTxIns] }
  else .error .invalidTapLeafHash

end New

def requestTxid (tx : DepositTx) : Txid :=
  (tx.tx.unsignedTx.input.head tx.hasInput).previousOutput.txid

theorem requestTxid_of_new {env : Env} {data : DepositRequestData} {ctx : TxBuildContext}
    {params : PegOutGraphParams} {sidesystemParams : RollupParams} {tx : DepositTx}
    (h : new env data ctx params sidesystemParams = .ok tx) :
    tx.requestTxid = data.depositRequestOutpoint.txid := by
  rw [new] at h
  split at h
  · split at h
    · cases h
    · cases h
      rfl
  · cases h

end DepositTx

end StrataBridge
