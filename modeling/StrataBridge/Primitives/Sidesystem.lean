import StrataBridge.Primitives.Params

/-!
# The sidesystem

The part of the state of the sidesystem that the bridge reads. A checkpoint of the sidesystem is
inscribed in a Bitcoin transaction: a signed batch with a proof, together with the chain state
after the batch. The deposits table of the chain state assigns withdrawals to operators; its view
of Bitcoin ends with the last block it has verified.
-/

namespace StrataBridge

/-! ### Deposits -/

structure Buf32 where
  code : ℕ
  deriving DecidableEq, Repr

structure Descriptor where
  code : ℕ
  deriving DecidableEq, Repr

structure WithdrawOutput where
  destination : Descriptor
  amt : ℕ
  deriving DecidableEq, Repr

structure DispatchedState where
  withdrawOutputs : List WithdrawOutput
  assignee : OperatorIdx
  execDeadline : BitcoinBlockHeight
  deriving DecidableEq, Repr

/-- The state of a deposit in the sidesystem; the bridge tells dispatched ones from others. -/
inductive DepositState where
  | created
  | accepted
  | dispatched (d : DispatchedState)
  | executed
  deriving DecidableEq, Repr

structure DepositEntry where
  idx : ℕ
  output : OutPoint
  amt : ℕ
  depositState : DepositState
  withdrawalRequestTxid : Option Buf32
  deriving DecidableEq, Repr

def DepositEntry.isDispatched (entry : DepositEntry) : Bool :=
  match entry.depositState with
  | .dispatched _ => true
  | _ => false

/-! ### The chain state -/

/-- `HeaderVerificationState`: the last block of Bitcoin that is verified, and whatever else the
next header is checked against. -/
structure HeaderVerificationState where
  lastVerifiedHeight : BitcoinBlockHeight
  code : ℕ
  deriving DecidableEq, Repr

/-- `Chainstate`: the deposits table, the wallet keys of the operators by their indices, and the
view of Bitcoin. -/
structure Chainstate where
  depositsTable : List DepositEntry
  operatorTable : List (OperatorIdx × Buf32)
  headerVs : HeaderVerificationState
  deriving DecidableEq, Repr

namespace Chainstate

/-- `DepositsTable::get_deposit`. -/
def getDeposit (c : Chainstate) (idx : ℕ) : Option DepositEntry :=
  c.depositsTable.find? fun entry => entry.idx = idx

/-- `OperatorTable::get_operator`, the wallet key only. -/
def walletPk (c : Chainstate) (idx : OperatorIdx) : Option Buf32 :=
  (c.operatorTable.find? fun entry => entry.1 = idx).map Prod.snd

end Chainstate

/-! ### Checkpoints -/

structure ProofReceipt where
  code : ℕ
  deriving DecidableEq, Repr

/-- `Checkpoint`: the bytes of the chain state in its sidecar, the root that the chain state has
after the batch, the proof of the batch, and the height of the last block of Bitcoin in it. -/
structure Checkpoint where
  sidecar : Bytes
  postStateRoot : Buf32
  receipt : ProofReceipt
  l1EndHeight : BitcoinBlockHeight
  deriving DecidableEq, Repr

structure SignedCheckpoint where
  checkpoint : Checkpoint
  signature : ℕ
  deriving DecidableEq, Repr

/-- `TxFilterConfig`: what envelopes are told apart by. -/
structure TxFilterConfig where
  code : ℕ
  deriving DecidableEq, Repr

end StrataBridge
