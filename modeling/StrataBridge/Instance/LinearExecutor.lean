import StrataBridge.Executors.Deposit
import StrataBridge.Instance.LinearGraph

/-!
# An instance of the executors

A secret service that always answers, an announcement made with it, and a withdrawal that the
operator is to serve with the graph of that announcement.
-/

namespace StrataBridge.Linear

open Rust

def executorEnv : ExecutorEnv where
  toGraphEnv := graphEnv
  sha256 _ := ⟨40⟩
  generateAssertions _ _ _ := .ok .sample

def secretService : SecretService where
  wots := { WotsClient.answering with
    get256PublicKey := fun _ _ _ => .ok ⟨0⟩
    get128PublicKey := fun _ _ _ => .ok ⟨0⟩ }
  generalPubkey := .ok ⟨30⟩
  getPreimg _ _ _ := .ok []

def publishedPks : WotsPublicKeys where
  withdrawalFulfillment := ⟨0⟩
  groth16 := ⟨(List.range numPubs).map fun _ => ⟨0⟩, (List.range numU256).map fun _ => ⟨0⟩,
    (List.range numHash).map fun _ => ⟨0⟩⟩

private theorem sized_map_range {T : Type} (n : ℕ) (x : T) :
    Wots.sized n ((List.range n).map fun _ => x) = some (.replicate n x) := by
  rw [Wots.sized, dif_pos (by simp), Option.some.injEq, ← Vector.toList_inj]
  simp

theorem tryFrom_publishedPks : Wots.PublicKeys.tryFrom publishedPks = .ok (wotsKeys 0) := by
  simp only [Wots.PublicKeys.tryFrom, Wots.Groth16PublicKeys.tryFrom, publishedPks,
    sized_map_range, Except.map, wotsKeys]

theorem getWotsPks_secretService (deposit : Txid) :
    getWotsPks secretService.wots deposit = .ok publishedPks := by
  simp only [getWotsPks, getWithdrawalFulfillmentWotsPk, secretService, Except.bind,
    PogMusigF.collectResults_map_ok, publishedPks]

def startedDb : StakeDb := StakeDb.empty.setPreStake 0 ⟨⟨78⟩, 0⟩

theorem ownRows_startedDb :
    OwnRows executorEnv twoOperators secretService ⟨⟨78⟩, 0⟩ startedDb where
  start := rfl
  rows := by rintro idx data ⟨⟩

def firstSetup : DepositSetup := ⟨0, ⟨40⟩, ⟨⟨79⟩, 0⟩, ⟨30⟩, publishedPks⟩

theorem handlePublishDepositSetup_startedDb (deposit : Txid) :
    handlePublishDepositSetup executorEnv twoOperators secretService startedDb deposit 0
      ⟨∅, ⟨⟨78⟩, 0⟩⟩ (.ok ⟨⟨79⟩, 0⟩) =
        .ok (startedDb.addStakeData 0 0 firstSetup.stakeTxData, firstSetup) := by
  rw [handlePublishDepositSetup, getWotsPks_secretService]
  rfl

def assigned0 (active : ActiveGraph) : Assigned where
  pegOutGraphs := .ofEntries [(active.2.claimTxid, active)]
  claimTxids := .ofEntries [(⟨10⟩, active.2.claimTxid)]
  graphSigs := ∅
  fulfiller := 0
  recipient := ⟨50⟩
  deadline := 2000
  activeGraph := active
  withdrawalRequestTxid := ⟨60⟩
  l1StartHeight := 1

def assignedTo0 (active : ActiveGraph) : ContractSM :=
  ⟨cfg twoOperators 0 1, ⟨100, .assigned (assigned0 active)⟩, ∅⟩

end StrataBridge.Linear
