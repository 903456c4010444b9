import StrataBridge.DutyTracker.Fulfillments
import StrataBridge.DutyTracker.Persistence
import StrataBridge.DutyTracker.SigningRuns
import StrataBridge.DutyTracker.RootPartials
import StrataBridge.BridgeProof.Recognizers
import StrataBridge.BridgeProof.Soundness
import StrataBridge.BridgeProof.Lateness
import StrataBridge.Executors.Rebuild
import StrataBridge.DutyTracker.StakeRecovery
import StrataBridge.DutyTracker.StartupOrder
import StrataBridge.TxGraph.Timelocks
import StrataBridge.TxGraph.DisproveCommitment
import StrataBridge.DutyTracker.Confluence
import StrataBridge.DutyTracker.Confirmations
import StrataBridge.DutyTracker.PartialChecks
import StrataBridge.TxGraph.AssertCommitment
import StrataBridge.Executors.Announcements
import StrataBridge.DutyTracker.SetupRecovery
import StrataBridge.DutyTracker.Nagging
import StrataBridge.BtcNotify.Lifecycles
import StrataBridge.TxGraph.Taptree
import StrataBridge.BridgeProof.InclusionProofs
import StrataBridge.DutyTracker.DriveJobs
import StrataBridge.Rpc.Server
import StrataBridge.SecretService.Musig2
import StrataBridge.SecretService.Wire
import StrataBridge.TxGraph.Inpoints
import StrataBridge.OperatorWallet.Leases
import StrataBridge.AssertSplitter.TotalSize
import StrataBridge.Primitives.KeySerde
import StrataBridge.DutyTracker.Restarts
