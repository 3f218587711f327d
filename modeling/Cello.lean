import Cello.Directory.Mmr.Structure
import Cello.Relay.Receipts
import Cello.Relay.Sealable
import Cello.Relay.Tracking
import Cello.Directory.Signaling.Flush
import Cello.Directory.Seal.BilateralFinal
import Cello.Directory.Seal.Readjudication
import Cello.Directory.ChainStore.HonestAppends
import Cello.Directory.MmrStore.ProofChains
import Cello.Directory.Checkpoint.Coordinator
import Cello.Directory.Checkpoint.Commitment
import Cello.Directory.Checkpoint.History
import Cello.Directory.Frost.Nonces
import Cello.Directory.Frost.Epochs
import Cello.Directory.Frost.Burn
import Cello.Directory.Frost.FailedWrite
import Cello.Directory.Seal.Agreement
import Cello.Directory.Frost.Retry
import Cello.Directory.Frost.Threshold
import Cello.Directory.AntiEntropy.Pause
import Cello.Directory.Connection.Gate
import Cello.Directory.Connection.LostAccept
import Cello.Directory.AntiEntropy.ForkAlarm
import Cello.Directory.AntiEntropy.Versions
import Cello.Directory.AntiEntropy.Handshakes
import Cello.Directory.AntiEntropy.Containment
import Cello.Directory.Seal.Tail
import Cello.Relay.ContentStore.Agreement
import Cello.Directory.Signals.Agreement
import Cello.OperationsAgent.Registration.VerifiedEmail
import Cello.OperationsAgent.Registration.EmailContinuity
import Cello.OperationsAgent.Registration.NoDeadEnd
import Cello.Directory.Register.AgentIds
import Cello.Directory.Register.Revoked
import Cello.Directory.Register.Operator
import Cello.Directory.Register.EmailFacts
import Cello.Directory.Primary.Releases
import Cello.Directory.Signaling.Presence
import Cello.Directory.Register.DkgTopology
import Cello.Directory.AntiEntropy.MergeLaws
import Cello.Relay.TreeRoots
import Cello.Relay.Reaper
import Cello.Directory.AntiEntropy.BucketWalk
import Cello.Directory.Seal.LegibilityBytes
import Cello.Relay.SessionWal
import Cello.Directory.JsonTyped
import Cello.Waitlist.ContentAlerts
import Cello.Directory.RelayPool
import Cello.Directory.RelayResign
import Cello.Waitlist.EmailQueue
import Cello.Directory.GraphAnalysis
import Cello.Waitlist.WaveCohort
