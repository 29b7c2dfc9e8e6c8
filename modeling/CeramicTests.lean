import CeramicTests.Framework.Transition
import CeramicTests.Framework.Keyset
import CeramicTests.Framework.Client
import CeramicTests.Suite.DynamoDb
import CeramicTests.Suite.ConcurrentScan
import CeramicTests.Suite.Processes
import CeramicTests.Suite.SharedTable
import CeramicTests.Suite.AnchorFailures
import CeramicTests.Suite.SyncEvents
import CeramicTests.Hermetic.ProcessPeers
import CeramicTests.Hermetic.Watch
import CeramicTests.Hermetic.WaitForJob
import CeramicTests.Hermetic.WaitForNetwork
import CeramicTests.Framework.Logged
import CeramicTests.Hermetic.WaitForSimulation
import CeramicTests.Hermetic.Pods
import CeramicTests.Hermetic.Run
import CeramicTests.Hermetic.Isolation
import CeramicTests.Hermetic.Attribution
import CeramicTests.Hermetic.Migration
import CeramicTests.Framework.Rx
import CeramicTests.Framework.Tests
import CeramicTests.Hermetic.AdminSecret
import CeramicTests.Hermetic.PeerGate
import CeramicTests.Hermetic.WatchBudget
import CeramicTests.Suite.PlainScan
import CeramicTests.Suite.AnchorDeletions
import CeramicTests.Suite.CleanUp
import CeramicTests.Suite.WaitForCondition
import CeramicTests.Suite.UpdateSuite
import CeramicTests.Suite.UpdateCoverage
import CeramicTests.Framework.Listeners
import CeramicTests.Framework.Portions
import CeramicTests.Suite.EventAccumulator
import CeramicTests.Hermetic.WatchArithmetic
import CeramicTests.Framework.Simulation
import CeramicTests.Suite.TestTable
import CeramicTests.Framework.Polling
import CeramicTests.Suite.NodePolling
import CeramicTests.Framework.Frame
import CeramicTests.Hermetic.Plan
import CeramicTests.Hermetic.Cluster
import CeramicTests.Hermetic.JobRun
import CeramicTests.Suite.Feed
import CeramicTests.Framework.Interleave
import CeramicTests.Suite.SyncTests
import CeramicTests.Suite.SharedCleanUp
import CeramicTests.Hermetic.Manifest
import CeramicTests.Framework.Replay
import CeramicTests.Suite.RequestHistory
import CeramicTests.Suite.UpdateSetup
import CeramicTests.Hermetic.PortForward
import CeramicTests.Hermetic.Cli
import CeramicTests.Suite.DataFeed
import CeramicTests.Suite.Topology
import CeramicTests.Suite.Collections
