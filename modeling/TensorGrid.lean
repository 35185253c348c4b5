import TensorGrid.ClusterDecoding
import TensorGrid.ClusterJson
import TensorGrid.ClusterTypes
import TensorGrid.Coordinator.Capacity
import TensorGrid.Coordinator.Draining
import TensorGrid.Coordinator.Heartbeats
import TensorGrid.Coordinator.History
import TensorGrid.Coordinator.Leases
import TensorGrid.Coordinator.Membership
import TensorGrid.Coordinator.Model
import TensorGrid.Coordinator.Paired
import TensorGrid.Coordinator.Planning
import TensorGrid.Coordinator.Preparing
import TensorGrid.Coordinator.Status
import TensorGrid.Coordinator.Totals
import TensorGrid.DesktopUi.ClusterClient
import TensorGrid.FineTuning.Completion
import TensorGrid.FineTuning.Deletion
import TensorGrid.FineTuning.Jobs
import TensorGrid.FineTuning.Liveness
import TensorGrid.FineTuning.Locking
import TensorGrid.FineTuning.Model
import TensorGrid.FineTuning.Records
import TensorGrid.FineTuning.Status
import TensorGrid.FineTuning.Trainers
import TensorGrid.Lib.Binary32
import TensorGrid.Lib.Binary64
import TensorGrid.Lib.BinaryFormat
import TensorGrid.Lib.Bytes
import TensorGrid.Lib.CeilDiv
import TensorGrid.Lib.Chunks
import TensorGrid.Lib.Components
import TensorGrid.Lib.Deadlock
import TensorGrid.Lib.Duplex
import TensorGrid.Lib.FileSystem
import TensorGrid.Lib.Grammar
import TensorGrid.Lib.HashMap
import TensorGrid.Lib.Hex
import TensorGrid.Lib.Json
import TensorGrid.Lib.JsonStructs
import TensorGrid.Lib.Linearization
import TensorGrid.Lib.Lts
import TensorGrid.Lib.Memory
import TensorGrid.Lib.Outcome
import TensorGrid.Lib.Overflow
import TensorGrid.Lib.Pairs
import TensorGrid.Lib.Pieces
import TensorGrid.Lib.Reader
import TensorGrid.Lib.RecursiveReader
import TensorGrid.Lib.RwLock
import TensorGrid.Lib.Shares
import TensorGrid.Lib.Signature
import TensorGrid.Lib.Simulation
import TensorGrid.Lib.Strings
import TensorGrid.ModelFormat.Delimited
import TensorGrid.ModelFormat.Grammar
import TensorGrid.ModelFormat.Layout
import TensorGrid.ModelFormat.Model
import TensorGrid.ModelFormat.Recursion
import TensorGrid.ModelFormat.RoundTrip
import TensorGrid.ModelFormat.Serialization
import TensorGrid.ModelFormat.Size
import TensorGrid.ModelFormat.Unlimited
import TensorGrid.ModelRegistry.Contents
import TensorGrid.ModelRegistry.Directories
import TensorGrid.ModelRegistry.Disk
import TensorGrid.ModelRegistry.Layout
import TensorGrid.ModelRegistry.Model
import TensorGrid.ModelRegistry.Paths
import TensorGrid.ModelRegistry.Reregistration
import TensorGrid.NodeAgent.Deployment
import TensorGrid.NodeAgent.GivingUp
import TensorGrid.NodeAgent.Identity
import TensorGrid.NodeAgent.Model
import TensorGrid.NodeAgent.Removal
import TensorGrid.NodeAgent.Wire
import TensorGrid.NodeAgent.WireDeployment
import TensorGrid.PipelineExecutor.Contexts
import TensorGrid.PipelineExecutor.Generation
import TensorGrid.PipelineExecutor.Independence
import TensorGrid.PipelineExecutor.Model
import TensorGrid.PipelineExecutor.Sessions
import TensorGrid.PipelineExecutor.Stages
import TensorGrid.Planner.Averages
import TensorGrid.Planner.Balance
import TensorGrid.Planner.Capacity
import TensorGrid.Planner.Hybrid
import TensorGrid.Planner.KvCache
import TensorGrid.Planner.Model
import TensorGrid.Planner.Partition
import TensorGrid.Planner.Weights
import TensorGrid.Quic.Framing
import TensorGrid.Quic.Receiving
import TensorGrid.Scheduler.Atomicity
import TensorGrid.Scheduler.Capacity
import TensorGrid.Scheduler.Concurrent
import TensorGrid.Scheduler.Conservation
import TensorGrid.Scheduler.Ledger
import TensorGrid.Scheduler.Model
import TensorGrid.Scheduler.Release
import TensorGrid.Scheduler.Stats
import TensorGrid.SecurePairing.Binding
import TensorGrid.SecurePairing.Certificates
import TensorGrid.SecurePairing.Cleanup
import TensorGrid.SecurePairing.Completion
import TensorGrid.SecurePairing.Model
import TensorGrid.SecurePairing.Signing
import TensorGrid.SecurePairing.SingleUse
import TensorGrid.SecurePairing.Verification
import TensorGrid.Tcp.Connection
import TensorGrid.Tcp.Counting
import TensorGrid.Tcp.Fields
import TensorGrid.Tcp.Header
import TensorGrid.Tcp.Receiving
import TensorGrid.TensorDirectory.Deadlock
import TensorGrid.TensorDirectory.Entries
import TensorGrid.TensorDirectory.Eviction
import TensorGrid.TensorDirectory.Guards
import TensorGrid.TensorDirectory.Independence
import TensorGrid.TensorDirectory.Index
import TensorGrid.TensorDirectory.Linearizability
import TensorGrid.TensorDirectory.Locking
import TensorGrid.TensorDirectory.Model
import TensorGrid.TensorDirectory.Placements
import TensorGrid.TensorDirectory.Replication
import TensorGrid.TensorDirectory.Replies
import TensorGrid.TensorDirectory.Transfers
import TensorGrid.TensorDirectory.Versions
import TensorGrid.Topology.Profiler
import TensorGrid.UuidText
