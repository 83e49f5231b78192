import Chronos.Common.Basic
import Chronos.Consensus.Agreement
import Chronos.Consensus.History
import Chronos.Consensus.Machine
import Chronos.Consensus.Steps
import Chronos.Consensus.Probe
import Chronos.Raft.Types
import Chronos.Raft.Membership
import Chronos.Raft.Node
import Chronos.Raft.Receive
import Chronos.Raft.Operations
import Chronos.Raft.Effect
import Chronos.Raft.Inversion
import Chronos.Raft.Log
import Chronos.Raft.Derive
import Chronos.Raft.WellFormed
import Chronos.Raft.Restart
import Chronos.Raft.Structure
import Chronos.Raft.Durability
import Chronos.Raft.CommittedPrefix
import Chronos.Raft.Configuration
import Chronos.Raft.Represents
import Chronos.Raft.Cluster
import Chronos.Raft.Refinement
import Chronos.Raft.Simulation
import Chronos.Raft.Replication
import Chronos.Raft.CallSimulation
import Chronos.Raft.Safety
import Chronos.Raft.FixedVoters
import Chronos.Raft.Progress
import Chronos.Raft.FixedSafety
import Chronos.Raft.ReadBarrier
import Chronos.Ingest.KeysOverLife
import Chronos.Ingest.FlushQueue
import Chronos.Ingest.RetryDirectory
import Chronos.Ingest.DeduplicationCheck
import Chronos.Query.RowRank
import Chronos.Query.AsofJoin
import Chronos.Query.Comparison
import Chronos.Query.LatestBy
import Chronos.Query.EventTimeLowering
import Chronos.Manifest.CompactionPlans
import Chronos.Common.Runs
import Chronos.Query.TemporalParts
import Chronos.Metadata.Consistency
import Chronos.Rebalancing.MovementRun
import Chronos.Raft.MultiplexedLog
import Chronos.Raft.TransportStream
import Chronos.Network.ConnectionBuffersRun
import Chronos.Live.ResumeTokenFormat
import Chronos.Live.SubscriptionRetentionRun
import Chronos.Live.SubscriptionRun
import Chronos.Tiering.ColdManifestFormat
import Chronos.Sort.Winners
import Chronos.Schema.History
import Chronos.Columnar.DecimalDomain
