import KalpakDb.StepRun
import KalpakDb.MachineWord
import KalpakDb.FiniteMap
import KalpakDb.Identifiers
import KalpakDb.MetadataTypes
import KalpakDb.Leases
import KalpakDb.MetadataApply
import KalpakDb.MetadataTransition
import KalpakDb.BindingEffects
import KalpakDb.LeaseInvariant
import KalpakDb.MetadataInvariant
import KalpakDb.MetadataRun
import KalpakDb.LeaseLifecycle
import KalpakDb.LeaseDeadlines
import KalpakDb.ReferenceCounts
import KalpakDb.ReferenceFences
import KalpakDb.LeaseCommits
import KalpakDb.ByteCodec
import KalpakDb.Snapshot
import KalpakDb.SnapshotHistory
import KalpakDb.BincodeLayout
import KalpakDb.ReplicaAgreement
import KalpakDb.SnapshotAgreement
import KalpakDb.BlockStore
import KalpakDb.SegmentImage
import KalpakDb.StoreRecovery
import KalpakDb.StoreAppend
import KalpakDb.CrashDurability
import KalpakDb.Compaction
import KalpakDb.StoreRefinement
import KalpakDb.TieredStore
import KalpakDb.StoreCalls
import KalpakDb.TieredReads
import KalpakDb.CompactionIndex
import KalpakDb.TierResidency
import KalpakDb.RecordStore
import KalpakDb.RecordAppend
import KalpakDb.RecordCompaction
import KalpakDb.StoreHistory
import KalpakDb.TieredUploads
import KalpakDb.LineLog
import KalpakDb.PrefixManifest
import KalpakDb.RaftLog
import KalpakDb.RaftLogPurge
import KalpakDb.Retention
import KalpakDb.RetentionJournal
import KalpakDb.DaemonUploads
import KalpakDb.JsonValue
import KalpakDb.ReplicaAcks
import KalpakDb.DirectReads
import KalpakDb.OnlineScrub
import KalpakDb.CacheKeys
import KalpakDb.Signing
import KalpakDb.ScanSafety
import KalpakDb.RepairDurability
import KalpakDb.FileFrames
import KalpakDb.SettledStores
import KalpakDb.FailedAppends
import KalpakDb.CapturedReads
import KalpakDb.ScrubGenerations
import KalpakDb.DisjointWrites
import KalpakDb.DirectWrites
import KalpakDb.Resumable
import KalpakDb.ScrubResume
import KalpakDb.BatchFraming
import KalpakDb.BindSignatures
import KalpakDb.StreamReassembly
import KalpakDb.RepairLog
import KalpakDb.RepairLogHistory
import KalpakDb.OrderedPages
import KalpakDb.RepairSweep
import KalpakDb.SweepCoverage
import KalpakDb.PinnedAccounting
import KalpakDb.ScanRoundTrip
import KalpakDb.ControlNode
import KalpakDb.ControlRecovery
import KalpakDb.PrefixTree
import KalpakDb.Reclamation
import KalpakDb.ReplicaRequirements
import KalpakDb.BlockDownloads
