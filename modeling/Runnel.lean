import Runnel.Cluster.Preview
import Runnel.Cluster.KeyOrder
import Runnel.Cluster.Progress
import Runnel.Cluster.PreviewScan
import Runnel.Cluster.PreviewSpec
import Runnel.Cluster.TransitionOnly
import Runnel.Cluster.PreviewCompare
import Runnel.Cluster.BatchProgress
import Runnel.Foundation.FaultyFile
import Runnel.Local.Record
import Runnel.Local.RecordSpec
import Runnel.Local.StreamLog
import Runnel.Local.LogLayout
import Runnel.Local.StreamLogSpec
import Runnel.Local.Recovery
import Runnel.Foundation.Codec
import Runnel.Foundation.FileSystem
import Runnel.Store.Types
import Runnel.Store.Journal
import Runnel.Store.Open
import Runnel.Store.Process
import Runnel.Store.SnapshotWork
import Runnel.Store.SnapshotRuns
import Runnel.Cluster.Publish
import Runnel.Cluster.NoLoss
import Runnel.Foundation.Text
import Runnel.Cluster.Fencing
import Runnel.Local.Publish
import Runnel.Local.Durability
import Runnel.Foundation.Json
import Runnel.Foundation.Fallible
import Runnel.Local.ConsumerState
import Runnel.Local.ConsumerJournal
import Runnel.Local.ConsumerJournalSpec
import Runnel.Local.ConsumerStateText
import Runnel.Local.JournalAtomicity
import Runnel.Local.DeliveryState
import Runnel.Local.Broker
import Runnel.Cluster.Monotone
import Runnel.Cluster.PreviewExact
import Runnel.Cluster.PollLimit
import Runnel.Cluster.Routing
import Runnel.Store.Validity
import Runnel.Local.Reads
import Runnel.Foundation.Protobuf
import Runnel.Protocol.Reply
import Runnel.Protocol.BatchSize
import Runnel.Local.TornTail
import Runnel.Foundation.Path
import Runnel.Local.BatchPublish
import Runnel.Local.ConsumerPaths
import Runnel.Local.RecordReading
import Runnel.Local.Startup
import Runnel.Local.Corruption
import Runnel.Store.SnapshotOrder
import Runnel.Foundation.FileTree
import Runnel.Group.Storage
import Runnel.Group.StorageSpec
import Runnel.Group.CreationCrash
import Runnel.Group.StreamCreation
import Runnel.Group.Convergence
import Runnel.Foundation.Rotation
import Runnel.Group.ReplicationProgress
import Runnel.Local.StorageLane
import Runnel.Local.LaneOrder
import Runnel.Local.LaneRuns
import Runnel.Foundation.WireFormat
import Runnel.Protocol.ClientFrame
import Runnel.Protocol.ScalarSize
import Runnel.Protocol.ReplyCodec
import Runnel.Protocol.ReplyRoundTrip
import Runnel.Server.BatchWrite
import Runnel.Server.BatchAdmission
import Runnel.Client.BatchReply
import Runnel.RaftLog.Segment
import Runnel.RaftLog.SegmentSpec
import Runnel.Foundation.Locks
import Runnel.Local.Locking
import Runnel.Local.LockOrder
import Runnel.Foundation.Base64
import Runnel.Network.ForwardedBatch
import Runnel.Local.DeliveryIndex
import Runnel.Local.CandidateSearch
import Runnel.RaftLog.SegmentDamage
