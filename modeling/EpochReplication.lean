import EpochReplication.Lib.Machine
import EpochReplication.Lib.Buffer
import EpochReplication.Lib.Fifo
import EpochReplication.Lib.Linked
import EpochReplication.NodeList
import EpochReplication.Bytes
import EpochReplication.Transaction
import EpochReplication.Batch
import EpochReplication.Message
import EpochReplication.MessageCodec
import EpochReplication.AckAdd
import EpochReplication.BatchCodec
import EpochReplication.Log
import EpochReplication.LogRecord
import EpochReplication.LogFinishes
import EpochReplication.Replication
import EpochReplication.BatchLog
import EpochReplication.MasterInvariant
import EpochReplication.SendInvariant
import EpochReplication.SlaveInvariant
import EpochReplication.SequencersInvariant
import EpochReplication.Replicated
import EpochReplication.LogCalls
import EpochReplication.LogRoom
import EpochReplication.EpochNumbers
import EpochReplication.Storage
import EpochReplication.Scheduler
import EpochReplication.NodeControl
import EpochReplication.Lib.Replay
import EpochReplication.Replicas
import EpochReplication.Executed
import EpochReplication.Convergence
import EpochReplication.Intake
import EpochReplication.IntakeSteps
import EpochReplication.ConnectionInvariant
import EpochReplication.ThreadInvariant
import EpochReplication.RequestStream
import EpochReplication.Database
import EpochReplication.Placed
import EpochReplication.WriteStage
import EpochReplication.DatabaseInvariant
import EpochReplication.DatabaseSteps
import EpochReplication.DatabaseNodes
import EpochReplication.DatabaseReachable
import EpochReplication.Responses
import EpochReplication.LogStore
import EpochReplication.Relay
import EpochReplication.LastWriter
import EpochReplication.BatchBounds
import EpochReplication.BatchSwap
import EpochReplication.BatchMirror
import EpochReplication.StartBarrier
import EpochReplication.Conventional
import EpochReplication.Unwedged
import EpochReplication.NeverWedged
import EpochReplication.SessionReads
import EpochReplication.Lib.ReplicatedLog
import EpochReplication.Lib.Serialization
import EpochReplication.LogView
import EpochReplication.Serializable
import EpochReplication.EpochOrder
import EpochReplication.Lib.Progress
import EpochReplication.ThreadsStay
import EpochReplication.PointersFreed
import EpochReplication.Accounted
import EpochReplication.LogReplay
import EpochReplication.Answering
import EpochReplication.ReadProgress
import EpochReplication.ExactlyOnce
import EpochReplication.ClientNumbers
import EpochReplication.OnePerClient
import EpochReplication.EpochPass
import EpochReplication.Backlog
import EpochReplication.WriteProgress
import EpochReplication.Answered
import EpochReplication.AtRest
import EpochReplication.RegionRecovery
import EpochReplication.SequencerJoins
import EpochReplication.ClientTxnum
import EpochReplication.Lib.Reads
import EpochReplication.MasterHeap
import EpochReplication.HeapRefines
import EpochReplication.HeapExecutes
import EpochReplication.HeapSafe
