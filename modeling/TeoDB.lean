import TeoDB.Api.Authorization
import TeoDB.Api.DropEffects
import TeoDB.Api.FlightIngest
import TeoDB.Api.JsonRows
import TeoDB.Api.PurgeRace
import TeoDB.Catalog.Adapter.AppendErrors
import TeoDB.Catalog.Adapter.Replace
import TeoDB.Catalog.Checkpoints
import TeoDB.Catalog.Replacement
import TeoDB.Distributed.Codec
import TeoDB.Distributed.PropertySwap
import TeoDB.Distributed.QueryStatus
import TeoDB.Distributed.Selection
import TeoDB.Distributed.Sweeper.Intents
import TeoDB.Ingest.Flush.FlushOutput
import TeoDB.Ingest.Flush.Incarnation
import TeoDB.Ingest.Flush.Refusal
import TeoDB.Ingest.Replay.Discard
import TeoDB.Ingest.Service.Cancellation
import TeoDB.Node.CreateEviction
import TeoDB.Node.DropTombstone
import TeoDB.Query.CreatedTable
import TeoDB.Query.DeleteStream
import TeoDB.Query.DeleteTargets
import TeoDB.Query.Provider
import TeoDB.Query.ScanAgreement
import TeoDB.Server.AllowList
import TeoDB.Storage.Wal.Checkpoint
import TeoDB.Storage.Wal.FrameStream
import TeoDB.Storage.Wal.GcConcurrent
import TeoDB.Storage.Wal.GroupCommit
import TeoDB.Storage.Wal.Identity
import TeoDB.Storage.Wal.Lease
