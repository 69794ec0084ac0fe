import FlightPulse.Lib.Run
import FlightPulse.Lib.Dict
import FlightPulse.Lib.Rotation
import FlightPulse.Lib.Python
import FlightPulse.Lib.Postgres
import FlightPulse.Lib.Jsonb
import FlightPulse.Lib.Strings
import FlightPulse.Lib.Url
import FlightPulse.Lib.JsonRender
import FlightPulse.Lib.Psycopg
import FlightPulse.Lib.UniqueTable
import FlightPulse.Lib.StableSort
import FlightPulse.Lib.Transactions
import FlightPulse.Lib.LockOrder
import FlightPulse.Lib.Rounding
import FlightPulse.Lib.OrderStatistic
import FlightPulse.LoadBalancer.Metrics
import FlightPulse.LoadBalancer.Snapshot
import FlightPulse.LoadBalancer.Health
import FlightPulse.LoadBalancer.History
import FlightPulse.LoadBalancer.Recovery
import FlightPulse.LoadBalancer.Router
import FlightPulse.LoadBalancer.Server
import FlightPulse.LoadBalancer.Retry
import FlightPulse.LoadBalancer.Eviction
import FlightPulse.LoadBalancer.Accounting
import FlightPulse.LoadBalancer.EventLoop
import FlightPulse.LoadBalancer.Transparency
import FlightPulse.Lib.Pydantic
import FlightPulse.Ingestion.Schemas
import FlightPulse.Ingestion.Routes
import FlightPulse.Ingestion.PoolLock
import FlightPulse.Ingestion.Acknowledgement
import FlightPulse.Ingestion.Idempotency
import FlightPulse.Ingestion.BadInput
import FlightPulse.Worker.Persistence
import FlightPulse.Worker.Processor
import FlightPulse.Worker.Queue
import FlightPulse.Worker.Admissible
import FlightPulse.Worker.Delivery
import FlightPulse.Worker.Payload
import FlightPulse.Worker.ChunkedInsert
import FlightPulse.Worker.Deadlock
import FlightPulse.Collector.Normalizer
import FlightPulse.Collector.OpenSkyClient
import FlightPulse.Collector.Rejection
import FlightPulse.Collector.Backoff
import FlightPulse.Collector.Producer
import FlightPulse.Replay.Fixture
import FlightPulse.Replay.Player
import FlightPulse.Worker.Batching
import FlightPulse.Replay.Fresh
import FlightPulse.Replay.WorkerFailure
import FlightPulse.Lib.Sql
import FlightPulse.Lib.Casts
import FlightPulse.Analytics.Staging
import FlightPulse.Analytics.NullSafety
import FlightPulse.Analytics.Decoding
import FlightPulse.Analytics.Activity
import FlightPulse.Analytics.Marts
import FlightPulse.Analytics.Conservation
import FlightPulse.Analytics.Observations
import FlightPulse.Analytics.Grain
import FlightPulse.Analytics.Defects
import FlightPulse.Analytics.Rebuild
import FlightPulse.Replay.Report
import FlightPulse.Ingestion.Handover
import FlightPulse.Pipeline
import FlightPulse.LoadBalancer.Trace
import FlightPulse.LoadBalancer.Failover
import FlightPulse.Replay.Restore
import FlightPulse.Lib.DataTest
import FlightPulse.Analytics.DataTests
import FlightPulse.Replay.TestReport
import FlightPulse.Reporting
import FlightPulse.Ingestion.Outage
import FlightPulse.Replay.RedisFailure
import FlightPulse.Replay.ApiFailure
