import Ironclaw.Aggregate.Tumbling
import Ironclaw.Aggregator.Retries
import Ironclaw.App.Counters
import Ironclaw.App.ExactlyOnce
import Ironclaw.App.Fallback
import Ironclaw.App.Lossless
import Ironclaw.App.Replay
import Ironclaw.Bus.Order
import Ironclaw.Commands.Service
import Ironclaw.Disk.Representation
import Ironclaw.EBPF.Accounting
import Ironclaw.Ingest.Edge
import Ironclaw.Kafka.Group
import Ironclaw.MCPServer.Isolation
import Ironclaw.Metrics.Samples
import Ironclaw.Pipeline.Overflow
import Ironclaw.PostgresStore.Retention
import Ironclaw.RedisStore.Abort
import Ironclaw.RedisStore.Agreement
import Ironclaw.Store.Subscribers
import Ironclaw.Transport.Refusal
import Ironclaw.Transport.Reporting
import Ironclaw.Transport.Resend
import Ironclaw.Transport.Wraparound
import Ironclaw.Wire.RoundTrip
