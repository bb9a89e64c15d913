import CsmsPlatform.Framework.Decimal
import CsmsPlatform.Framework.Text
import CsmsPlatform.Framework.Duration
import CsmsPlatform.Framework.Net
import CsmsPlatform.Framework.History
import CsmsPlatform.Framework.FencedLease
import CsmsPlatform.Framework.Quota
import CsmsPlatform.Framework.Ledger
import CsmsPlatform.Framework.Program
import CsmsPlatform.Framework.Counters
import CsmsPlatform.Framework.Kubernetes
import CsmsPlatform.Framework.Rfc3339
import CsmsPlatform.Framework.Json.Token
import CsmsPlatform.Framework.Json.Value
import CsmsPlatform.Framework.Redis.Keyspace
import CsmsPlatform.Framework.Redis.Commands
import CsmsPlatform.Framework.Redis.Lua
import CsmsPlatform.Framework.Redis.Streams
import CsmsPlatform.Framework.Redis.Accounting
import CsmsPlatform.Framework.Redis.Backlog
import CsmsPlatform.Framework.Redis.Footprint
import CsmsPlatform.Framework.Redis.Expiry
import CsmsPlatform.Registry.Store
import CsmsPlatform.Registry.Stored
import CsmsPlatform.Registry.Refinement
import CsmsPlatform.Registry.Mutex
import CsmsPlatform.Registry.Availability
import CsmsPlatform.Registry.Lookup
import CsmsPlatform.Registry.Memory
import CsmsPlatform.Registry.Agreement
import CsmsPlatform.Ownership.Manager
import CsmsPlatform.Ownership.Invariant
import CsmsPlatform.Ownership.Executor
import CsmsPlatform.Ownership.Disconnect
import CsmsPlatform.Ownership.Stale
import CsmsPlatform.Ownership.Fencing
import CsmsPlatform.CommandBus.Keys
import CsmsPlatform.CommandBus.Codec
import CsmsPlatform.CommandBus.Grammar
import CsmsPlatform.CommandBus.Result
import CsmsPlatform.CommandBus.Handler
import CsmsPlatform.CommandBus.Bus
import CsmsPlatform.CommandBus.Space
import CsmsPlatform.CommandBus.System
import CsmsPlatform.CommandBus.Steps
import CsmsPlatform.CommandBus.Delivery
import CsmsPlatform.CommandBus.Genuine
import CsmsPlatform.CommandBus.Reexecution
import CsmsPlatform.CommandBus.Consumer
import CsmsPlatform.CommandBus.Poison
import CsmsPlatform.CommandBus.Drain
import CsmsPlatform.CommandBus.Answer
import CsmsPlatform.CommandBus.Final
import CsmsPlatform.CommandBus.Payload
import CsmsPlatform.CommandBus.Confirmed
import CsmsPlatform.Runtime.RateLimit
import CsmsPlatform.Runtime.Config
import CsmsPlatform.Runtime.LeaseTiming
import CsmsPlatform.Runtime.CommandApi
import CsmsPlatform.Runtime.CommandRequest
import CsmsPlatform.Runtime.Metrics
import CsmsPlatform.Runtime.SharedRedis
import CsmsPlatform.Runtime.RedisExpiry
import CsmsPlatform.Runtime.TrustedProxy
import CsmsPlatform.Runtime.Server
import CsmsPlatform.Runtime.Readiness
import CsmsPlatform.Runtime.Lifecycle
import CsmsPlatform.StationStore.Repository
import CsmsPlatform.StationStore.MySql
import CsmsPlatform.StationStore.Projection
import CsmsPlatform.StationStore.Agreement
import CsmsPlatform.StationStore.Handlers
import CsmsPlatform.Controller.Types
import CsmsPlatform.Controller.Reconcile
import CsmsPlatform.Controller.Convergence
import CsmsPlatform.Controller.Stages
import CsmsPlatform.Controller.Observed
import CsmsPlatform.Controller.Deletion
import CsmsPlatform.Controller.Isolation
import CsmsPlatform.Controller.Pod
import CsmsPlatform.Controller.Routing
