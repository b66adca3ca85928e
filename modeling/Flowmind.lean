import Flowmind.Graph.Loading
import Flowmind.Graph.TryBlocks
import Flowmind.System.LeaseRecovery
import Flowmind.System.Fencing
import Flowmind.Context.References
import Flowmind.Routing.Steering
import Flowmind.TestRuns.Snapshot
import Flowmind.TestRuns.Isolation
import Flowmind.Nesting.Timeout
import Flowmind.Nesting.ReturnValue
import Flowmind.Expression.Cache
import Flowmind.Expression.Names
import Flowmind.Expression.Validator
import Flowmind.Handlers.ResolvedConfig
import Flowmind.Publishing.ActiveVersion
import Flowmind.InternalEvents.Finished
import Flowmind.InternalEvents.Cascades
import Flowmind.DataStores.History
import Flowmind.Connections.Lifecycle
import Flowmind.TestRuns.Outcomes
import Flowmind.Retention.Pass
import Flowmind.Transform.Selection
import Flowmind.Transform.Merge
import Flowmind.Transform.Limits
import Flowmind.Webhooks.Payload
import Flowmind.Drafts.History
import Flowmind.Http.SafeHttpClient
import Flowmind.Webhooks.RateLimit
