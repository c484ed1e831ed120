import NostrLn.Client.Arrival
import NostrLn.Client.Calls
import NostrLn.Client.Commands
import NostrLn.Client.Ending
import NostrLn.Client.Feed
import NostrLn.Client.Link
import NostrLn.Client.Listener
import NostrLn.Client.NodeId
import NostrLn.Client.Pending
import NostrLn.Client.Response
import NostrLn.Client.Rpc
import NostrLn.Client.Stream
import NostrLn.Client.Subscribe
import NostrLn.Client.WalletStream
import NostrLn.Grant.Basic
import NostrLn.Grant.Order
import NostrLn.Grant.Reach
import NostrLn.Grant.Store
import NostrLn.Lib.Encode
import NostrLn.Lib.ExactBucket
import NostrLn.Lib.HashMap
import NostrLn.Lib.Json
import NostrLn.Lib.JsonMap
import NostrLn.Lib.JsonStruct
import NostrLn.Lib.JsonValue
import NostrLn.Lib.Newest
import NostrLn.Lib.Purge
import NostrLn.Lib.Serde
import NostrLn.Lib.Shape
import NostrLn.Lib.Text
import NostrLn.Lib.TokenBucket
import NostrLn.Lib.Utf8
import NostrLn.Limit
import NostrLn.Limit.Tracking
import NostrLn.Nnc
import NostrLn.Nostr
import NostrLn.Nwc
import NostrLn.Profile
import NostrLn.Profile.Text
import NostrLn.Sdk
import NostrLn.Service.Accounting
import NostrLn.Service.Answer
import NostrLn.Service.Authority
import NostrLn.Service.Budget
import NostrLn.Service.Clock
import NostrLn.Service.Converge
import NostrLn.Service.Execution
import NostrLn.Service.Forgery
import NostrLn.Service.Handler
import NostrLn.Service.Info
import NostrLn.Service.Isolation
import NostrLn.Service.Mediation
import NostrLn.Service.Names
import NostrLn.Service.Notifier
import NostrLn.Service.Pipeline
import NostrLn.Service.Progress
import NostrLn.Service.Recipients
import NostrLn.Service.Reconnect
import NostrLn.Service.Refresh
import NostrLn.Service.Registry
import NostrLn.Service.Republish
import NostrLn.Service.Revocation
import NostrLn.Service.Rules
import NostrLn.Service.Seen
import NostrLn.Service.Startup
import NostrLn.Service.Transport
import NostrLn.Service.Turns
import NostrLn.Service.Usage
import NostrLn.Service.Validation
import NostrLn.Service.World
import NostrLn.Subscription.Basic
import NostrLn.Subscription.Replay
import NostrLn.Uri.Basic
import NostrLn.Uri.Percent
import NostrLn.Wire.Envelope
import NostrLn.Wire.Notice
import NostrLn.Wire.Profile
import NostrLn.Wire.Typed
