import PublisherSubscriber.Library.Heap
import PublisherSubscriber.Library.AssociativeMap
import PublisherSubscriber.Library.Slots
import PublisherSubscriber.Library.History
import PublisherSubscriber.Library.Separated
import PublisherSubscriber.Library.Braces
import PublisherSubscriber.Library.Transition
import PublisherSubscriber.Library.Observation
import PublisherSubscriber.Library.Components
import PublisherSubscriber.Shared.Text
import PublisherSubscriber.Shared.Numerals
import PublisherSubscriber.Shared.Json
import PublisherSubscriber.Shared.Writer
import PublisherSubscriber.Shared.Reader
import PublisherSubscriber.Shared.Identifiers
import PublisherSubscriber.Shared.Arguments
import PublisherSubscriber.Shared.Command
import PublisherSubscriber.Shared.Response
import PublisherSubscriber.Shared.Message
import PublisherSubscriber.Shared.ArrayString
import PublisherSubscriber.Shared.Decoding
import PublisherSubscriber.Shared.Format
import PublisherSubscriber.Shared.Interface
import PublisherSubscriber.Shared.RoundTrip
import PublisherSubscriber.Shared.Truncation
import PublisherSubscriber.Shared.Tokens
import PublisherSubscriber.Shared.Strings
import PublisherSubscriber.Shared.Parser
import PublisherSubscriber.Shared.Nesting
import PublisherSubscriber.Shared.Documents
import PublisherSubscriber.Shared.Written
import PublisherSubscriber.Shared.Canonical
import PublisherSubscriber.Shared.Closing
import PublisherSubscriber.Shared.Printable
import PublisherSubscriber.Shared.Vendored
import PublisherSubscriber.Client.Operations
import PublisherSubscriber.Client.Display
import PublisherSubscriber.Client.Exchange
import PublisherSubscriber.Client.Settings
import PublisherSubscriber.Client.Main
import PublisherSubscriber.Client.Options
import PublisherSubscriber.Server.World
import PublisherSubscriber.Server.Objects
import PublisherSubscriber.Server.Handlers
import PublisherSubscriber.Server.Process
import PublisherSubscriber.Server.Threads
import PublisherSubscriber.Server.Main
import PublisherSubscriber.Server.Observed
import PublisherSubscriber.Broker.Broker
import PublisherSubscriber.Broker.Invariant
import PublisherSubscriber.Broker.Abstraction
import PublisherSubscriber.Broker.Pointers
import PublisherSubscriber.Broker.Simulation
import PublisherSubscriber.Broker.Refinement
import PublisherSubscriber.Broker.Service
import PublisherSubscriber.Server.ClientThreads
import PublisherSubscriber.Broker.Membership
import PublisherSubscriber.Broker.Changes
import PublisherSubscriber.Broker.Contents
import PublisherSubscriber.Broker.Endpoints
import PublisherSubscriber.Broker.Replies
import PublisherSubscriber.Broker.Sockets
import PublisherSubscriber.Broker.Provenance
import PublisherSubscriber.Broker.TopicContents
import PublisherSubscriber.Client.Requests
import PublisherSubscriber.Client.Network
import PublisherSubscriber.Client.Deployment
import PublisherSubscriber.Client.Calls
import PublisherSubscriber.Client.Session
import PublisherSubscriber.Guarantees.Subscriptions
import PublisherSubscriber.Guarantees.Representation
import PublisherSubscriber.Guarantees.Safety
import PublisherSubscriber.Guarantees.Delivery
import PublisherSubscriber.Guarantees.Schedule
import PublisherSubscriber.Guarantees.Datagrams
import PublisherSubscriber.Guarantees.Release
import PublisherSubscriber.Guarantees.ErrorReplies
import PublisherSubscriber.Guarantees.RemoteCall
import PublisherSubscriber.Guarantees.RequestFormat
import PublisherSubscriber.Guarantees.ReplyStatus
import PublisherSubscriber.Guarantees.TopicList
import PublisherSubscriber.Guarantees.TopicStatus
import PublisherSubscriber.Guarantees.PublishLimit
import PublisherSubscriber.Guarantees.ReplyLimit
import PublisherSubscriber.Guarantees.Truncation
import PublisherSubscriber.Guarantees.Segments
import PublisherSubscriber.Guarantees.Departure
import PublisherSubscriber.Guarantees.Descriptors
import PublisherSubscriber.Guarantees.Destinations
import PublisherSubscriber.Guarantees.MessageThread
import PublisherSubscriber.Guarantees.ReplyHandling
import PublisherSubscriber.Guarantees.CommandLine
import PublisherSubscriber.Guarantees.MessageRoundTrip
import PublisherSubscriber.Guarantees.ListNotation
import PublisherSubscriber.Guarantees.Shutdown
import PublisherSubscriber.Guarantees.DecodingHistory
import PublisherSubscriber.Guarantees.ServerAddress
import PublisherSubscriber.Guarantees.Deployment
import PublisherSubscriber.Guarantees.Arrival
import PublisherSubscriber.Guarantees.Reader
import PublisherSubscriber.Guarantees.Linearization
import PublisherSubscriber.Guarantees.Provenance
import PublisherSubscriber.Guarantees.NetworkRuns
import PublisherSubscriber.Guarantees.Independence
import PublisherSubscriber.Guarantees.ServerCommandLine
import PublisherSubscriber.Guarantees.Transmission
import PublisherSubscriber.Guarantees.MethodCalls
