import Picobroker.Rust.Outcome
import Picobroker.Rust.Word
import Picobroker.Rust.Cursor
import Picobroker.Rust.Runs
import Picobroker.Rust.Lists
import Picobroker.Rust.Groups
import Picobroker.Rust.Alike
import Picobroker.Protocol.Heapless
import Picobroker.Protocol.Basic
import Picobroker.Protocol.Utils
import Picobroker.Protocol.Packets.Fixed
import Picobroker.Protocol.Packets.Connect
import Picobroker.Protocol.Packets.Publish
import Picobroker.Protocol.Packets.Subscribe
import Picobroker.Protocol.Packets.Packet
import Picobroker.Protocol.Packets.Safety
import Picobroker.Topics.Wildcard
import Picobroker.Topics.Matching
import Picobroker.Topics.Registry
import Picobroker.Topics.Subscribers
import Picobroker.Topics.Relation
import Picobroker.Session.Session
import Picobroker.Session.Registry
import Picobroker.Protocol.Packets.Accepted
import Picobroker.Protocol.Packets.RoundTrip
import Picobroker.Broker.Broker
import Picobroker.Session.Map
import Picobroker.Session.Refinement
import Picobroker.Broker.Handlers
import Picobroker.Broker.Handling
import Picobroker.Broker.Draining
import Picobroker.Broker.Invariant
import Picobroker.Broker.Delivery
import Picobroker.Broker.Failures
import Picobroker.Broker.Removal
import Picobroker.Broker.Subscriptions
import Picobroker.Broker.States
import Picobroker.Protocol.Packets.Frames
import Picobroker.Protocol.Packets.Inverse
import Picobroker.Protocol.VariableLength
import Picobroker.Rust.Chunks
import Picobroker.Server.Framing
import Picobroker.Server.Reading
import Picobroker.Protocol.Packets.Buffers
import Picobroker.Server.Forwarding
import Picobroker.Protocol.Packets.Flags
import Picobroker.Topics.Literal
import Picobroker.Session.Expiry
import Picobroker.Broker.Pending
import Picobroker.Rust.Utf8
import Picobroker.Rust.Script
import Picobroker.Rust.BoundedList
import Picobroker.Protocol.Vectors
import Picobroker.Session.Equality
import Picobroker.Protocol.Strings
import Picobroker.Topics.Texts
import Picobroker.Protocol.Stored
import Picobroker.Protocol.Fields
import Picobroker.Rust.Channel
import Picobroker.Server.Ids
import Picobroker.Server.Serving
import Picobroker.Server.Cleanup
import Picobroker.Server.Tokio
import Picobroker.Server.Ownership
import Picobroker.Server.Wakeups
import Picobroker.Server.Carrying
import Picobroker.Server.Pipeline
import Picobroker.Server.Routing
import Picobroker.Server.Receiving
import Picobroker.Server.Deadlock
import Picobroker.Server.Client
import Picobroker.Server.Rp2040
import Picobroker.Server.Pool
import Picobroker.Server.Alerts
import Picobroker.Server.Cutting
import Picobroker.Server.Outgoing
import Picobroker.Server.Sending
import Picobroker.Server.Panics
import Picobroker.Server.Response
