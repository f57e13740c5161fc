import StreamDockSdk.Runtime.EventPump.Order
import StreamDockSdk.Runtime.EventPump.Acknowledgement.ExactlyOnce
import StreamDockSdk.Runtime.KeyedScheduler.Completion
import StreamDockSdk.Runtime.KeyedScheduler.Budget
import StreamDockSdk.Runtime.KeyedScheduler.Equivalence
import StreamDockSdk.Runtime.GlobalSettings.Serializable
import StreamDockSdk.Action.Settings.Ownership
import StreamDockSdk.Completion.Ownership
import StreamDockSdk.Messaging.Inbound.Refusal
import StreamDockSdk.Messaging.Outbound.Refinement
import StreamDockSdk.Messaging.Outbound.Watcher
import StreamDockSdk.Messaging.Outbound.Discard
import StreamDockSdk.Protocol.Encoder
import StreamDockSdk.Boundary.Pipeline.Wakeup
import StreamDockSdk.Boundary.Pipeline.Rejection
import StreamDockSdk.Boundary.Composition.Termination
import StreamDockSdk.Runtime.Application.Withholding
import StreamDockSdk.Runtime.Application.Ending
import StreamDockSdk.PropertyInspector.Isolation
import StreamDockSdk.Json.Clone
import StreamDockSdk.PropertyInspector.WireSize
import StreamDockSdk.Registration.Schema
import StreamDockSdk.Protocol.Independence
import StreamDockSdk.Transport.RetainedSize
import StreamDockSdk.Runtime.Actions.Lifecycle
import StreamDockSdk.Runtime.Session.Initialization
import StreamDockSdk.Runtime.Shutdown.Completion
import StreamDockSdk.Transport.Queues.Discard
import StreamDockSdk.Boundary.Pipeline.Counting
import StreamDockSdk.Logging.Delivery
import StreamDockSdk.PluginValidation.Coverage
import StreamDockSdk.Codecs.FastPaths
import StreamDockSdk.Automaton.Monitor
import StreamDockSdk.Json.Binary64
import StreamDockSdk.Json.Turns
import StreamDockSdk.Protocol.Diagnostics
import StreamDockSdk.Runtime.KeyedScheduler.Settling
import StreamDockSdk.Json.Decoded
import StreamDockSdk.Protocol.Decoder
