import StreamDockSdk.Events

namespace StreamDockSdk.Messaging

/-- An owned event and its retained size for one queue-to-scheduler transfer. -/
structure SizedEvent where
  event : StreamDockEvent
  size : Nat
deriving Repr, Inhabited

end StreamDockSdk.Messaging
