import ShellSettings.Disk.FileTree
import ShellSettings.Host.Envelope

/-!
# Transports

How a client reaches its host: a request with its response, a save handed over
without waiting, and the stream of messages. A transport that hands out a
message has one less to hand out, so draining it ends.
-/

namespace ShellSettings

inductive TransportError where
  | io (e : IoError)
  | serialization (e : ReadError)
  | host (e : HostError)
  | protocol (message : String)

def TransportError.message : TransportError → String
  | .io e => "I/O error: " ++ e.message
  | .serialization e => "JSON serialization error: " ++ e.message
  | .host e => "Host error: " ++ e.display
  | .protocol message => "Protocol error: " ++ message

/-- A host as its client sees it; `η` is its state. -/
class Transport (η : Type) where
  -- A request and its response.
  request : η → HostRequest → Except TransportError HostResponse × η
  -- Hands a request over; its result comes as a message.
  submit : η → HostRequest → Except TransportError Unit × η
  -- The next message, if there is one.
  receive : η → Except TransportError (Option HostMessage) × η
  -- At most how many messages can be received if nothing else happens.
  backlog : η → Nat
  backlog_receive : ∀ (h h' : η) (m : HostMessage),
    receive h = (.ok (some m), h') → backlog h' < backlog h

end ShellSettings
