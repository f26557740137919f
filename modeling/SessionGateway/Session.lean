import SessionGateway.Lifecycle
import SessionGateway.Dispatch
/-!
# Sessions

A session is one accepted connection from its upgrade to its end. It opens its connection, reacts to
what the client sends in the order of arrival, and takes its connection out of the directory before
it ends. A client's close, a transport error and a request to close end it.
-/

namespace SessionGateway

/-- What a session reads from its client. -/
inductive Inbound where
  | text (s : String)
  | binary (payload : List UInt8)
  | ping (payload : List UInt8)
  | pong (payload : List UInt8)
  | close
  | failure (error : String)
  deriving DecidableEq, Repr, Inhabited

/-- Whether reading it shows that the client is alive. -/
def Inbound.isSignOfLife : Inbound → Bool
  | .failure _ => false
  | _ => true

structure Session where
  id : ConnectionId
  /-- The number of its connection. -/
  number : Nat
  attributes : Attributes
  deriving Inhabited

namespace Session

open Node (measure)

def transport (s : Session) : Transport := ⟨s.number, some (s.id, s.number), s.attributes⟩

/-- Opens the connection. -/
def enter (s : Session) (l : Lifecycle) : NodeProgram ConnectionState := do
  measure .opened 1
  measure .connected 1
  l.onOpen s.transport

/-- Reacts to what was read; tells whether the session reads on. -/
def react (s : Session) (d : Dispatch) : Inbound → NodeProgram Bool
  | .text text => do
    let _ ← d.onText s.id s.attributes text
    return true
  | .binary payload => do
    let _ ← d.onBinary s.id s.attributes payload
    return true
  | .ping _ => return true
  | .pong _ => do
    Dispatch.onPong s.id
    return true
  | .close => return false
  | .failure error => do
    let _ ← Lifecycle.onTransportError s.transport error
    return false

/-- Takes the connection out of the directory and asks it to close. -/
def leave (s : Session) : NodeProgram Unit := do
  let _ ← Lifecycle.onClose s.id
  Lifecycle.closeQuietly s.transport

/-- Takes note of the end, with what the connection came to and the texts that were refused. -/
def farewell (state : ConnectionState) (dropped : Nat) : NodeProgram Unit := do
  Node.log (Log.info "client disconnected" [("state", state.label), ("dropped", toString dropped)])
  measure .ended 1
  measure .connected (-1)
  measure .lifetime 1

end Session

end SessionGateway
