import SessionGateway.Cache
import SessionGateway.Directory
import SessionGateway.Meter
import SessionGateway.Processor
/-!
# Node programs

What a program on a node may ask for: the shared cache, the identity service, the two registration
locks, the node's directory, its transports, its meters and its processors. A request is one
indivisible step, so the places where programs may interleave are their requests.
-/

namespace SessionGateway.Node

/-- How a processor's turn ended. -/
inductive Outcome where
  | completed (r : Except ProcessorError Unit)
  /-- It took longer than it may. -/
  | timedOut

structure Turn where
  outcome : Outcome
  elapsed : Duration

inductive Request where
  | cache (r : Cache.Request)
  | identify (credential : String)
  /-- Waits for the registration lock of a kind, no longer than the patience, if any; tells whether
  the lock was had. -/
  | acquire (kind : ConnectionKind) (patience : Option Duration)
  | release (kind : ConnectionKind)
  | directory
  /-- Registers a user; tells whether a session was replaced. -/
  | addUser (s : UserSession)
  /-- Registers a group connection; tells whether a session was replaced. -/
  | addGroup (s : GroupSession)
  | withdrawUser (id : ConnectionId) (t : Transport)
  | withdrawGroup (id : ConnectionId) (t : Transport)
  | remove (id : ConnectionId)
  | close (t : Transport)
  | measure (m : Meter) (n : Int)
  /-- The processors registered now. -/
  | processors
  /-- Hands a frame to a processor for no longer than a limit. -/
  | turn (p : Processor) (c : FrameContext) (f : Frame) (limit : Duration)

abbrev Request.Answer : Request → Type
  | .cache r => r.Answer
  | .identify _ => Except Identity.Error Principal
  | .acquire .. => Bool
  | .release _ => Unit
  | .directory => Directory
  | .addUser _ => Bool
  | .addGroup _ => Bool
  | .withdrawUser .. => Bool
  | .withdrawGroup .. => Bool
  | .remove _ => Option ConnectionKind
  | .close _ => Except TransportError Unit
  | .measure .. => Unit
  | .processors => List Processor
  | .turn .. => Turn

abbrev interface : Interface := ⟨Request, Request.Answer⟩

end Node

abbrev NodeProgram (α : Type) : Type := Program Node.interface α

namespace Node

def ask (r : Request) : NodeProgram r.Answer := Program.request (I := interface) r

def log (e : Log.Event) : NodeProgram Unit := ask (.cache (.log e))

def measure (m : Meter) (n : Int) : NodeProgram Unit := ask (.measure m n)

/-- A cache operation on a node. -/
def cached {α : Type} (op : Cache.Operation α) : NodeProgram (Except CacheError α) :=
  Program.expand (I := Cache.interface) (fun r => ask (.cache r)) op.run

/-- Runs a program while the lock of a kind is held; none if the lock was not had in time. -/
def holding {α : Type} (kind : ConnectionKind) (patience : Option Duration)
    (body : NodeProgram α) : NodeProgram (Option α) := do
  if ← ask (.acquire kind patience) then
    let a ← body
    ask (.release kind)
    return some a
  else
    return none

end SessionGateway.Node
