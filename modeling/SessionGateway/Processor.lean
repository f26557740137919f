import SessionGateway.Envelope
import SessionGateway.Entry
import SessionGateway.Attributes
import SessionGateway.Duration
/-!
# Processors

A processor is offered every inbound frame. What it does with a frame is its work: a few reactions
that reply, route, fail, take time or change the registry. A registry holds processors under their
names, in the order in which the names were first registered.
-/

namespace SessionGateway

inductive Frame where
  | text (e : Envelope)
  | binary (payload : List UInt8)
  deriving Inhabited

def Frame.label : Frame → String
  | .text _ => "text"
  | .binary _ => "binary"

/-- What a processor sees of the connection that a frame came from. -/
structure FrameContext where
  connection : ConnectionId
  attributes : Attributes
  /-- The principal resolved for this frame. -/
  principal : Option Principal
  deriving Inhabited

inductive Work where
  /-- Nothing beyond taking note. -/
  | observe
  | fail (text : String)
  /-- Finds the message invalid. -/
  | refuse (text : String)
  | pause (d : Duration)
  | unregister (name : String)
  /-- Registers a processor that only observes. -/
  | register (name : String)
  /-- Tells the connection what came and from whom. -/
  | echo
  /-- Passes the message on to the user and to the group that the data name. -/
  | route
  deriving DecidableEq, Repr, Inhabited

structure Processor where
  name : String
  /-- Whether the principal is resolved before each turn. -/
  needsPrincipal : Bool
  /-- Whether binary frames are passed over. -/
  ignoresBinary : Bool
  work : Work
  deriving DecidableEq, Repr, Inhabited

/-- A processor that only observes. -/
def Processor.observer (name : String) : Processor := ⟨name, false, false, .observe⟩

structure Registry where
  processors : Table String Processor

namespace Registry

def empty : Registry := ⟨.empty⟩

instance : Inhabited Registry := ⟨empty⟩

/-- Adds a processor last, or in the place of the one of its name. -/
def register (r : Registry) (p : Processor) : Registry := ⟨r.processors.insert p.name p⟩

/-- Removes a processor; whether there was one. -/
def unregister (r : Registry) (name : String) : Bool × Registry :=
  (r.processors.contains name, ⟨r.processors.erase name⟩)

def snapshot (r : Registry) : List Processor := r.processors.values

def names (r : Registry) : List String := r.processors.keys

def size (r : Registry) : Nat := r.processors.size

end Registry

end SessionGateway
