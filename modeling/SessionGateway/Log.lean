/-!
# Log events

An event has a level, a message and named fields. A capture holds events with the module they came
from, and answers questions about them.
-/

namespace SessionGateway

namespace Log

inductive Level where
  | error
  | warn
  | info
  | debug
  | trace
  deriving DecidableEq, Repr, Inhabited

def Level.label : Level → String
  | .error => "ERROR"
  | .warn => "WARN"
  | .info => "INFO"
  | .debug => "DEBUG"
  | .trace => "TRACE"

def Level.all : List Level := [.error, .warn, .info, .debug, .trace]

/-- How much is shown at a level: the more, the larger. -/
def Level.reach : Level → Nat
  | .error => 1
  | .warn => 2
  | .info => 3
  | .debug => 4
  | .trace => 5

/-- Whether a log that shows a level shows another. -/
def Level.admits (limit other : Level) : Bool := other.reach ≤ limit.reach

structure Event where
  level : Level
  message : String
  fields : List (String × String)
  deriving DecidableEq, Repr, Inhabited

/-- Whether a node that logs at INFO shows the event. -/
def Event.isShown (e : Event) : Bool := Level.info.admits e.level

def error (message : String) (fields : List (String × String) := []) : Event :=
  ⟨.error, message, fields⟩

def warn (message : String) (fields : List (String × String) := []) : Event :=
  ⟨.warn, message, fields⟩

def info (message : String) (fields : List (String × String) := []) : Event :=
  ⟨.info, message, fields⟩

/-- The value of the first field of a name. -/
def Event.field? (e : Event) (name : String) : Option String :=
  (e.fields.find? fun f => f.1 = name).map Prod.snd

/-- Whether `part` stands somewhere in `s`. -/
def hasInfix (part : List Char) : List Char → Bool
  | [] => part.isEmpty
  | c :: rest => part.isPrefixOf (c :: rest) || hasInfix part rest

def Event.mentions (e : Event) (part : String) : Bool := hasInfix part.toList e.message.toList

/-- An event and the module that it came from. -/
structure Captured where
  target : String
  event : Event
  deriving DecidableEq, Repr, Inhabited

/-- Captured events, oldest first. -/
abbrev Capture := List Captured

namespace Capture

def hasMessage (c : Capture) (part : String) : Bool := c.any fun x => x.event.mentions part

def hasEvent (c : Capture) (level : Level) (part : String) : Bool :=
  c.any fun x => x.event.level = level && x.event.mentions part

def countAt (c : Capture) (level : Level) : Nat := c.countP fun x => x.event.level = level

/-- The events of a level in which a field has a given value. -/
def withField (c : Capture) (level : Level) (name value : String) : Capture :=
  c.filter fun x => x.event.level = level && x.event.field? name = some value

/-- The events of the modules whose name begins in a given way. -/
def forTarget (c : Capture) (start : String) : Capture :=
  c.filter fun x => start.toList.isPrefixOf x.target.toList

end Capture

end Log

end SessionGateway
