import SessionGateway.Fault
import SessionGateway.Meter
import SessionGateway.Json.Render
import SessionGateway.Log
/-!
# Reports

Errors, log events and meters in the form in which an operator's tools read them: an error as an
object with its name and, where the gateway words it, its text; with its kind; and, where it may end
a connection, with whether it does.
-/

namespace SessionGateway

/-- The name and the text of an error. -/
def named (name message : String) : List (String × Json) :=
  [("error", .text name), ("message", .text message)]

/-- The kind of an error and whether it ends the connection. -/
def consequence (k : FailureKind) : List (String × Json) :=
  [("kind", k.toJson), ("closes", .bool k.closesConnection)]

def TransportError.report (e : TransportError) : List (String × Json) :=
  named (match e with | .closed => "Closed" | .queueFull => "QueueFull") e.message

def Identity.Error.report (e : Identity.Error) : List (String × Json) :=
  match e with
  | .http timeout => [("error", .text "Http"), ("timeout", .bool timeout)]
  | .rejected status body =>
    named "Rejected" e.message ++ [("status", .nat status), ("body", .text body)]
  | .noPrincipal _ => named "NoPrincipal" e.message
  | .malformed => [("error", .text "Json")]

def CacheError.report (e : CacheError) : List (String × Json) :=
  match e with
  | .redis => [("error", .text "Redis")]
  | .malformed => [("error", .text "Json")]
  | .wrongType _ => named "WrongType" e.message
  | .unavailable _ => named "Unavailable" e.message

def OpenError.report (e : OpenError) : List (String × Json) :=
  (match e with
    | .unrecognizedTransport => named "UnrecognizedTransport" e.message
    | .unclassified => named "Unclassified" e.message
    | .lockTimeout _ => named "LockTimeout" e.message
    | .identity e => e.report
    | .cache e => e.report) ++ consequence e.kind

def DispatchError.report (e : DispatchError) : List (String × Json) :=
  (match e with
    | .undecodable => [("error", .text "Decode")]
    | .processor .. => named "Processor" e.message
    | .timeout .. => named "Timeout" e.message
    | .unauthenticated .. => named "Unauthenticated" e.message) ++
  consequence e.kind ++ [("processor", (e.processorName?.map .text).getD .null)]

/-- An event on one line: its level, its message and its fields. -/
def Log.Event.text (e : Log.Event) : String :=
  String.intercalate " " (e.level.label :: e.message :: e.fields.map fun f => f.1 ++ "=" ++ f.2)

def Log.Event.toJson (e : Log.Event) : Json :=
  .object [("level", .text e.level.label),
    ("fields", .object (("message", .text e.message) :: e.fields.map fun f => (f.1, .text f.2)))]

/-- A meter's name followed by its labels in braces, if it has any. -/
def Meter.text (m : Meter) : String :=
  match m.labels with
  | [] => m.name
  | ls =>
    m.name ++ String.singleton (Char.ofNat 0x7b) ++
      String.intercalate "," (ls.map fun l => l.1 ++ "=" ++ l.2) ++
      String.singleton (Char.ofNat 0x7d)

/-- The meters touched so far. -/
def Meters.toJson (ms : Meters) : Json := .object (ms.entries.map fun e => (e.1.text, .int e.2))

end SessionGateway
