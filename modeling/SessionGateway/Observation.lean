import SessionGateway.Cluster.Basic
import SessionGateway.Gateway.Client
import SessionGateway.Report
/-!
# Observations

What can be observed of a running gateway, as documents: the turns of processors, the outcomes of
dispatching and reconciling, and what a client reads.
-/

namespace SessionGateway

def Attributes.pairs (a : Attributes) : Json :=
  .array (a.toList.map fun e => .array [.text e.1, .text e.2])

/-- The members of a user's session. -/
def UserSession.report (s : UserSession) : List (String × Json) :=
  [("entry", s.entry.toJson), ("principal", s.principal.toJson)]

def Frame.toJson : Frame → Json
  | .text e => .object [("text", e.toJson)]
  | .binary bytes => .object [("bytes", .text (Text.hexOfBytes bytes))]

def Sighting.toJson (s : Sighting) : Json :=
  .object [
    ("processor", .text s.processor),
    ("conn", s.context.connection.toJson),
    ("attrs", s.context.attributes.pairs),
    ("principal", (s.context.principal.map Principal.toJson).getD .null),
    ("frame", s.frame.toJson)]

/-- The members of a dispatch's outcome. -/
def DispatchReport.report (r : DispatchReport) : List (String × Json) :=
  [("heartbeat", .bool r.heartbeat), ("delivered", .nat r.delivered),
    ("failures", .array (r.failures.map fun e => .object e.report))]

def ReconcileReport.toJson (r : ReconcileReport) : Json :=
  .object [("users", .nat r.users), ("groups", .nat r.groups), ("pruned", .nat r.pruned),
    ("swept", .nat r.swept)]

/-- A close carries no code of its own. -/
def ClientFrame.toJson : ClientFrame → Json
  | .sent (.text s) => .object [("text", .text s)]
  | .sent .ping => .object [("ping", .text "")]
  | .sent (.pong bytes) => .object [("pong", .text (Text.hexOfBytes bytes))]
  | .sent .close => .object [("close", .null)]
  | .ended => .text "end"

end SessionGateway
