import SessionGateway.Handshake
import SessionGateway.ServerConfig
/-!
# Routes

The three paths that a gateway serves and what each answers to a request: an upgrade, the node's
health and its metrics. A request that only asks what is allowed is answered on every path.
-/

namespace SessionGateway

inductive Route where
  | upgrade
  | health
  | metrics
  deriving DecidableEq, Repr, Inhabited

/-- The status and the body of a reply. -/
inductive Reply where
  | empty
  | health
  | metrics
  | unauthorized
  | badRequest
  | notFound
  | methodNotAllowed
  /-- The request is answered by an upgrade. -/
  | switching
  deriving DecidableEq, Repr, Inhabited

def Reply.status : Reply → Nat
  | .empty | .health | .metrics => 200
  | .unauthorized => 401
  | .badRequest => 400
  | .notFound => 404
  | .methodNotAllowed => 405
  | .switching => 101

namespace Route

/-- The part of a target in front of its query and its fragment. -/
def pathOf (target : String) : String :=
  String.ofList (target.toList.takeWhile fun c => c ≠ '?' && c ≠ '#')

/-- The route of a target. -/
def of? (c : ServerConfig) (target : String) : Option Route :=
  let path := pathOf target
  if path = c.wsPath then some .upgrade
  else if path = "/health" then some .health
  else if path = "/metrics" then some .metrics
  else none

/-- The reply to a request that asks for no upgrade. -/
def reply (c : ServerConfig) (method target : String) : Reply :=
  if method = "OPTIONS" then .empty
  else
    match of? c target, method with
    | none, _ => .notFound
    | some .upgrade, "GET" => .badRequest
    | some .health, "GET" => .health
    | some .metrics, "GET" => .metrics
    | some .health, "HEAD" | some .metrics, "HEAD" => .empty
    | some _, _ => .methodNotAllowed

/-- The reply to a request that asks for an upgrade. -/
def replyToUpgrade (c : ServerConfig) (target : String) (a : Attributes) : Reply :=
  match of? c target with
  | some .upgrade => if Handshake.isForged c.secretKey a then .unauthorized else .switching
  | _ => reply c "GET" target

end Route

end SessionGateway
