import SessionGateway.Directory
import SessionGateway.Json.Render
/-!
# Health

What a node tells of itself over HTTP.
-/

namespace SessionGateway

structure Health where
  uptime : Duration
  broker : BrokerId
  /-- Connections that are open, registered or not. -/
  connections : Nat
  userSessions : Nat
  groupSessions : Nat
  deriving Inhabited

namespace Health

def ofDirectory (uptime : Duration) (connections : Nat) (d : Directory) : Health :=
  ⟨uptime, d.broker, connections, d.userCount, d.groupCount⟩

def toJson (h : Health) : Json :=
  .object [
    ("status", .text "ok"),
    ("uptime_secs", .nat h.uptime.seconds),
    ("broker_id", h.broker.toJson),
    ("connections", .nat h.connections),
    ("user_sessions", .nat h.userSessions),
    ("group_sessions", .nat h.groupSessions)]

end Health

end SessionGateway
