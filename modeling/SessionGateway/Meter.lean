import SessionGateway.Failure
import SessionGateway.Attributes
/-!
# Meters

What a node counts. A meter is a name with labels; a counter and a gauge hold a number, of a
histogram only the number of its records is kept.
-/

namespace SessionGateway

inductive Meter where
  /-- Connections opened. -/
  | opened
  /-- Connections ended. -/
  | ended
  /-- Connections open now. -/
  | connected
  /-- How long connections lasted. -/
  | lifetime
  /-- Upgrade requests refused. -/
  | refused
  /-- Connections rejected while they were registered. -/
  | rejected (reason : FailureKind)
  | registered (kind : ConnectionKind)
  /-- Registrations given up while they waited for the lock. -/
  | lockTimeouts (kind : ConnectionKind)
  /-- Sessions in the directory. -/
  | active (kind : ConnectionKind)
  | textFrames
  | binaryFrames
  | pongFrames
  | heartbeats
  | failures (processor : String) (kind : FailureKind)
  /-- How long the turns of a processor took. -/
  | turns (processor : String)
  /-- Reconciliation passes that ended well, or did not. -/
  | passes (succeeded : Bool)
  /-- Stale fields deleted by reconciliation. -/
  | pruned
  /-- Keys dropped from the store by reconciliation. -/
  | swept
  deriving DecidableEq, Repr

namespace Meter

def name : Meter → String
  | .opened => "ws_connections_total"
  | .ended => "ws_disconnections_total"
  | .connected => "ws_connections_active"
  | .lifetime => "ws_connection_duration_seconds"
  | .refused | .rejected _ => "connections_rejected_total"
  | .registered _ => "registrations_total"
  | .lockTimeouts _ => "registration_timeouts_total"
  | .active _ => "sessions_active"
  | .textFrames | .binaryFrames | .pongFrames => "frames_received_total"
  | .heartbeats => "heartbeats_total"
  | .failures .. => "processor_failures_total"
  | .turns _ => "processor_duration_seconds"
  | .passes _ => "reconcile_runs_total"
  | .pruned => "reconcile_pruned_total"
  | .swept => "reconcile_swept_total"

/-- The labels in the order of their names. -/
def labels : Meter → List (String × String)
  | .refused => [("reason", "handshake")]
  | .rejected k => [("reason", k.label)]
  | .registered k | .lockTimeouts k | .active k => [("kind", k.label)]
  | .textFrames => [("kind", "text")]
  | .binaryFrames => [("kind", "binary")]
  | .pongFrames => [("kind", "pong")]
  | .failures p k => [("kind", k.label), ("processor", p)]
  | .turns p => [("processor", p)]
  | .passes ok => [("outcome", if ok then "ok" else "error")]
  | _ => []

end Meter

/-- The meters touched so far. -/
abbrev Meters := Table Meter Int

/-- Adds to a meter; one never touched stands at zero. -/
def Meters.add (ms : Meters) (m : Meter) (n : Int) : Meters :=
  ms.insert m ((ms.get? m).getD 0 + n)

end SessionGateway
