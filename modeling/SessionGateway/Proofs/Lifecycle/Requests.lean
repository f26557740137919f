import SessionGateway.Cluster.Basic
import SessionGateway.Proofs.Lifecycle.Steps

/-!
# Sorts of requests

Requests that only read the clock or tell something, and requests that touch neither the store nor a
directory.
-/

namespace SessionGateway

open Node (Request)

/-- A request that reads the clock or tells what happened. -/
def Node.Request.IsIdle : Request → Prop
  | .cache .wallClock | .cache (.log _) | .measure .. => True
  | _ => False

/-- A request that neither reaches the store nor changes a directory. -/
def Node.Request.IsQuiet : Request → Prop
  | .cache (.store _) | .addUser _ | .addGroup _ | .withdrawUser .. | .withdrawGroup .. | .remove _
  | .processors | .turn .. => False
  | _ => True

namespace Lifecycle

variable {l : Lifecycle}

/-! ### Reports -/

theorem only_log (e : Log.Event) : (Node.log e).Only Request.IsIdle := ⟨trivial, fun _ => trivial⟩

theorem only_measure (m : Meter) (n : Int) : (Node.measure m n).Only Request.IsIdle :=
  ⟨trivial, fun _ => trivial⟩

theorem only_countRegistered (kind : ConnectionKind) (replaced : Bool) :
    (countRegistered kind replaced).Only Request.IsIdle := by
  cases replaced with
  | true => exact ⟨trivial, fun _ => trivial⟩
  | false => exact ⟨trivial, fun _ => ⟨trivial, fun _ => trivial⟩⟩

theorem only_countWithdrawn (kind : ConnectionKind) (withdrawn replaced : Bool) :
    (countWithdrawn kind withdrawn replaced).Only Request.IsIdle := by
  cases withdrawn <;> cases replaced <;>
    first | exact ⟨trivial, fun _ => trivial⟩ | trivial

theorem only_quiet_of_idle {α : Type} {p : NodeProgram α} (hp : p.Only Request.IsIdle) :
    p.Only Request.IsQuiet := by
  refine hp.mono ?_
  intro r hr
  cases r with
  | cache r =>
    cases r with
    | store => exact hr.elim
    | wallClock | log => trivial
  | measure => trivial
  | identify | acquire | release | directory | addUser | addGroup | withdrawUser | withdrawGroup
  | remove | close | processors | turn => exact hr.elim

/-! ### A node at the door -/

/-- A user's connection whose credential the identity service of `doorstep` accepts. -/
def visitor : Transport := ⟨0, some (⟨"c"⟩, 0), .ofList [("token", "jwt")]⟩

/-- A second connection of the user of `visitor`. -/
def companion : Transport := ⟨1, some (⟨"d"⟩, 0), .ofList [("token", "jwt")]⟩

def doorstep : Cluster :=
  { Cluster.empty with
    accounts := Table.empty.insert "jwt" ⟨.ok ⟨7, 1, none, none, "jwt"⟩, .zero⟩ }

def porter : Lifecycle := ⟨⟨"b"⟩, ⟨"k", .ofMillis 100⟩, .ofMillis 5⟩

end Lifecycle

end SessionGateway
