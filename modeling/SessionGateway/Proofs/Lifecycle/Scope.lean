import SessionGateway.Session
import SessionGateway.Proofs.Dispatch.Turns
import SessionGateway.Proofs.Lifecycle.Footprints

/-!
# What sessions and passes put where

A session puts nothing into the directory but its own connection, among the sessions of the kind
that its attributes describe, and only while it opens. No session writes to the hash of heartbeats.
A reconciler puts no connection into the directory.
-/

namespace SessionGateway

open Node (Request)

/-- A request that puts nothing into a directory. -/
def Node.Request.AddsNone : Request → Prop
  | .addUser _ | .addGroup _ => False
  | _ => True

/-- A request that leaves a key of the store as it is. -/
def Node.Request.Leaves (key : String) : Request → Prop
  | .cache (.store k) => ¬ k.Changes key
  | _ => True

/-- A request that puts nothing into a directory but the connection of a session. -/
def Session.AddsSelf (s : Session) : Request → Prop
  | .addUser u => u.entry.connection = s.id ∧ s.attributes.classify = some .endUser
  | .addGroup u => u.entry.connection = s.id ∧ s.attributes.classify = some .groupSecret
  | _ => True

/-- What a session may ask for while it opens. -/
def Session.Enters (s : Session) (key : String) (r : Request) : Prop := s.AddsSelf r ∧ r.Leaves key

/-- What a session may ask for once it has opened. -/
def Session.Stays (key : String) (r : Request) : Prop := r.AddsNone ∧ r.Leaves key

namespace Session

variable {s : Session} {key : String}

theorem stays_of_work {r : Request} (h : r.IsWork key) : Stays key r := by
  cases r with
  | cache r =>
    cases r with
    | store k => exact ⟨trivial, h⟩
    | wallClock | log => exact ⟨trivial, trivial⟩
  | directory | withdrawUser | withdrawGroup | measure => exact ⟨trivial, trivial⟩
  | identify | acquire | release | addUser | addGroup | remove | close | processors | turn =>
    exact h.elim

theorem stays_of_idle {r : Request} (h : r.IsIdle) : Stays key r := stays_of_work h.work

theorem Stays.enters {r : Request} (h : Stays key r) : s.Enters key r := by
  refine ⟨?_, h.2⟩
  cases r with
  | addUser | addGroup => exact h.1.elim
  | cache | identify | acquire | release | directory | withdrawUser | withdrawGroup | remove | close
  | measure | processors | turn => trivial

/-! ### Opening -/

theorem enters_of_asks {l : Lifecycle} {place : Option ConnectionKind} {r : Request}
    (h : l.OpeningAsks s.transport place r) : s.Enters l.cache.brokersKey r := by
  cases h with
  | register own described asks =>
    obtain rfl := Option.some.inj own
    cases asks with
    | addUser hid => exact ⟨⟨hid, described⟩, trivial⟩
    | addGroup hid => exact ⟨⟨hid, described⟩, trivial⟩
    | work work => exact (stays_of_work work).enters
    | identify | acquire | release => exact ⟨trivial, trivial⟩
  | report idle => exact (stays_of_idle idle).enters
  | close => exact ⟨trivial, trivial⟩

/-- A session that opens puts in no connection but its own. -/
theorem only_enter (s : Session) (l : Lifecycle) :
    (s.enter l).Only (s.Enters l.cache.brokersKey) := by
  refine ⟨⟨trivial, trivial⟩, fun _ => ⟨⟨trivial, trivial⟩, fun _ => ?_⟩⟩
  show (l.onOpen s.transport).Only (s.Enters l.cache.brokersKey)
  exact (l.orderly_onOpen s.transport).only fun _ _ => enters_of_asks

/-! ### Reacting and leaving -/

theorem only_dispatch (d : Dispatch) (id : ConnectionId) (a : Attributes) (m : Dispatch.Arrival) :
    (m.dispatch d id a).Only (Stays key) := by
  refine (Dispatch.only_dispatch m).mono ?_
  intro r hr
  cases r with
  | cache r => cases r <;> first | exact ⟨trivial, trivial⟩ | exact hr.elim
  | identify | measure | processors | turn => exact ⟨trivial, trivial⟩
  | acquire | release | directory | addUser | addGroup | withdrawUser | withdrawGroup | remove
  | close => exact hr.elim

theorem only_react (s : Session) (d : Dispatch) (m : Inbound) : (s.react d m).Only (Stays key) := by
  cases m with
  | text text => exact (only_dispatch d _ _ (.text text)).bind fun _ => trivial
  | binary payload => exact (only_dispatch d _ _ (.binary payload)).bind fun _ => trivial
  | pong payload => exact ⟨⟨trivial, trivial⟩, fun _ => ⟨⟨trivial, trivial⟩, fun _ => trivial⟩⟩
  | ping | close => trivial
  | failure error =>
    refine ((Lifecycle.only_onTransportError _ error).mono ?_).bind fun _ => trivial
    rintro r (rfl | ⟨id, -, rfl⟩ | hr)
    · exact ⟨trivial, trivial⟩
    · exact ⟨trivial, trivial⟩
    · exact stays_of_idle hr

/-- A session leaves by taking its connection out of the directory before anything else. -/
theorem leave_eq (s : Session) : ∃ next, s.leave = .ask (.remove s.id) next ∧
    ∀ x, (next x).Only (Stays key) := by
  refine ⟨_, rfl, ?_⟩
  rintro (_ | kind)
  · exact ⟨⟨trivial, trivial⟩, fun _ => trivial⟩
  · exact ⟨⟨trivial, trivial⟩, fun _ => ⟨⟨trivial, trivial⟩, fun _ =>
      ⟨⟨trivial, trivial⟩, fun _ => trivial⟩⟩⟩

theorem only_farewell (state : ConnectionState) (dropped : Nat) :
    (farewell state dropped).Only (Stays key) :=
  ⟨⟨trivial, trivial⟩, fun _ => ⟨⟨trivial, trivial⟩, fun _ => ⟨⟨trivial, trivial⟩, fun _ =>
    ⟨⟨trivial, trivial⟩, fun _ => trivial⟩⟩⟩⟩

end Session

/-! ### Passes -/

namespace Lifecycle

theorem addsNone_cached {α : Type} (op : Cache.Operation α) :
    (Node.cached op).Only Request.AddsNone := by
  refine (only_cache op).mono ?_
  rintro _ ⟨q, rfl⟩
  trivial

theorem addsNone_republish (l : Lifecycle) : l.republish.Only Request.AddsNone := by
  refine l.orderly_republish.only ?_
  intro place r hasks
  cases hasks with
  | work work => exact (Session.stays_of_work work).1
  | acquire | release => trivial

/-- A pass puts no connection into the directory. -/
theorem addsNone_reconcile (l : Lifecycle) : l.reconcile.Only Request.AddsNone := by
  refine Program.Only.bind ?_ ?_
  · rw [l.tick_eq]
    refine (addsNone_cached _).bind ?_
    rintro (e | ⟨⟩)
    · trivial
    refine l.addsNone_republish.bind ?_
    rintro (e | published)
    · trivial
    refine (addsNone_cached _).bind ?_
    rintro (e | pruned)
    · trivial
    refine (addsNone_cached _).bind ?_
    rintro (e | swept)
    · trivial
    · trivial
  · rintro (e | report)
    · exact ⟨trivial, fun _ => ⟨trivial, fun _ => trivial⟩⟩
    · exact ⟨trivial, fun _ => ⟨trivial, fun _ => ⟨trivial, fun _ => trivial⟩⟩⟩

/-- A node leaves the membership by deleting its heartbeat before anything else. -/
theorem leaveMembership_eq (l : Lifecycle) : ∃ next,
    l.leaveMembership =
      .ask (.cache (.store (.hashDelete l.cache.brokersKey l.broker.text))) next ∧
    ∀ x, (next x).Only Request.IsIdle := by
  refine ⟨_, rfl, ?_⟩
  rintro (e | gone)
  · exact ⟨trivial, fun _ => trivial⟩
  · exact ⟨trivial, fun _ => trivial⟩

end Lifecycle

end SessionGateway
