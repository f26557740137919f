import Mathlib.Logic.Relation
import SessionGateway.Proofs.Gateway.Sessions
import SessionGateway.Proofs.Cluster.Answers
import SessionGateway.Proofs.Directory

/-!
# A node whose tasks interleave

The sessions of a node and its reconciler moved forward one request at a time, in any order and with
any answers of the identity service, the store and the processors; sessions start, read, and leave
at any time, and the node may be told to stop at any time. What the tasks gave to the store is kept
in the order in which it was given.
-/

namespace SessionGateway

open Node (Request)
open Program (Surroundings)
open Store (Memory)

/-! ### Requests -/

/-- A command that was given to the store, with what was given back. -/
structure Told where
  command : Store.Command
  result : Store.Result command

/-- What the store may do with a command. Whatever it gives back, and whether it fails before or
after the command had its effect, it leaves all keys alone but the one that the command is to
change, and a field is gone once its deletion has succeeded. -/
structure Store.Memory.MayAnswer (now : Duration) (k : Store.Command) (m : Memory)
    (x : Store.Result k) (m' : Memory) : Prop where
  others : ∀ key, ¬ k.Changes key → m'.live? now key = m.live? now key
  deleted : ∀ key field, k = .hashDelete key field → x.isOk = true →
    (m'.fieldsAt now key).get? field = none

namespace Node

/-- What an answered request gave to the store. -/
def told : (r : Request) → r.Answer → List Told
  | .cache (.store k), x => [⟨k, x⟩]
  | _, _ => []

/-- How a request may be answered. The node's directory does what it is asked for; whatever is
neither asked of the directory nor of the store may be answered in any way and leaves both alone. -/
def MayAnswer (b : BrokerId) : Surroundings interface Cluster
  | .cache (.store k), c, x, c' =>
    c'.now = c.now ∧ c'.directory b = c.directory b ∧
      Memory.MayAnswer c.now k c.memory x c'.memory
  | .directory, c, x, c' => c.perform b .directory = (x, c')
  | .addUser u, c, x, c' => c.perform b (.addUser u) = (x, c')
  | .addGroup u, c, x, c' => c.perform b (.addGroup u) = (x, c')
  | .withdrawUser id t, c, x, c' => c.perform b (.withdrawUser id t) = (x, c')
  | .withdrawGroup id t, c, x, c' => c.perform b (.withdrawGroup id t) = (x, c')
  | .remove id, c, x, c' => c.perform b (.remove id) = (x, c')
  | _, c, _, c' => c'.now = c.now ∧ c'.directory b = c.directory b ∧ c'.memory = c.memory

end Node

/-- What may happen around a node's tasks: time passes, other nodes write to the store, locks and
connections change. The directory is the node's own, and nobody else writes its heartbeat. -/
structure Cluster.Spares (b : BrokerId) (beats : String) (c c' : Cluster) : Prop where
  later : c.now ≤ c'.now
  directory : c'.directory b = c.directory b
  beat : (c.memory.fieldsAt c.now beats).get? b.text = none →
    (c'.memory.fieldsAt c'.now beats).get? b.text = none

/-! ### Tasks -/

/-- The next request of a fiber is answered, or it waits. -/
inductive Fiber.Goes {α : Type} : Fiber α → Cluster → List Told → Fiber α → Cluster → Prop
  | answer {node : BrokerId} {r : Request} {next : r.Answer → NodeProgram α} {w w' : Wait}
      {e e' : Option Duration} {c c' : Cluster} {x : r.Answer} (h : Node.MayAnswer node r c x c') :
      Goes ⟨node, .ask r next, w, e⟩ c (Node.told r x) ⟨node, next x, w', e'⟩ c'
  | wait {node : BrokerId} {p : NodeProgram α} {w w' : Wait} {e e' : Option Duration}
      {c : Cluster} : Goes ⟨node, p, w, e⟩ c [] ⟨node, p, w', e'⟩ c

namespace Channel

/-- Whether a session can read. -/
def Phase.Reads (st : ConnectionState) : Phase → Prop
  | .reading st' | .listening st' _ => st' = st
  | _ => False

/-- The ways in which a session goes on. -/
inductive Phase.Goes (b : BrokerId) (d : Dispatch) (s : Session) :
    Phase → Cluster → List Told → Phase → Cluster → Prop
  | opening {f f' : Fiber ConnectionState} {c c' : Cluster} {news : List Told}
      (h : f.Goes c news f' c') : Goes b d s (.opening f) c news (.opening f') c'
  | opened {f : Fiber ConnectionState} {c : Cluster} {st : ConnectionState}
      (h : f.result? = some st) : Goes b d s (.opening f) c []
        (if st = .closed then .leaving st (.new b s.leave) else .reading st) c
  | listen {st : ConnectionState} {place : Nat} {c : Cluster} :
      Goes b d s (.reading st) c [] (.listening st place) c
  /-- Something arrives, which may be an error. -/
  | hear {p : Phase} {st : ConnectionState} {c : Cluster} (h : p.Reads st) (m : Inbound) :
      Goes b d s p c [] (.reacting st (.new b (s.react d m))) c
  /-- There is nothing more to read, or the connection was asked to close, or the node stops. -/
  | quit {p : Phase} {st : ConnectionState} {c : Cluster} (h : p.Reads st) :
      Goes b d s p c [] (.leaving st (.new b s.leave)) c
  | reacting {st : ConnectionState} {f f' : Fiber Bool} {c c' : Cluster} {news : List Told}
      (h : f.Goes c news f' c') : Goes b d s (.reacting st f) c news (.reacting st f') c'
  | reacted {st : ConnectionState} {f : Fiber Bool} {goesOn : Bool} {c : Cluster}
      (h : f.result? = some goesOn) : Goes b d s (.reacting st f) c []
        (if goesOn then .reading st else .leaving st (.new b s.leave)) c
  | leaving {st : ConnectionState} {f f' : Fiber Unit} {c c' : Cluster} {news : List Told}
      (h : f.Goes c news f' c') : Goes b d s (.leaving st f) c news (.leaving st f') c'
  | left {st : ConnectionState} {f : Fiber Unit} {c : Cluster} (h : f.result? = some ()) :
      Goes b d s (.leaving st f) c [] (.flushing st) c
  | flushed {st : ConnectionState} {c : Cluster} (dropped : Nat) :
      Goes b d s (.flushing st) c [] (.parting (.new b (Session.farewell st dropped))) c
  | parting {f f' : Fiber Unit} {c c' : Cluster} {news : List Told} (h : f.Goes c news f' c') :
      Goes b d s (.parting f) c news (.parting f') c'
  | parted {f : Fiber Unit} {c : Cluster} (h : f.result? = some ()) :
      Goes b d s (.parting f) c [] .ended c

/-- The session of a channel goes on, or something beside it changes. -/
inductive Goes (b : BrokerId) (d : Dispatch) :
    Channel → Cluster → List Told → Channel → Cluster → Prop
  | session {ch : Channel} {p : Phase} {c c' : Cluster} {news : List Told}
      (h : ch.phase.Goes b d ch.session c news p c') : Goes b d ch c news { ch with phase := p } c'
  | beside {ch ch' : Channel} {c : Cluster} (hsession : ch'.session = ch.session)
      (hphase : ch'.phase = ch.phase) : Goes b d ch c [] ch' c

end Channel

/-- The ways in which a reconciler goes on. A pass may begin even when it was told to stop. -/
inductive Reconciler.Phase.Goes (l : Lifecycle) (isStopping : Bool) :
    Phase → Cluster → List Told → Phase → Cluster → Prop
  | starting {f f' : Fiber Unit} {c c' : Cluster} {news : List Told} (h : f.Goes c news f' c') :
      Goes l isStopping (.starting f) c news (.starting f') c'
  | started {f : Fiber Unit} {c : Cluster} (h : f.result? = some ()) (due : Duration) :
      Goes l isStopping (.starting f) c [] (.idle due) c
  | begin {due : Duration} {c : Cluster} (due' : Duration) :
      Goes l isStopping (.idle due) c [] (.passing (.new l.broker l.reconcile) due') c
  | passing {f f' : Fiber Unit} {due : Duration} {c c' : Cluster} {news : List Told}
      (h : f.Goes c news f' c') : Goes l isStopping (.passing f due) c news (.passing f' due) c'
  | passed {f : Fiber Unit} {due : Duration} {c : Cluster} (h : f.result? = some ()) :
      Goes l isStopping (.passing f due) c [] (.idle due) c
  | quit {due : Duration} {c : Cluster} (h : isStopping = true) :
      Goes l isStopping (.idle due) c [] (.leaving (.new l.broker l.leaveMembership)) c
  | leaving {f f' : Fiber Unit} {c c' : Cluster} {news : List Told} (h : f.Goes c news f' c') :
      Goes l isStopping (.leaving f) c news (.leaving f') c'
  | left {f : Fiber Unit} {c : Cluster} (h : f.result? = some ()) :
      Goes l isStopping (.leaving f) c [] .ended c

namespace Gateway

inductive Task.Goes (b : BrokerId) (d : Dispatch) :
    Task → Cluster → List Told → Task → Cluster → Prop
  | channel {ch ch' : Channel} {c c' : Cluster} {news : List Told} (h : ch.Goes b d c news ch' c') :
      Goes b d (.channel ch) c news (.channel ch') c'
  | reconciler {r : Reconciler} {p : Reconciler.Phase} {place : Nat} {c c' : Cluster}
      {news : List Told} (h : r.phase.Goes r.lifecycle r.isStopping c news p c') :
      Goes b d (.reconciler r place) c news (.reconciler { r with phase := p } place) c'
  /-- The reconciler comes to wait in another place. -/
  | queue {r : Reconciler} {place place' : Nat} {c : Cluster} :
      Goes b d (.reconciler r place) c [] (.reconciler r place') c

def Task.isReconciler : Task → Bool
  | .channel _ => false
  | .reconciler .. => true

def Task.hasEnded : Task → Bool
  | .channel ch => ch.hasEnded
  | .reconciler r _ => r.hasEnded

/-! ### The node -/

/-- How far a graceful shutdown has come, from its call on with the number of the connection that
would have been the next. -/
inductive Drain where
  | pending
  /-- Waits for the sessions. -/
  | sessions (made : Nat)
  /-- Waits for the reconciler. -/
  | tasks (made : Nat)
  /-- Told whether everything ended in time. -/
  | returned (made : Nat) (inTime : Bool)

/-- A node with what its tasks gave to the store, newest first. -/
structure Scene where
  gateway : Gateway
  told : List Told
  drain : Drain

/-- The name of the next connection. -/
def nextId (g : Gateway) : ConnectionId :=
  ⟨uuidV7 (Cluster.epoch + g.cluster.now.millis) g.made⟩

/-- What may happen at once. -/
inductive Step : Scene → Scene → Prop
  | task {g : Gateway} {before after : List Task} {t t' : Task} {c' : Cluster}
      {news told : List Told} {drain : Drain} (hg : g.tasks = before ++ t :: after)
      (h : t.Goes g.broker g.dispatch g.cluster news t' c') :
      Step ⟨g, told, drain⟩
        ⟨{ g with tasks := before ++ t' :: after, cluster := c' }, news ++ told, drain⟩
  | around {g : Gateway} {c' : Cluster} {places : Nat} {told : List Told} {drain : Drain}
      (h : g.cluster.Spares g.broker g.cache.brokersKey c') :
      Step ⟨g, told, drain⟩ ⟨{ g with cluster := c', places }, told, drain⟩
  /-- A connection comes that is named like no other. -/
  | accept {g : Gateway} {told : List Told} {drain : Drain} (client : String) (a : Attributes)
      (h : ∀ ch ∈ g.channels, ch.session.id ≠ g.nextId) :
      Step ⟨g, told, drain⟩ ⟨g.accept client a, told, drain⟩
  /-- A node has no more than one reconciler. -/
  | spawn {g : Gateway} {told : List Told} {drain : Drain}
      (h : ∀ t ∈ g.tasks, t.isReconciler = false) :
      Step ⟨g, told, drain⟩ ⟨g.spawnReconciler, told, drain⟩
  | shutdown {g : Gateway} {tasks : List Task} {told : List Told} {drain : Drain}
      (h : tasks.Perm (g.tasks.map stopTask)) :
      Step ⟨g, told, drain⟩ ⟨{ g with isStopping := true, tasks }, told, drain⟩
  /-- A graceful shutdown is called, with the reconciler among its tasks. -/
  | call {g : Gateway} {tasks : List Task} {told : List Told}
      (h : tasks.Perm (g.tasks.map stopTask)) (hr : ∃ t ∈ g.tasks, t.isReconciler = true) :
      Step ⟨g, told, .pending⟩ ⟨{ g with isStopping := true, tasks }, told, .sessions g.made⟩
  | sessionsGone {g : Gateway} {told : List Told} {made : Nat} (h : g.openSessions = 0) :
      Step ⟨g, told, .sessions made⟩ ⟨g, told, .tasks made⟩
  | tasksGone {g : Gateway} {told : List Told} {made : Nat}
      (h : ∀ t ∈ g.tasks, t.isReconciler = true → t.hasEnded = true) :
      Step ⟨g, told, .tasks made⟩ ⟨g, told, .returned made true⟩
  | timeout {g : Gateway} {told : List Told} {drain : Drain} {made : Nat}
      (h : drain = .sessions made ∨ drain = .tasks made) :
      Step ⟨g, told, drain⟩ ⟨g, told, .returned made false⟩

/-- What comes about by and by. -/
abbrev Steps : Scene → Scene → Prop := Relation.ReflTransGen Step

/-- What comes about on a new node whose directory is empty. -/
def Arises (x : Scene) : Prop :=
  ∃ config broker cache cluster, (∀ id, (cluster.directory broker).Absent id) ∧
    Steps ⟨.new config broker cache cluster, [], .pending⟩ x

end Gateway

end SessionGateway
