import SessionGateway.Cluster.Lock
import SessionGateway.Store.Faulty
import SessionGateway.Dispatch
import SessionGateway.Reconcile
/-!
# A cluster

Nodes with a directory, two locks and processors each; the store, the identity service and the
connections that they share; and a clock. Time stands still while a request is answered. A request
may have to wait first: for a slow write, a slow answer of the identity service, a processor that
takes its time or a lock that is held.
-/

namespace SessionGateway

/-- What the identity service has for a credential. -/
structure Account where
  answer : Except Identity.Error Principal
  /-- How long it takes to answer. -/
  delay : Duration

/-- A turn of a processor, as it began. -/
structure Sighting where
  processor : String
  context : FrameContext
  frame : Frame

/-- What a node has for itself. -/
structure Site where
  directory : Directory
  userLock : Lock
  groupLock : Lock
  registry : Registry

def Site.new (b : BrokerId) : Site := ⟨.empty b, .free, .free, .empty⟩

def Site.lock (s : Site) : ConnectionKind → Lock
  | .endUser => s.userLock
  | .groupSecret => s.groupLock

def Site.setLock (s : Site) (l : Lock) : ConnectionKind → Site
  | .endUser => { s with userLock := l }
  | .groupSecret => { s with groupLock := l }

structure Cluster where
  /-- The time since the start. -/
  now : Duration
  store : Store.Faulty
  accounts : Table String Account
  /-- How often the identity service was asked. -/
  identifications : Nat
  sites : Table BrokerId Site
  connections : Connections
  meters : Meters
  /-- What was logged, newest first. -/
  events : List Log.Event
  /-- The turns of processors, newest first. -/
  sightings : List Sighting

namespace Cluster

def empty : Cluster := ⟨.zero, .empty, .empty, 0, .empty, .empty, .empty, [], []⟩

instance : Inhabited Cluster := ⟨empty⟩

/-- The start of the clock in milliseconds since 1970. -/
def epoch : Nat := 1700000000000

def wallClock (c : Cluster) : Int64 := Int64.ofNat (epoch + c.now.millis)

def site (c : Cluster) (b : BrokerId) : Site := (c.sites.get? b).getD (.new b)

def setSite (c : Cluster) (b : BrokerId) (s : Site) : Cluster :=
  { c with sites := c.sites.insert b s }

def directory (c : Cluster) (b : BrokerId) : Directory := (c.site b).directory

def setDirectory (c : Cluster) (b : BrokerId) (d : Directory) : Cluster :=
  c.setSite b { c.site b with directory := d }

def registry (c : Cluster) (b : BrokerId) : Registry := (c.site b).registry

def setRegistry (c : Cluster) (b : BrokerId) (r : Registry) : Cluster :=
  c.setSite b { c.site b with registry := r }

def setLock (c : Cluster) (b : BrokerId) (kind : ConnectionKind) (l : Lock) : Cluster :=
  c.setSite b ((c.site b).setLock l kind)

/-- Moves the clock on to a time; it does not go back. -/
def setTime (c : Cluster) (t : Duration) : Cluster :=
  { c with now := if c.now < t then t else c.now }

def log (c : Cluster) (e : Log.Event) : Cluster := { c with events := e :: c.events }

def measure (c : Cluster) (m : Meter) (n : Int) : Cluster :=
  { c with meters := Meters.add c.meters m n }

/-- Answers with a part that changes the connections. -/
def withConnections {α : Type} (c : Cluster) (r : α × Connections) : α × Cluster :=
  (r.1, { c with connections := r.2 })

/-- Answers with a part that changes a node's directory. -/
def withDirectory {α : Type} (c : Cluster) (b : BrokerId) (r : α × Directory) : α × Cluster :=
  (r.1, c.setDirectory b r.2)

/-! ### Processors at work -/

def Work.unknown : String := "-"

/-- What an echo says. -/
def echoOf (x : FrameContext) (f : Frame) : String :=
  let type :=
    match f with
    | .text e => e.messageType.getD Work.unknown
    | .binary _ => Work.unknown
  let user := (x.principal.map fun p => toString p.userId.toInt).getD Work.unknown
  "echo " ++ type ++ " " ++ user

/-- Sends a message to the user and to the group that the data of an envelope name; how many queues
gained it. -/
def route (c : Cluster) (b : BrokerId) (e : Envelope) : Nat × Cluster :=
  let text := e.message.getD ""
  let user := ((e.data.bind (·.get? "user")).bind Json.int?).bind Text.int64OfInt?
  let group := (e.data.bind (·.get? "group")).bind Json.text?
  let d := c.directory b
  let (m, cs) := (user.map fun u => d.sendToUser u text c.connections).getD (0, c.connections)
  let (n, cs) := (group.map fun g => d.sendToGroup g text cs).getD (0, cs)
  (m + n, { c with connections := cs })

/-- The envelope that a processor reads from a frame; of a binary frame an empty one. -/
def envelopeOf : Frame → Envelope
  | .text e => e
  | .binary _ => {}

/-- Carries out what a processor does with a frame, save for the time that it takes. -/
def carryOut (c : Cluster) (b : BrokerId) (x : FrameContext) (f : Frame) :
    Work → Except ProcessorError Unit × Cluster
  | .observe | .pause _ => (.ok (), c)
  | .fail text => (.error (.failed text), c)
  | .refuse text => (.error (.invalidMessage text), c)
  | .unregister name => (.ok (), c.setRegistry b ((c.registry b).unregister name).2)
  | .register name => (.ok (), c.setRegistry b ((c.registry b).register (.observer name)))
  | .echo =>
    let r := (c.directory b).sendToConnection x.connection (echoOf x f) c.connections
    (.ok (), { c with connections := r.2 })
  | .route =>
    let (n, c) := c.route b (envelopeOf f)
    (if n = 0 then .error (.failed "no recipient") else .ok (), c)

/-- Whether a processor passes a frame over. -/
def passesOver (p : Processor) : Frame → Bool
  | .text _ => false
  | .binary _ => p.ignoresBinary

/-- How long a processor would take for a frame. -/
def timeFor (p : Processor) (f : Frame) : Duration :=
  if passesOver p f then .zero
  else
    match p.work with
    | .pause d => d
    | _ => .zero

/-- A turn that ends now. -/
def turn (c : Cluster) (b : BrokerId) (p : Processor) (x : FrameContext) (f : Frame)
    (limit : Duration) : Node.Turn × Cluster :=
  let time := timeFor p f
  if passesOver p f then (⟨.completed (.ok ()), .zero⟩, c)
  else if limit < time then (⟨.timedOut, limit⟩, c)
  else
    let (r, c) := c.carryOut b x f p.work
    (⟨.completed r, time⟩, c)

/-! ### Answering requests -/

/-- The answer of the identity service. -/
def identify (c : Cluster) (credential : String) : Except Identity.Error Principal :=
  match c.accounts.get? credential with
  | some a => a.answer
  | none => .error (.rejected 401 "invalid_token")

/-- Answers a request on a node without waiting. A lock is had if it is free. -/
def perform (b : BrokerId) : (r : Node.Request) → Cluster → r.Answer × Cluster
  | .cache (.store k), c =>
    let (r, s) := Store.Faulty.answer c.now k c.store
    (r, { c with store := s })
  | .cache .wallClock, c => (c.wallClock, c)
  | .cache (.log e), c => ((), c.log e)
  | .identify credential, c => (c.identify credential, c)
  | .acquire kind _, c =>
    let l := (c.site b).lock kind
    if l.holder.isSome then (false, c) else (true, c.setLock b kind l.join.2)
  | .release kind, c => ((), c.setLock b kind ((c.site b).lock kind).pass)
  | .directory, c => (c.directory b, c)
  | .addUser s, c =>
    let d := c.directory b
    (d.users.contains s.entry.connection, c.setDirectory b (d.addUser s))
  | .addGroup s, c =>
    let d := c.directory b
    (d.groups.contains s.entry.connection, c.setDirectory b (d.addGroup s))
  | .withdrawUser id t, c => c.withDirectory b ((c.directory b).withdrawUser id t)
  | .withdrawGroup id t, c => c.withDirectory b ((c.directory b).withdrawGroup id t)
  | .remove id, c => c.withDirectory b ((c.directory b).remove id)
  | .close t, c => c.withConnections (t.close c.connections)
  | .measure m n, c => ((), c.measure m n)
  | .processors, c => ((c.registry b).snapshot, c)
  | .turn p x f limit, c => c.turn b p x f limit

/-- What happens as soon as a request is made, before it waits. -/
def begin (c : Cluster) : Node.Request → Cluster
  | .identify _ => { c with identifications := c.identifications + 1 }
  | .turn p x f _ =>
    if passesOver p f then c else { c with sightings := ⟨p.name, x, f⟩ :: c.sightings }
  | _ => c

/-- How long a request waits, locks aside. -/
def delayOf (c : Cluster) : Node.Request → Duration
  | .cache (.store k) => c.store.delayOf k
  | .identify credential => ((c.accounts.get? credential).map (·.delay)).getD .zero
  | .turn p _ f limit => if limit < timeFor p f then limit else timeFor p f
  | _ => .zero

end Cluster

end SessionGateway
