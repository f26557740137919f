import SessionGateway.Gateway.Channel
import SessionGateway.Gateway.Routes
import SessionGateway.Cluster.Stage
import SessionGateway.Health
import SessionGateway.Shutdown
import SessionGateway.Uuid
/-!
# A gateway

One node with its channels and its reconciler. All of them listen for the node's shutdown, and are
told of it in the order in which they began to listen.
-/

namespace SessionGateway

/-- What runs on a node beside requests. -/
inductive Gateway.Task where
  | channel (ch : Channel)
  /-- A reconciler with its place among those who wait. -/
  | reconciler (r : Reconciler) (place : Nat)

structure Gateway where
  config : ServerConfig
  broker : BrokerId
  cache : SessionCache
  cluster : Cluster
  tasks : List Gateway.Task
  isStopping : Bool
  /-- The number of the next connection. -/
  made : Nat
  /-- The place for the next who waits. -/
  places : Nat

namespace Gateway

def new (config : ServerConfig) (broker : BrokerId) (cache : SessionCache) (cluster : Cluster) :
    Gateway :=
  ⟨config, broker, cache, cluster, [], false, 0, 0⟩

def lifecycle (g : Gateway) : Lifecycle := ⟨g.broker, g.cache, g.config.lockTimeout⟩

def dispatch (g : Gateway) : Dispatch := ⟨g.config.heartbeat, g.config.processorTimeout⟩

def directory (g : Gateway) : Directory := g.cluster.directory g.broker

def controls (g : Gateway) : Channel.Controls := ⟨g.broker, g.dispatch, g.isStopping, g.places⟩

def channels (g : Gateway) : List Channel :=
  g.tasks.filterMap fun t =>
    match t with
    | .channel ch => some ch
    | .reconciler .. => none

/-- Sessions that have started and not ended. -/
def openSessions (g : Gateway) : Nat := g.channels.countP fun ch => !ch.hasEnded

def health (g : Gateway) : Health := .ofDirectory g.cluster.now g.openSessions g.directory

/-! ### Moving forward -/

def Task.poll (k : Channel.Controls) (t : Task) (c : Cluster) : (Bool × Task) × Cluster :=
  match t with
  | .channel ch =>
    let ((moved, ch), c) := ch.poll k c
    ((moved, .channel ch), c)
  | .reconciler r place =>
    let ((moved, r), c) := r.poll c
    ((moved, .reconciler r (if moved then k.place else place)), c)

def Task.due? : Task → Option Duration
  | .channel ch => ch.due?
  | .reconciler r _ => r.due?

def Task.place : Task → Nat
  | .channel ch => ch.place
  | .reconciler _ n => n

/-- Moves tasks forward in turn, each with a place of its own in case it begins to wait. -/
def pollTasks (k : Channel.Controls) : List Task → Cluster → (Bool × List Task) × Cluster
  | [], c => ((false, []), c)
  | t :: rest, c =>
    let ((here, t), c) := t.poll k c
    let ((there, rest), c) := pollTasks { k with place := k.place + 1 } rest c
    ((here || there, t :: rest), c)

def round (g : Gateway) : Bool × Gateway :=
  let ((moved, tasks), cluster) := pollTasks g.controls g.tasks g.cluster
  (moved, { g with tasks, cluster, places := g.places + g.tasks.length })

def due? (g : Gateway) : Option Duration := earliest (g.tasks.map (·.due?))

def setTime (t : Duration) (g : Gateway) : Gateway := { g with cluster := g.cluster.setTime t }

def loop : EventLoop Gateway := ⟨round, due?, setTime⟩

def settle (g : Gateway) : Gateway := loop.settle EventLoop.plenty g

/-- Lets a span of time pass. -/
def pass (g : Gateway) (d : Duration) : Gateway := loop.runTo (g.cluster.now + d) EventLoop.plenty g

/-! ### Connections -/

/-- The write side of a connection that opens now. -/
def startWriter (g : Gateway) : Writer :=
  .start g.config.pingInterval g.config.pongTimeout g.cluster.now

/-- Starts a session for a client. -/
def accept (g : Gateway) (client : String) (a : Attributes) : Gateway :=
  let n := g.made
  let now := g.cluster.now
  let id : ConnectionId := ⟨uuidV7 (Cluster.epoch + now.millis) n⟩
  let capacity := max g.config.sendQueueCapacity.toNat 1
  let c : Connection := { id, attributes := a, capacity, openedAt := now, lastHeard := now }
  let session : Session := ⟨id, n, a⟩
  let writer := g.startWriter
  let c := if writer.hasEnded then c.abandon else c
  let ch : Channel :=
    { session, writer
      phase := .opening (.new g.broker (session.enter g.lifecycle))
      inbound := []
      client := .new client }
  { g with
    cluster := { g.cluster with connections := g.cluster.connections.insert n c }
    tasks := g.tasks ++ [.channel ch]
    made := n + 1 }

/-- Answers an upgrade request. -/
def upgrade (g : Gateway) (client target : String) (h : Handshake) : Reply × Gateway :=
  let reply := Route.replyToUpgrade g.config target h.attributes
  match reply with
  | .switching => (reply, g.accept client h.attributes)
  | .unauthorized => (reply, { g with cluster := g.cluster.measure .refused 1 })
  | _ => (reply, g)

/-- Whether a message is larger than the gateway takes. -/
def isTooLarge (g : Gateway) (m : Inbound) : Bool :=
  match m with
  | .text s => g.config.maxMessageSize.toNat < s.utf8ByteSize
  | .binary payload => g.config.maxMessageSize.toNat < payload.length
  | _ => false

/-- What the session reads for what a client sends. -/
def arriving (g : Gateway) (m : Inbound) : Inbound :=
  if g.isTooLarge m then .failure "message too large" else m

/-- The last connection of a client. -/
def channelOf? (g : Gateway) (client : String) : Option Channel :=
  (g.channels.filter fun ch => ch.client.name = client).getLast?

def mapChannels (g : Gateway) (f : Channel → Channel) : Gateway :=
  { g with tasks := g.tasks.map fun t =>
      match t with
      | .channel ch => .channel (f ch)
      | .reconciler r n => .reconciler r n }

/-- Changes the channel of a connection. -/
def modifyConnection (g : Gateway) (number : Nat) (f : Channel → Channel) : Gateway :=
  g.mapChannels fun ch => if ch.session.number = number then f ch else ch

/-- Changes the last connection of a client. -/
def modifyChannel (g : Gateway) (client : String) (f : Channel → Channel) : Gateway :=
  match g.channelOf? client with
  | none => g
  | some ch => g.modifyConnection ch.session.number f

/-- A client sends a message; tells whether it was connected. -/
def send (g : Gateway) (client : String) (m : Inbound) : Bool × Gateway :=
  match g.channelOf? client with
  | none => (false, g)
  | some ch =>
    if ch.client.isConnected then
      let state := if m = .close then ClientState.closing else ch.client.state
      (true, g.modifyChannel client fun ch =>
        { ch with
          inbound := ch.inbound ++ [g.arriving m]
          client := { ch.client with state } })
    else (false, g)

/-- The client of a connection drops its socket without a close. -/
def dropConnection (g : Gateway) (number : Nat) : Gateway :=
  g.modifyConnection number fun ch =>
    if ch.client.isReachable then
      { ch with
        inbound := ch.inbound ++ [.failure "connection reset"]
        client := { ch.client with state := .dropped } }
    else ch

/-- A client drops its socket without a close. -/
def drop (g : Gateway) (client : String) : Gateway :=
  match g.channelOf? client with
  | none => g
  | some ch => g.dropConnection ch.session.number

/-- The clients forget what they read. -/
def forgetRead (g : Gateway) : Gateway :=
  g.mapChannels fun ch => { ch with client := { ch.client with read := [] } }

def mute (g : Gateway) (client : String) : Gateway :=
  g.modifyChannel client fun ch => { ch with client := { ch.client with isMuted := true } }

def unmute (g : Gateway) (client : String) : Gateway :=
  g.modifyChannel client fun ch =>
    let (c, sent) := ch.client.unmute
    { ch with client := c, inbound := ch.inbound ++ sent }

/-! ### Shutting down -/

def spawnReconciler (g : Gateway) : Gateway :=
  let r := Reconciler.new g.lifecycle g.config.reconcileInterval
  { g with tasks := g.tasks ++ [.reconciler (if g.isStopping then r.stop else r) g.places] }

def stopTask : Task → Task
  | .channel ch => .channel ch
  | .reconciler r n => .reconciler r.stop n

/-- Tells all tasks to stop, in the order in which they began to listen. -/
def shutdown (g : Gateway) : Gateway :=
  if g.isStopping then g
  else
    { g with
      isStopping := true
      tasks := (g.tasks.mergeSort fun a b => decide (a.place ≤ b.place)).map stopTask }

/-- Something that is due at a time. -/
def loopUntil (deadline : Duration) : EventLoop Gateway where
  round := round
  due? := fun g => earlier g.due? (if g.cluster.now < deadline then some deadline else none)
  setTime := setTime

/-- Shuts down and waits for the sessions to end, or for a timeout; tells which it was. -/
def drain (g : Gateway) (timeout : Duration) : Bool × Gateway :=
  let g := g.shutdown
  let notice := Shutdown.draining g.openSessions 0 timeout
  let g := { g with cluster := g.cluster.log notice }
  let deadline := g.cluster.now + timeout
  let g := (loopUntil deadline).runWhile
    (fun g => g.openSessions ≠ 0 && g.cluster.now < deadline) EventLoop.plenty g
  if g.openSessions = 0 then (true, g)
  else (false, { g with cluster := g.cluster.log (Shutdown.timedOut timeout g.openSessions) })

/-! ### Asking and telling -/

/-- Runs a program on the node beside its tasks. -/
def ask {α : Type} (g : Gateway) (p : NodeProgram α) : Option α × Gateway :=
  let (f, cluster) := (Fiber.new g.broker p).poll g.cluster
  (f.2.result?, { g with cluster })

end Gateway

end SessionGateway
