import SessionGateway.Gateway.Client
import SessionGateway.Cluster.Fiber
import SessionGateway.EventLoop
/-!
# Channels

A channel is a session under way with its connection's write side and its client. The session opens,
reads while there is something to read, and leaves; it ends once the write side has ended. While it
opens, or while processors have their turns, what the client sends waits.
-/

namespace SessionGateway

inductive Channel.Phase where
  | opening (f : Fiber ConnectionState)
  /-- Reads what comes next. -/
  | reading (s : ConnectionState)
  /-- Found nothing to read, in the given place among all who wait. -/
  | listening (s : ConnectionState) (place : Nat)
  | reacting (s : ConnectionState) (f : Fiber Bool)
  | leaving (s : ConnectionState) (f : Fiber Unit)
  /-- Waits for the write side. -/
  | flushing (s : ConnectionState)
  | parting (f : Fiber Unit)
  | ended

structure Channel where
  session : Session
  phase : Channel.Phase
  writer : Writer
  /-- What the client sent and the session has not read, first come first. -/
  inbound : List Inbound
  client : Client

namespace Channel

/-- What the session of a channel acts on. -/
structure Controls where
  broker : BrokerId
  dispatch : Dispatch
  /-- Whether the node shuts down. -/
  isStopping : Bool
  /-- The place for the next who waits. -/
  place : Nat

def hasEnded (ch : Channel) : Bool :=
  match ch.phase with
  | .ended => true
  | _ => false

def connection (ch : Channel) (c : Cluster) : Connection :=
  (c.connections.get? ch.session.number).getD default

def setConnection (ch : Channel) (k : Connection) (c : Cluster) : Cluster :=
  { c with connections := c.connections.insert ch.session.number k }

/-- A frame for the client; what the client sends by itself waits to be read. -/
def deliver (ch : Channel) (f : ClientFrame) : Channel :=
  let (client, sent) := ch.client.arrive f
  { ch with client, inbound := ch.inbound ++ sent }

/-- What the server answers by itself to what it reads. -/
def acknowledge (ch : Channel) : Inbound → Channel
  | .ping payload => if ch.writer.hasEnded then ch else ch.deliver (.sent (.pong payload))
  | _ => ch

/-- Goes on with a program; gives the phase before or after its end. -/
def await {α : Type} (f : Fiber α) (c : Cluster) (before : Fiber α → Phase) (after : α → Phase) :
    (Bool × Phase) × Cluster :=
  let ((moved, f), c) := f.poll c
  match f.result? with
  | some a => ((moved, after a), c)
  | none => ((moved, before f), c)

def toLeave (ch : Channel) (k : Controls) (s : ConnectionState) : Phase :=
  .leaving s (.new k.broker ch.session.leave)

/-- One step of a session that reads. A request to close comes before what the client sent. -/
def read (ch : Channel) (k : Controls) (s : ConnectionState) (c : Cluster) :
    Option (Channel × Cluster) :=
  let conn := ch.connection c
  if conn.isClosed then some ({ ch with phase := ch.toLeave k s }, c)
  else if k.isStopping then
    some ({ ch with phase := ch.toLeave k s }, ch.setConnection conn.close.2 c)
  else
    match ch.inbound with
    | [] => none
    | m :: rest =>
      let c := if m.isSignOfLife then ch.setConnection (conn.markAlive c.now) c else c
      let ch := { ch with inbound := rest }.acknowledge m
      some ({ ch with phase := .reacting s (.new k.broker (ch.session.react k.dispatch m)) }, c)

/-- One step of a session; tells whether anything came of it. -/
def step (ch : Channel) (k : Controls) (c : Cluster) : (Bool × Channel) × Cluster :=
  let withPhase (r : (Bool × Phase) × Cluster) : (Bool × Channel) × Cluster :=
    ((r.1.1, { ch with phase := r.1.2 }), r.2)
  match ch.phase with
  | .opening f =>
    withPhase (await f c .opening fun s =>
      if s = .closed then ch.toLeave k s else .reading s)
  | .reading s =>
    match ch.read k s c with
    | some (ch, c) => ((true, ch), c)
    | none => ((false, { ch with phase := .listening s k.place }), c)
  | .listening s _ =>
    match ch.read k s c with
    | some (ch, c) => ((true, ch), c)
    | none => ((false, ch), c)
  | .reacting s f =>
    withPhase (await f c (.reacting s) fun goesOn =>
      if goesOn then .reading s else ch.toLeave k s)
  | .leaving s f => withPhase (await f c (.leaving s) fun _ => .flushing s)
  | .flushing s =>
    if ch.writer.hasEnded then
      let f := Fiber.new k.broker (Session.farewell s (ch.connection c).dropped)
      withPhase (await f c .parting fun _ => .ended)
    else ((false, ch), c)
  | .parting f => withPhase (await f c .parting fun _ => .ended)
  | .ended => ((false, ch), c)

/-- Steps as long as anything comes of it. -/
def drive (k : Controls) : Nat → Channel → Cluster → (Bool × Channel) × Cluster
  | 0, ch, c => ((false, ch), c)
  | fuel + 1, ch, c =>
    match ch.step k c with
    | ((true, ch), c) =>
      let ((_, ch), c) := drive k fuel ch c
      ((true, ch), c)
    | ((false, ch), c) => ((false, ch), c)

/-- More steps than a session can take at one instant: two for each message, and a few to open, to
leave and to end. -/
def stepsAhead (ch : Channel) : Nat := 2 * ch.inbound.length + 8

/-- One step of the write side; tells whether anything came of it. -/
def write (ch : Channel) (c : Cluster) : (Bool × Channel) × Cluster :=
  match ch.writer.next? c.now (ch.connection c) with
  | none => ((false, ch), c)
  | some s =>
    let c := ch.setConnection s.connection c
    let c := (s.event.map c.log).getD c
    let ch := { ch with writer := s.writer }
    match s.frame with
    | none => ((true, ch), c)
    | some f =>
      if ch.client.state = .dropped then
        ((true, { ch with writer := { ch.writer with hasEnded := true } }),
          ch.setConnection (ch.connection c).abandon c)
      else ((true, ch.deliver (.sent f)), c)

/-- Moves the session and then the write side; tells the client of the end. -/
def poll (k : Controls) (ch : Channel) (c : Cluster) : (Bool × Channel) × Cluster :=
  if ch.hasEnded then ((false, ch), c)
  else
    let ((read, ch), c) := drive k ch.stepsAhead ch c
    let ((wrote, ch), c) := ch.write c
    let ch := if ch.hasEnded then ch.deliver .ended else ch
    ((read || wrote, ch), c)

/-- When there is something to do. -/
def due? (ch : Channel) : Option Duration :=
  let session :=
    match ch.phase with
    | .opening f => f.due?
    | .reacting _ f => f.due?
    | .leaving _ f | .parting f => f.due?
    | _ => none
  if ch.hasEnded then none else earlier session ch.writer.due?

/-- The place among those who wait. -/
def place (ch : Channel) : Nat :=
  match ch.phase with
  | .listening _ n => n
  | _ => 0

end Channel

end SessionGateway
