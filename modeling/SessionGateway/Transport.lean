import SessionGateway.Attributes
import SessionGateway.Entry
import SessionGateway.Duration
/-!
# Transports

A connection has a bounded queue of outbound texts, and can be asked to close once. A transport is a
handle on a connection: the connection itself, a relayed session bound to it, or a relayed session
that is bound to none. Two registrations hold the same transport exactly if their handles are equal.
-/

namespace SessionGateway

inductive TransportError where
  | closed
  | queueFull
  deriving DecidableEq, Repr, Inhabited

def TransportError.message : TransportError → String
  | .closed => "transport closed"
  | .queueFull => "outbound queue full"

/-- An accepted connection as its node sees it. -/
structure Connection where
  id : ConnectionId
  attributes : Attributes
  capacity : Nat
  /-- Texts accepted and not yet received, oldest first. -/
  queue : List String := []
  /-- Whether it was asked to close. -/
  isClosed : Bool := false
  /-- Whether nobody receives any more. -/
  isAbandoned : Bool := false
  /-- Texts refused because the queue was full. -/
  dropped : Nat := 0
  /-- Whether the client was heard from since this was last checked. -/
  isAlive : Bool := true
  openedAt : Duration
  lastHeard : Duration
  deriving Inhabited

namespace Connection

/-- Offers a text to the queue. -/
def send (c : Connection) (text : String) : Except TransportError Unit × Connection :=
  if c.isClosed then (.error .closed, c)
  else if c.isAbandoned then (.error .closed, c)
  else if c.queue.length < c.capacity then (.ok (), { c with queue := c.queue ++ [text] })
  else (.error .queueFull, { c with dropped := c.dropped + 1 })

def close (c : Connection) : Except TransportError Unit × Connection :=
  if c.isClosed then (.error .closed, c) else (.ok (), { c with isClosed := true })

/-- Takes all texts out of the queue. -/
def receive (c : Connection) : List String × Connection := (c.queue, { c with queue := [] })

/-- Drops the receiving end with what is queued. -/
def abandon (c : Connection) : Connection := { c with isAbandoned := true, queue := [] }

/-- The client was heard from. -/
def markAlive (c : Connection) (now : Duration) : Connection :=
  { c with isAlive := true, lastHeard := now }

/-- Whether the client was heard from since the last check. -/
def checkAlive (c : Connection) : Bool × Connection := (c.isAlive, { c with isAlive := false })

/-- A ping is due: whether the client has been silent for longer than the timeout, so that the
connection is to close instead. -/
def isIdle (c : Connection) (now timeout : Duration) : Bool × Connection :=
  let (alive, c) := c.checkAlive
  (!alive && timeout < now - c.lastHeard, c)

end Connection

/-- A handle on a connection. -/
structure Transport where
  handle : Nat
  /-- The id and the number of the connection behind the handle. -/
  link : Option (ConnectionId × Nat)
  attributes : Attributes
  deriving Inhabited

def Transport.id? (t : Transport) : Option ConnectionId := t.link.map Prod.fst

/-- The connections of a process by number. -/
abbrev Connections := Table Nat Connection

namespace Transport

/-- Sends through a handle; an unbound one counts as closed. -/
def send (t : Transport) (text : String) (cs : Connections) :
    Except TransportError Unit × Connections :=
  match t.link.bind fun l => (cs.get? l.2).map fun c => (l.2, c) with
  | none => (.error .closed, cs)
  | some (n, c) =>
    let (r, c) := c.send text
    (r, cs.insert n c)

/-- Closes through a handle; an unbound one counts as closed. -/
def close (t : Transport) (cs : Connections) : Except TransportError Unit × Connections :=
  match t.link.bind fun l => (cs.get? l.2).map fun c => (l.2, c) with
  | none => (.error .closed, cs)
  | some (n, c) =>
    let (r, c) := c.close
    (r, cs.insert n c)

end Transport

end SessionGateway
