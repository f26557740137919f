import SessionGateway.Session
import SessionGateway.Writer
/-!
# Clients

A client at the other end of a connection. It reads what it is sent at once unless it is muted, and
answers pings and closes by itself. After its own close it waits for the end and heeds no close.
-/

namespace SessionGateway

/-- What a client reads. -/
inductive ClientFrame where
  | sent (f : Outbound)
  /-- The connection is over. -/
  | ended
  deriving DecidableEq, Repr, Inhabited

/-- How a client stands to its connection. -/
inductive ClientState where
  | connected
  /-- It was told that the server closes. -/
  | toldToClose
  /-- It sent a close of its own. -/
  | closing
  /-- It dropped its socket. -/
  | dropped
  /-- It read the end. -/
  | finished
  deriving DecidableEq, Repr, Inhabited

structure Client where
  name : String
  state : ClientState
  isMuted : Bool
  /-- What it has not read yet, first come first. -/
  unread : List ClientFrame
  /-- What it has read, newest first. -/
  read : List ClientFrame
  deriving Inhabited

namespace Client

def new (name : String) : Client := ⟨name, .connected, false, [], []⟩

def isConnected (c : Client) : Bool := c.state = .connected

/-- Whether anything can reach it. -/
def isReachable (c : Client) : Bool := c.state ≠ .dropped && c.state ≠ .finished

/-- Whether it takes note of a frame in its state. -/
def heeds (c : Client) : ClientFrame → Bool
  | .sent .close => c.state ≠ .closing
  | _ => true

/-- Reads one frame; gives what it sends by itself. -/
def take (c : Client) (f : ClientFrame) : Client × List Inbound :=
  let c := if c.heeds f then { c with read := f :: c.read } else c
  match f with
  | .sent .ping => (c, if c.state = .connected then [.pong []] else [])
  | .sent .close =>
    if c.state = .connected then ({ c with state := .toldToClose }, [.close]) else (c, [])
  | .ended => ({ c with state := .finished }, [])
  | _ => (c, [])

/-- Reads frames one after another. -/
def takeAll : List ClientFrame → Client → Client × List Inbound
  | [], c => (c, [])
  | f :: rest, c =>
    let (c, here) := c.take f
    let (c, there) := takeAll rest c
    (c, here ++ there)

/-- A frame arrives; gives what the client sends by itself. -/
def arrive (c : Client) (f : ClientFrame) : Client × List Inbound :=
  if !c.isReachable then (c, [])
  else if c.isMuted then ({ c with unread := c.unread ++ [f] }, [])
  else c.take f

/-- Reads again, beginning with what has piled up. -/
def unmute (c : Client) : Client × List Inbound :=
  takeAll c.unread { c with isMuted := false, unread := [] }

end Client

end SessionGateway
