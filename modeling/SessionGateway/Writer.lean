import SessionGateway.Transport
import SessionGateway.Log
/-!
# The write side of a session

The writer sends the texts that wait in a connection's queue, a ping at every interval and a close
when the connection was asked to close. A ping that is due to a client silent for too long closes
the connection instead.
-/

namespace SessionGateway

/-- What is sent to a client. -/
inductive Outbound where
  | text (s : String)
  | ping
  | pong (payload : List UInt8)
  | close
  deriving DecidableEq, Repr, Inhabited

structure Writer where
  interval : Duration
  /-- How long a client may be silent. -/
  timeout : Duration
  nextPing : Duration
  hasEnded : Bool
  deriving Inhabited

namespace Writer

/-- A writer that starts at a time; the first ping is an interval away. Without an interval it ends
at once. -/
def start (interval timeout now : Duration) : Writer :=
  ⟨interval, timeout, now + interval, interval = .zero⟩

def unresponsive (w : Writer) : Log.Event :=
  Log.warn ("client unresponsive for " ++ w.timeout.text ++ ", disconnecting") []

/-- What a writer does next. -/
structure Step where
  event : Option Log.Event
  frame : Option Outbound
  writer : Writer
  connection : Connection

/-- The next thing to do at a time, if there is any. -/
def next? (w : Writer) (now : Duration) (c : Connection) : Option Step :=
  if w.hasEnded then none
  else if c.isClosed then some ⟨none, some .close, { w with hasEnded := true }, c.abandon⟩
  else
    match c.queue with
    | text :: rest => some ⟨none, some (.text text), w, { c with queue := rest }⟩
    | [] =>
      if w.nextPing ≤ now then
        let (idle, c) := c.isIdle now w.timeout
        let w := { w with nextPing := w.nextPing + w.interval }
        if idle then some ⟨some w.unresponsive, none, w, c.close.2⟩
        else some ⟨none, some .ping, w, c⟩
      else none

def due? (w : Writer) : Option Duration := if w.hasEnded then none else some w.nextPing

end Writer

end SessionGateway
