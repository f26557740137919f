import SessionGateway.Duration
import SessionGateway.Log
/-!
# Shutting down

A node that shuts down tells every session and every task to stop, and drains: it waits for its
sessions and then for the tasks it was given, all within one timeout. A job either works at once or
waits until it is told to stop, and then works for a while.
-/

namespace SessionGateway

namespace Shutdown

/-- How long draining may take unless it is told. -/
def defaultTimeout : Duration := .ofSeconds 30

def draining (sessions tasks : Nat) (timeout : Duration) : Log.Event :=
  Log.info "draining" [("sessions", toString sessions), ("tasks", toString tasks),
    ("timeout_secs", toString timeout.seconds)]

def timedOut (timeout : Duration) (sessionsLeft : Nat) : Log.Event :=
  Log.warn ("shutdown timed out after " ++ timeout.text)
    [("sessions_left", toString sessionsLeft)]

end Shutdown

structure Job where
  name : String
  /-- Whether it is a session, or a task for the next drain. -/
  isSession : Bool
  startedAt : Duration
  /-- Whether it works only once it is told to stop. -/
  waits : Bool
  work : Duration
  deriving DecidableEq, Repr, Inhabited

/-- When a job ends, given when it is told to stop. -/
def Job.end? (j : Job) (stoppedAt : Option Duration) : Option Duration :=
  if j.waits then
    stoppedAt.map fun t => (if t < j.startedAt then j.startedAt else t) + j.work
  else some (j.startedAt + j.work)

/-- The jobs of a node and whether they were told to stop. -/
structure Coordinator where
  now : Duration
  stoppedAt : Option Duration
  jobs : List Job
  /-- The tasks for the next drain. -/
  pending : List Job
  /-- What was logged, newest first. -/
  events : List Log.Event
  deriving Inhabited

namespace Coordinator

def new : Coordinator := ⟨.zero, none, [], [], []⟩

def isStopping (c : Coordinator) : Bool := c.stoppedAt.isSome

/-- Whether a job has ended by a time. -/
def hasEndedBy (c : Coordinator) (t : Duration) (j : Job) : Bool :=
  match j.end? c.stoppedAt with
  | some e => e ≤ t
  | none => false

/-- The number of sessions that have not ended. -/
def openSessions (c : Coordinator) : Nat :=
  c.jobs.countP fun j => j.isSession && !c.hasEndedBy c.now j

def spawn (c : Coordinator) (j : Job) : Coordinator :=
  { c with
    jobs := c.jobs ++ [j]
    pending := if j.isSession then c.pending else c.pending ++ [j] }

/-- Tells everything to stop. -/
def stop (c : Coordinator) : Coordinator := { c with stoppedAt := c.stoppedAt.or (some c.now) }

def pass (c : Coordinator) (d : Duration) : Coordinator := { c with now := c.now + d }

/-- The jobs that have ended, each with its place among the jobs and its end. -/
def ended (c : Coordinator) : List (Nat × Job × Duration) :=
  c.jobs.zipIdx.filterMap fun (j, i) =>
    match j.end? c.stoppedAt with
    | some e => if e ≤ c.now then some (i, j, e) else none
    | none => none

/-- The time at which all of some jobs have ended. -/
def allEndedAt (c : Coordinator) (js : List Job) : Option Duration :=
  js.foldl (fun latest j =>
    match latest, j.end? c.stoppedAt with
    | some t, some e => some (if t < e then e else t)
    | _, _ => none) (some c.now)

/-- Stops and waits until the sessions and the pending tasks have ended, or for the timeout; tells
which it was. -/
def drain (c : Coordinator) (timeout : Duration) : Bool × Coordinator :=
  let c := c.stop
  let notice := Shutdown.draining c.openSessions c.pending.length timeout
  let awaited := c.jobs.filter (fun j => j.isSession) ++ c.pending
  let c := { c with pending := [], events := notice :: c.events }
  let deadline := c.now + timeout
  match c.allEndedAt awaited with
  | some t =>
    if t ≤ deadline then (true, { c with now := t })
    else
      let c := { c with now := deadline }
      (false, { c with events := Shutdown.timedOut timeout c.openSessions :: c.events })
  | none =>
    let c := { c with now := deadline }
    (false, { c with events := Shutdown.timedOut timeout c.openSessions :: c.events })

end Coordinator

end SessionGateway
