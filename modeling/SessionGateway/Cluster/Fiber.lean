import SessionGateway.Cluster.Basic
/-!
# Fibers

A fiber is a program under way on a node. It is moved forward until its next request has to wait,
and goes on when the time has come or the lock is had. A lock that was passed on counts as had even
when the patience ends at the same instant.
-/

namespace SessionGateway

/-- What the first request of a fiber is waiting for. -/
inductive Wait where
  /-- Nothing: it was not made yet. -/
  | nothing
  /-- The program begins at a time. -/
  | start (t : Duration)
  /-- The request is answered at a time. -/
  | answer (t : Duration)
  /-- A lock, for which it has a ticket, until a deadline. -/
  | lock (ticket : Nat) (deadline : Option Duration)
  deriving DecidableEq, Repr, Inhabited

/-- The time at which there is something to do. -/
def Wait.due? : Wait → Option Duration
  | .nothing => none
  | .start t | .answer t => some t
  | .lock _ deadline => deadline

/-- What comes of trying to have a request answered. -/
inductive Attempt (α : Type) where
  | answered (a : α) (c : Cluster)
  | waiting (w : Wait) (c : Cluster)

namespace Cluster

/-- Waits for a lock under a ticket. -/
def await (c : Cluster) (b : BrokerId) (kind : ConnectionKind) (ticket : Nat)
    (deadline : Option Duration) : Attempt Bool :=
  let l := (c.site b).lock kind
  if l.isHeldBy ticket then .answered true c
  else
    match deadline with
    | none => .waiting (.lock ticket none) c
    | some t =>
      if t ≤ c.now then .answered false (c.setLock b kind (l.abandon ticket))
      else .waiting (.lock ticket (some t)) c

/-- Waits for the time of an answer. -/
def answerAt (c : Cluster) (b : BrokerId) (r : Node.Request) (t : Duration) : Attempt r.Answer :=
  if t ≤ c.now then
    let (x, c) := perform b r c
    .answered x c
  else .waiting (.answer t) c

/-- Tries to have a request answered. -/
def attempt (b : BrokerId) : (r : Node.Request) → Wait → Cluster → Attempt r.Answer
  | .acquire kind _, .lock ticket deadline, c => c.await b kind ticket deadline
  | .acquire kind patience, _, c =>
    let (ticket, l) := ((c.site b).lock kind).join
    (c.setLock b kind l).await b kind ticket (patience.map (c.now + ·))
  | r, .answer t, c => c.answerAt b r t
  | r, _, c => (c.begin r).answerAt b r (c.now + c.delayOf r)

end Cluster

structure Fiber (α : Type) where
  node : BrokerId
  program : NodeProgram α
  wait : Wait
  /-- When the program ended. -/
  endedAt : Option Duration

namespace Fiber

def new {α : Type} (node : BrokerId) (p : NodeProgram α) : Fiber α := ⟨node, p, .nothing, none⟩

/-- A fiber that begins at a time. -/
def later {α : Type} (node : BrokerId) (t : Duration) (p : NodeProgram α) : Fiber α :=
  ⟨node, p, .start t, none⟩

/-- Answers requests until one has to wait; `moved` tells whether any was answered. -/
def goOn {α : Type} (node : BrokerId) (moved : Bool) :
    NodeProgram α → Wait → Cluster → (Bool × Fiber α) × Cluster
  | .done a, _, c => ((true, ⟨node, .done a, .nothing, some c.now⟩), c)
  | .ask r next, w, c =>
    match Cluster.attempt node r w c with
    | .answered x c => goOn node true (next x) .nothing c
    | .waiting w c => ((moved, ⟨node, .ask r next, w, none⟩), c)

/-- Moves a fiber forward; tells whether anything came of it. -/
def poll {α : Type} (f : Fiber α) (c : Cluster) : (Bool × Fiber α) × Cluster :=
  match f.endedAt, f.wait with
  | some _, _ => ((false, f), c)
  | none, .start t =>
    if t ≤ c.now then goOn f.node false f.program .nothing c else ((false, f), c)
  | none, w => goOn f.node false f.program w c

/-- When there is something to do for a fiber. -/
def due? {α : Type} (f : Fiber α) : Option Duration :=
  if f.endedAt.isSome then none else f.wait.due?

def result? {α : Type} (f : Fiber α) : Option α :=
  match f.program with
  | .done a => some a
  | .ask .. => none

end Fiber

end SessionGateway
