import SessionGateway.Cluster.Fiber
/-!
# Reconcilers

A node's reconciler runs a pass when it starts and then at every interval. A pass that begins late
by more than a few milliseconds puts off the ones after it. When it is told to stop, it ends the
pass under way and leaves the membership.
-/

namespace SessionGateway

inductive Reconciler.Phase where
  | starting (f : Fiber Unit)
  /-- The next pass is due at a time. -/
  | idle (due : Duration)
  | passing (f : Fiber Unit) (due : Duration)
  | leaving (f : Fiber Unit)
  | ended

structure Reconciler where
  lifecycle : Lifecycle
  interval : Duration
  isStopping : Bool
  phase : Reconciler.Phase

namespace Reconciler

def new (l : Lifecycle) (interval : Duration) : Reconciler :=
  ⟨l, interval, false, .starting (.new l.broker (l.startReconciling interval))⟩

/-- How late a pass may begin without putting off the next. -/
def tolerance : Duration := .ofMillis 5

/-- When the next pass is due after one that was due at a time and begins now. -/
def nextDue (r : Reconciler) (due now : Duration) : Duration :=
  if due + tolerance < now then now + r.interval else due + r.interval

def stop (r : Reconciler) : Reconciler := { r with isStopping := true }

def hasEnded (r : Reconciler) : Bool :=
  match r.phase with
  | .ended => true
  | _ => false

/-- The phase behind one that waits for a program. -/
def await (f : Fiber Unit) (c : Cluster) (before : Fiber Unit → Phase) (after : Phase) :
    (Bool × Phase) × Cluster :=
  let ((moved, f), c) := f.poll c
  ((moved, if f.endedAt.isSome then after else before f), c)

/-- Moves a phase forward. -/
def advance (r : Reconciler) (c : Cluster) : (Bool × Phase) × Cluster :=
  let b := r.lifecycle.broker
  let passing (due : Duration) (f : Fiber Unit) := await f c (fun f => .passing f due) (.idle due)
  let leaving (f : Fiber Unit) := await f c .leaving .ended
  match r.phase with
  | .starting f => await f c .starting (.idle c.now)
  | .idle due =>
    if r.isStopping then leaving (.new b r.lifecycle.leaveMembership)
    else if due ≤ c.now then passing (r.nextDue due c.now) (.new b r.lifecycle.reconcile)
    else ((false, .idle due), c)
  | .passing f due => passing due f
  | .leaving f => leaving f
  | .ended => ((false, .ended), c)

def poll (r : Reconciler) (c : Cluster) : (Bool × Reconciler) × Cluster :=
  let ((moved, p), c) := r.advance c
  ((moved, { r with phase := p }), c)

/-- When there is something to do. -/
def due? (r : Reconciler) : Option Duration :=
  match r.phase with
  | .idle t => some t
  | .starting f | .passing f _ | .leaving f => f.due?
  | .ended => none

end Reconciler

end SessionGateway
