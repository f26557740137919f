import SessionGateway.Cluster.Reconciler
import SessionGateway.EventLoop
/-!
# A cluster at work

Programs run on a cluster beside the reconcilers of its nodes. They are moved forward in the order
in which they were given, and then the reconcilers.
-/

namespace SessionGateway

/-- Moves tasks forward in turn; tells whether anything came of it. -/
def pollAll {τ : Type} (poll : τ → Cluster → (Bool × τ) × Cluster) :
    List τ → Cluster → (Bool × List τ) × Cluster
  | [], c => ((false, []), c)
  | t :: rest, c =>
    let ((here, t), c) := poll t c
    let ((there, rest), c) := pollAll poll rest c
    ((here || there, t :: rest), c)

structure Stage where
  cluster : Cluster
  reconcilers : List Reconciler

namespace Stage

def empty : Stage := ⟨.empty, []⟩

instance : Inhabited Stage := ⟨empty⟩

def setTime (t : Duration) (s : Stage) : Stage := { s with cluster := s.cluster.setTime t }

def round (s : Stage) : Bool × Stage :=
  let ((moved, rs), c) := pollAll Reconciler.poll s.reconcilers s.cluster
  (moved, ⟨c, rs⟩)

def due? (s : Stage) : Option Duration := earliest (s.reconcilers.map (·.due?))

def loop : EventLoop Stage := ⟨round, due?, setTime⟩

/-- The loop of some fibers and the stage. -/
def loopWith (α : Type) : EventLoop (List (Fiber α) × Stage) where
  round := fun (fs, s) =>
    let ((here, fs), c) := pollAll Fiber.poll fs s.cluster
    let (there, s) := { s with cluster := c }.round
    (here || there, fs, s)
  due? := fun (fs, s) => earlier (earliest (fs.map (·.due?))) s.due?
  setTime := fun t (fs, s) => (fs, s.setTime t)

/-- Runs fibers to their ends. -/
def runAll {α : Type} (fs : List (Fiber α)) (s : Stage) : List (Fiber α) × Stage :=
  (loopWith α).runWhile (fun (fs, _) => fs.any fun f => f.endedAt.isNone) EventLoop.plenty (fs, s)

/-- Runs a program on a node to its end. -/
def run {α : Type} (b : BrokerId) (p : NodeProgram α) (s : Stage) : Option α × Stage :=
  let (fs, s) := s.runAll [.new b p]
  (fs.head?.bind (·.result?), s)

/-- Lets a span of time pass. -/
def pass (d : Duration) (s : Stage) : Stage :=
  loop.runTo (s.cluster.now + d) EventLoop.plenty s

/-- Starts the reconciler of a node. -/
def startReconciler (l : Lifecycle) (interval : Duration) (s : Stage) : Stage :=
  loop.settle EventLoop.plenty { s with reconcilers := s.reconcilers ++ [.new l interval] }

def isRunning (b : BrokerId) (r : Reconciler) : Bool := r.lifecycle.broker = b && !r.hasEnded

/-- Stops the reconciler of a node and waits for its end; tells whether there was one. -/
def stopReconciler (b : BrokerId) (s : Stage) : Bool × Stage :=
  if s.reconcilers.any (isRunning b) then
    let stopping := s.reconcilers.map fun r => if isRunning b r then r.stop else r
    (true, loop.runWhile (fun s => s.reconcilers.any (isRunning b)) EventLoop.plenty
      { s with reconcilers := stopping })
  else (false, s)

end Stage

end SessionGateway
