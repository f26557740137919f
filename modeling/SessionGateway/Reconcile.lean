import SessionGateway.Lifecycle
/-!
# Reconciliation

A pass makes the shared cache agree with a node again: it renews the node's heartbeat, publishes its
connections again, prunes what is stale in its buckets and drops expired keys from the store. A node
runs a pass when it starts and then at every interval, and leaves the membership when it stops.
-/

namespace SessionGateway

/-- What a pass did. -/
structure ReconcileReport where
  users : Nat
  groups : Nat
  pruned : Nat
  swept : Nat
  deriving DecidableEq, Repr, Inhabited

namespace Lifecycle

open Node (measure cached)

/-- One pass; the first failure ends it. -/
def tick (l : Lifecycle) : NodeProgram (Except CacheError ReconcileReport) :=
  ExceptT.run do
    ExceptT.mk (cached (l.cache.registerBroker l.broker))
    let (users, groups) ← ExceptT.mk l.republish
    let pruned ← ExceptT.mk (cached (l.cache.prune l.broker))
    let swept ← ExceptT.mk (cached SessionCache.purgeStore)
    return ⟨users, groups, pruned, swept⟩

/-- A pass whose end is counted. -/
def reconcile (l : Lifecycle) : NodeProgram Unit := do
  match ← l.tick with
  | .ok r =>
    measure (.passes true) 1
    measure .pruned r.pruned
    measure .swept r.swept
  | .error _ =>
    measure (.passes false) 1
    Node.log (Log.warn "reconciliation failed")

/-- Announces that passes begin. -/
def startReconciling (l : Lifecycle) (interval : Duration) : NodeProgram Unit :=
  Node.log (Log.info "reconciler started"
    [("broker_id", l.broker.text), ("interval_secs", toString interval.seconds)])

/-- Leaves the membership of the cluster. -/
def leaveMembership (l : Lifecycle) : NodeProgram Unit := do
  match ← cached (l.cache.deregisterBroker l.broker) with
  | .ok _ => Node.log (Log.info "left broker membership" [("broker_id", l.broker.text)])
  | .error _ => Node.log (Log.warn "failed to leave broker membership")

end Lifecycle

end SessionGateway
