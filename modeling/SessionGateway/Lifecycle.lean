import SessionGateway.Node
/-!
# The life of a connection

A connection that opens is classified, its credential is resolved if it is a user's, and it is
registered under the lock of its kind: in the directory first, then in the shared cache. If the
cache cannot be written, the directory entry is taken back and the user's field is pointed at a
connection that is still there, so that neither holds what the other lacks. If the lock is not had
in time, the connection stays open without being registered. Every other failure closes it.
-/

namespace SessionGateway

/-- Where a connection stands once it was opened. -/
inductive ConnectionState where
  | endUserActive
  | groupActive
  /-- Open, but not in the directory. -/
  | unregistered
  | closed
  deriving DecidableEq, Repr, Inhabited

def ConnectionState.label : ConnectionState → String
  | .endUserActive => "EndUserActive"
  | .groupActive => "GroupActive"
  | .unregistered => "Unregistered"
  | .closed => "Closed"

/-- The controller of a node's connections. -/
structure Lifecycle where
  broker : BrokerId
  cache : SessionCache
  /-- How long a registration waits for the lock of its kind. -/
  patience : Duration
  deriving Inhabited

namespace Lifecycle

open Node (ask measure cached holding)

/-! ### Registering -/

/-- Registers under the lock of a kind; counts the registrations that did not get it. -/
def registering {α : Type} (l : Lifecycle) (kind : ConnectionKind)
    (body : NodeProgram (Except OpenError α)) : NodeProgram (Except OpenError α) := do
  match ← holding kind (some l.patience) body with
  | some r => return r
  | none =>
    measure (.lockTimeouts kind) 1
    return .error (.lockTimeout l.patience)

/-- A new session is in place. -/
def countRegistered (kind : ConnectionKind) (replaced : Bool) : NodeProgram Unit := do
  measure (.registered kind) 1
  unless replaced do
    measure (.active kind) 1

/-- A session that could not be published was taken back; the one that it replaced is lost. -/
def countWithdrawn (kind : ConnectionKind) (withdrawn replaced : Bool) : NodeProgram Unit := do
  if withdrawn && replaced then
    measure (.active kind) (-1)

/-- The entry of a connection that a user still holds. -/
def survivor? (d : Directory) (userId : Int64) : Option UserEntry :=
  ((d.connectionsOfUser userId).findSome? d.userSession?).map (·.entry)

/-- Points a user's field at a connection that is still registered, or drops it with the failed
entry's if there is none. -/
def restoreUser (l : Lifecycle) (failed : UserEntry) : NodeProgram Unit := do
  let survivor := survivor? (← ask .directory) failed.userId
  let restored ←
    match survivor with
    | some e => cached (l.cache.refreshUser e)
    | none => cached (do let _ ← l.cache.forgetUser failed)
  match restored with
  | .ok () => return ()
  | .error _ =>
    Node.log (Log.warn "could not restore user cache field after rollback"
      [("user_id", SessionCache.userField failed.userId),
        ("survivor", if survivor.isSome then "true" else "false")])

/-- Puts a user's session in place and publishes it. -/
def enrolUser (l : Lifecycle) (s : UserSession) : NodeProgram (Except OpenError Principal) := do
  let replaced ← ask (.addUser s)
  match ← cached (l.cache.publishUser s.entry) with
  | .ok () =>
    Node.log (Log.info "end-user session registered"
      [("user_id", toString s.principal.userId.toInt),
        ("tenant_id", toString s.principal.tenantId.toInt)])
    countRegistered .endUser replaced
    return .ok s.principal
  | .error e =>
    let withdrawn ← ask (.withdrawUser s.entry.connection s.transport)
    countWithdrawn .endUser withdrawn replaced
    l.restoreUser s.entry
    return .error (.cache e)

/-- Resolves the credential of a user's connection and registers it. -/
def registerUser (l : Lifecycle) (id : ConnectionId) (t : Transport) :
    NodeProgram (Except OpenError Principal) := do
  match t.attributes.token? with
  | none => return .error .unclassified
  | some token =>
    match ← ask (.identify token) with
    | .error e => return .error (.identity e)
    | .ok p => l.registering .endUser (l.enrolUser ⟨.ofPrincipal id p l.broker, p, t⟩)

/-- Puts a group session in place and publishes it. -/
def enrolGroup (l : Lifecycle) (s : GroupSession) : NodeProgram (Except OpenError Unit) := do
  let replaced ← ask (.addGroup s)
  match ← cached (l.cache.refreshGroup s.entry) with
  | .ok () =>
    Node.log (Log.info "group session registered" [("group", s.entry.group)])
    countRegistered .groupSecret replaced
    return .ok ()
  | .error e =>
    let withdrawn ← ask (.withdrawGroup s.entry.connection s.transport)
    countWithdrawn .groupSecret withdrawn replaced
    return .error (.cache e)

/-- Registers a group connection. -/
def registerGroup (l : Lifecycle) (id : ConnectionId) (t : Transport) :
    NodeProgram (Except OpenError Unit) := do
  match t.attributes.group? with
  | none => return .error .unclassified
  | some group => l.registering .groupSecret (l.enrolGroup ⟨⟨id, group, l.broker⟩, t⟩)

/-! ### Opening and closing -/

/-- Classifies a connection and registers it. -/
def register (l : Lifecycle) (t : Transport) : NodeProgram (Except OpenError ConnectionState) := do
  match t.id? with
  | none => return .error .unrecognizedTransport
  | some id =>
    match t.attributes.classify with
    | none => return .error .unclassified
    | some .endUser => return (← l.registerUser id t).map fun _ => .endUserActive
    | some .groupSecret => return (← l.registerGroup id t).map fun _ => .groupActive

/-- Closes a transport; it does not matter if it was closed. -/
def closeQuietly (t : Transport) : NodeProgram Unit := do
  let _ ← ask (.close t)

/-- Brings a connection that opens to where it stands. -/
def onOpen (l : Lifecycle) (t : Transport) : NodeProgram ConnectionState := do
  match ← l.register t with
  | .ok s => return s
  | .error (.lockTimeout _) =>
    Node.log (Log.warn "registration abandoned, connection left unregistered")
    return .unregistered
  | .error e =>
    measure (.rejected e.kind) 1
    closeQuietly t
    return .closed

/-- Removes a closed connection from the directory. What the cache has of it ages out. -/
def onClose (id : ConnectionId) : NodeProgram (Option ConnectionKind) := do
  match ← ask (.remove id) with
  | none => return none
  | some kind =>
    measure (.active kind) (-1)
    Node.log (Log.info "session removed" [("conn_id", id.text), ("kind", kind.label)])
    return some kind

/-- Closes a transport that failed and removes its connection. -/
def onTransportError (t : Transport) (error : String) : NodeProgram (Option ConnectionKind) := do
  Node.log (Log.warn "transport error" [("error", error)])
  closeQuietly t
  match t.id? with
  | none => return none
  | some id => onClose id

/-! ### Publishing again -/

/-- Publishes a connection of the directory again, if it is still there; tells whether it was. -/
def republishUser (l : Lifecycle) (id : ConnectionId) : NodeProgram (Except CacheError Bool) := do
  match (← ask .directory).userSession? id with
  | none => return .ok false
  | some s => return (← cached (l.cache.publishUser s.entry)).map fun _ => true

def republishGroup (l : Lifecycle) (id : ConnectionId) : NodeProgram (Except CacheError Bool) := do
  match (← ask .directory).groupSession? id with
  | none => return .ok false
  | some s => return (← cached (l.cache.refreshGroup s.entry)).map fun _ => true

/-- Publishes connections one after another, each under the lock of its kind; how many there were.
The first failure ends the pass. -/
def republishAll (kind : ConnectionKind)
    (publish : ConnectionId → NodeProgram (Except CacheError Bool)) :
    List ConnectionId → NodeProgram (Except CacheError Nat)
  | [] => return .ok 0
  | id :: rest => do
    match ← holding kind none (publish id) with
    | some (.error e) => return .error e
    | some (.ok true) => return (← republishAll kind publish rest).map (· + 1)
    | some (.ok false) | none => republishAll kind publish rest

/-- Publishes again every connection that the directory holds when its turn comes; how many users'
and how many groups'. -/
def republish (l : Lifecycle) : NodeProgram (Except CacheError (Nat × Nat)) := do
  let users := (← ask .directory).userEntries.map (·.connection)
  match ← republishAll .endUser l.republishUser users with
  | .error e => return .error e
  | .ok m =>
    let groups := (← ask .directory).groupEntries.map (·.connection)
    return (← republishAll .groupSecret l.republishGroup groups).map fun n => (m, n)

end Lifecycle

end SessionGateway
