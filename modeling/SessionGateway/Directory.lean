import SessionGateway.Transport
/-!
# The directory of a node

Which connections a node holds, each under its id: users with their principal, and members of
groups. The directory is the source of truth; the shared cache is derived from it and may lag
behind. One user may hold several connections, and so may one group.
-/

namespace SessionGateway

structure UserSession where
  entry : UserEntry
  principal : Principal
  transport : Transport
  deriving Inhabited

structure GroupSession where
  entry : GroupEntry
  transport : Transport
  deriving Inhabited

structure Directory where
  broker : BrokerId
  users : Table ConnectionId UserSession
  groups : Table ConnectionId GroupSession

namespace Directory

def empty (broker : BrokerId) : Directory := ⟨broker, .empty, .empty⟩

instance : Inhabited Directory := ⟨empty default⟩

/-! ### Registering and removing -/

/-- Registers a user connection; a session already under its id is replaced. -/
def addUser (d : Directory) (s : UserSession) : Directory :=
  { d with users := d.users.insert s.entry.connection s }

/-- Registers a group connection; a session already under its id is replaced. -/
def addGroup (d : Directory) (s : GroupSession) : Directory :=
  { d with groups := d.groups.insert s.entry.connection s }

/-- Removes a connection from the scope that holds it, users first. -/
def remove (d : Directory) (id : ConnectionId) : Option ConnectionKind × Directory :=
  if d.users.contains id then (some .endUser, { d with users := d.users.erase id })
  else if d.groups.contains id then (some .groupSecret, { d with groups := d.groups.erase id })
  else (none, d)

/-- Removes a user connection only while it still has the given transport. -/
def withdrawUser (d : Directory) (id : ConnectionId) (t : Transport) : Bool × Directory :=
  match d.users.get? id with
  | some s =>
    if s.transport.handle = t.handle then (true, { d with users := d.users.erase id })
    else (false, d)
  | none => (false, d)

/-- Removes a group connection only while it still has the given transport. -/
def withdrawGroup (d : Directory) (id : ConnectionId) (t : Transport) : Bool × Directory :=
  match d.groups.get? id with
  | some s =>
    if s.transport.handle = t.handle then (true, { d with groups := d.groups.erase id })
    else (false, d)
  | none => (false, d)

/-! ### Looking up -/

def kindOf (d : Directory) (id : ConnectionId) : Option ConnectionKind :=
  if d.users.contains id then some .endUser
  else if d.groups.contains id then some .groupSecret
  else none

def contains (d : Directory) (id : ConnectionId) : Bool := (d.kindOf id).isSome

def userSession? (d : Directory) (id : ConnectionId) : Option UserSession := d.users.get? id

def groupSession? (d : Directory) (id : ConnectionId) : Option GroupSession := d.groups.get? id

def userCount (d : Directory) : Nat := d.users.size

def groupCount (d : Directory) : Nat := d.groups.size

def userEntries (d : Directory) : List UserEntry := d.users.values.map (·.entry)

def groupEntries (d : Directory) : List GroupEntry := d.groups.values.map (·.entry)

/-- The sessions of a user, each under the id of its connection. -/
def sessionsOfUser (d : Directory) (userId : Int64) : List (ConnectionId × UserSession) :=
  d.users.entries.filter fun e => e.2.entry.userId = userId

/-- The sessions of a group, each under the id of its connection. -/
def sessionsOfGroup (d : Directory) (group : String) : List (ConnectionId × GroupSession) :=
  d.groups.entries.filter fun e => e.2.entry.group = group

def connectionsOfUser (d : Directory) (userId : Int64) : List ConnectionId :=
  (d.sessionsOfUser userId).map Prod.fst

def connectionsOfGroup (d : Directory) (group : String) : List ConnectionId :=
  (d.sessionsOfGroup group).map Prod.fst

/-! ### Sending -/

/-- Offers a text to each transport in turn; how many queues gained it. -/
def deliverAll (text : String) : List Transport → Connections → Nat × Connections
  | [], cs => (0, cs)
  | t :: rest, cs =>
    let (r, cs) := t.send text cs
    let (n, cs) := deliverAll text rest cs
    (n + if r.isOk then 1 else 0, cs)

/-- The transport of a connection, users first. -/
def transport? (d : Directory) (id : ConnectionId) : Option Transport :=
  ((d.users.get? id).map (·.transport)).or ((d.groups.get? id).map (·.transport))

/-- Sends to one connection; whether its queue gained the text. -/
def sendToConnection (d : Directory) (id : ConnectionId) (text : String) (cs : Connections) :
    Bool × Connections :=
  match d.transport? id with
  | some t =>
    let (r, cs) := t.send text cs
    (r.isOk, cs)
  | none => (false, cs)

/-- Sends to every connection of a user; how many queues gained the text. -/
def sendToUser (d : Directory) (userId : Int64) (text : String) (cs : Connections) :
    Nat × Connections :=
  deliverAll text ((d.sessionsOfUser userId).map (·.2.transport)) cs

/-- Sends to every connection of a group; how many queues gained the text. -/
def sendToGroup (d : Directory) (group : String) (text : String) (cs : Connections) :
    Nat × Connections :=
  deliverAll text ((d.sessionsOfGroup group).map (·.2.transport)) cs

end Directory

end SessionGateway
