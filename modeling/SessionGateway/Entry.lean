import SessionGateway.Principal
import SessionGateway.Json.Render
/-!
# Directory entries

What the directory records of a connection and what the shared cache is told about it. In the cache
an entry carries a stamp, the time from which it no longer counts.
-/

namespace SessionGateway

/-- A connection, named by its transport; unique within one node. -/
structure ConnectionId where
  text : String
  deriving DecidableEq, Repr, Inhabited

/-- A gateway node of the cluster. -/
structure BrokerId where
  text : String
  deriving DecidableEq, Repr, Inhabited

namespace ConnectionId

def decode : Json.Decoder ConnectionId := fun d => (Json.Decoder.text d).map ConnectionId.mk

def toJson (id : ConnectionId) : Json := .text id.text

end ConnectionId

namespace BrokerId

def decode : Json.Decoder BrokerId := fun d => (Json.Decoder.text d).map BrokerId.mk

def toJson (id : BrokerId) : Json := .text id.text

end BrokerId

structure UserEntry where
  connection : ConnectionId
  tenantId : Int64
  userId : Int64
  roleId : Option Int64
  credential : String
  /-- The node that holds the connection. -/
  owner : BrokerId
  deriving DecidableEq, Repr, Inhabited

structure GroupEntry where
  connection : ConnectionId
  group : String
  owner : BrokerId
  deriving DecidableEq, Repr, Inhabited

namespace UserEntry

/-- The entry of a principal that connects to a node. -/
def ofPrincipal (connection : ConnectionId) (p : Principal) (owner : BrokerId) : UserEntry :=
  ⟨connection, p.tenantId, p.userId, p.roleId, p.credential, owner⟩

def fieldNames : List String :=
  ["connectionId", "tenantId", "userId", "roleId", "credential", "owner"]

def ofFields? (fs : Json.Fields) : Option UserEntry := do
  let connection ← fs.required 0 ConnectionId.decode
  let tenantId ← fs.required 1 Json.Decoder.int64
  let userId ← fs.required 2 Json.Decoder.int64
  let roleId ← fs.optional 3 Json.Decoder.int64
  let credential ← fs.required 4 Json.Decoder.text
  let owner ← fs.required 5 BrokerId.decode
  return ⟨connection, tenantId, userId, roleId, credential, owner⟩

def decode : Json.Decoder UserEntry := fun d =>
  (Json.Fields.ofDocument? fieldNames d).bind ofFields?

def members (e : UserEntry) : List (String × Option Json) :=
  [("connectionId", some e.connection.toJson),
    ("tenantId", some (.int e.tenantId.toInt)),
    ("userId", some (.int e.userId.toInt)),
    ("roleId", e.roleId.map fun r => .int r.toInt),
    ("credential", some (.text e.credential)),
    ("owner", some e.owner.toJson)]

def toJson (e : UserEntry) : Json := .ofFields e.members

end UserEntry

namespace GroupEntry

def fieldNames : List String := ["connectionId", "group", "owner"]

def ofFields? (fs : Json.Fields) : Option GroupEntry := do
  let connection ← fs.required 0 ConnectionId.decode
  let group ← fs.required 1 Json.Decoder.text
  let owner ← fs.required 2 BrokerId.decode
  return ⟨connection, group, owner⟩

def decode : Json.Decoder GroupEntry := fun d =>
  (Json.Fields.ofDocument? fieldNames d).bind ofFields?

def members (e : GroupEntry) : List (String × Option Json) :=
  [("connectionId", some e.connection.toJson),
    ("group", some (.text e.group)),
    ("owner", some e.owner.toJson)]

def toJson (e : GroupEntry) : Json := .ofFields e.members

end GroupEntry

/-- An entry with the time, in milliseconds since 1970, from which it no longer counts. -/
structure Stamped (α : Type) where
  entry : α
  expiresAt : Int64
  deriving DecidableEq, Repr

namespace Stamped

def stampKey : String := "expiresAt"

/-- The text of an entry's members followed by the stamp. -/
def render (members : List (String × Option Json)) (expiresAt : Int64) : String :=
  (Json.ofFields (members ++ [(stampKey, some (.int expiresAt.toInt))])).render

/-- Reads a stamped entry. It must be an object, and every member that is not the stamp or the
entry's own must have a value. -/
def read? {α : Type} (names : List String) (ofFields? : Json.Fields → Option α) (text : String) :
    Option (Stamped α) :=
  match Json.Document.read? text with
  | some (.object members) => do
    let fs ← Json.Fields.ofDocument? (names ++ [stampKey]) (.object members)
    let _ ← Json.otherMembers? (names ++ [stampKey]) members
    let entry ← ofFields? fs
    let expiresAt ← fs.required names.length Json.Decoder.int64
    return ⟨entry, expiresAt⟩
  | _ => none

def readUser? : String → Option (Stamped UserEntry) :=
  read? UserEntry.fieldNames UserEntry.ofFields?

def readGroup? : String → Option (Stamped GroupEntry) :=
  read? GroupEntry.fieldNames GroupEntry.ofFields?

/-- The stamp alone, read from any object whatever else it holds. -/
def stampOf? (text : String) : Option Int64 := do
  let j ← Json.read? text
  let n ← (← j.get? stampKey).int?
  Text.int64OfInt? n

end Stamped

end SessionGateway
