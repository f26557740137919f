import SessionGateway.Json.Decode
/-!
# Principals

The identity behind a bearer credential, as the identity service tells it.
-/

namespace SessionGateway

structure Principal where
  userId : Int64
  tenantId : Int64
  roleId : Option Int64
  username : Option String
  /-- The credential that the principal was resolved from. -/
  credential : String
  deriving DecidableEq, Repr, Inhabited

/-- A credential as logs may show it: its first eight characters, and a mark if there were more. -/
def maskCredential (credential : String) : String :=
  let cs := credential.toList
  if cs.length ≤ 8 then credential else String.ofList (cs.take 8 ++ ['…'])

namespace Principal

def maskedCredential (p : Principal) : String := maskCredential p.credential

def fieldNames : List String := ["userId", "tenantId", "roleId", "username", "credential"]

def decode : Json.Decoder Principal := fun d => do
  let fs ← Json.Fields.ofDocument? fieldNames d
  let userId ← fs.required 0 Json.Decoder.int64
  let tenantId ← fs.required 1 Json.Decoder.int64
  let roleId ← fs.optional 2 Json.Decoder.int64
  let username ← fs.optional 3 Json.Decoder.text
  let credential ← fs.required 4 Json.Decoder.text
  return ⟨userId, tenantId, roleId, username, credential⟩

def toJson (p : Principal) : Json :=
  .ofFields [
    ("userId", some (.int p.userId.toInt)),
    ("tenantId", some (.int p.tenantId.toInt)),
    ("roleId", p.roleId.map fun r => .int r.toInt),
    ("username", p.username.map .text),
    ("credential", some (.text p.credential))]

end Principal

end SessionGateway
