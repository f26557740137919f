import SessionGateway.Principal
import SessionGateway.Failure
import SessionGateway.Text.Blank
/-!
# The identity service's response

How a principal is found in the body of a response. The user's details stand under `details` or
`principal` if such an object knows a user id, and at the top otherwise. Ids may be integers or
decimal texts between blanks, and the tenant may be called an organization.
-/

namespace SessionGateway.Identity

/-- Why a credential was not resolved. -/
inductive Error where
  /-- The service was not reached, or not in time. -/
  | http (timeout : Bool)
  /-- The service answered with a status other than success. -/
  | rejected (status : Nat) (body : String)
  /-- The response names no principal. -/
  | noPrincipal (reason : String)
  /-- The response is not a JSON value. -/
  | malformed
  deriving DecidableEq, Repr, Inhabited

namespace Error

def message : Error → String
  | .http _ => "identity service request failed"
  | .rejected status body =>
    "identity service rejected credential (" ++ toString status ++ "): " ++ body
  | .noPrincipal reason => "no principal in identity response: " ++ reason
  | .malformed => "invalid identity response"

def kind (_ : Error) : FailureKind := .authentication

end Error

/-- An id given as an integer or as the text of one. -/
def idOf? : Json → Option Int64
  | .number (.int n) => Text.int64OfInt? n
  | .text s => Text.int64? (Text.trimChars s.toList)
  | _ => none

/-- The first usable id among some keys. -/
def firstId? (details : Json) (keys : List String) : Option Int64 :=
  keys.findSome? fun k => (details.get? k).bind idOf?

/-- The object under a key, if it knows a user id. -/
def detailsUnder? (root : Json) (key : String) : Option Json :=
  (root.get? key).filter fun j => (j.get? "userId").isSome

/-- The object that holds the user's details. -/
def detailsOf (root : Json) : Json :=
  (["details", "principal"].findSome? (detailsUnder? root)).getD root

/-- The principal that a response body describes, with an empty credential. -/
def principalOf (body : Json) : Except Error Principal :=
  match body.members? with
  | none => .error (.noPrincipal "response is not an object")
  | some _ =>
    let details := detailsOf body
    match firstId? details ["userId"] with
    | none => .error (.noPrincipal "missing userId")
    | some userId =>
      match firstId? details ["tenantId", "organizationId"] with
      | none => .error (.noPrincipal "missing tenantId")
      | some tenantId => .ok {
          userId, tenantId
          roleId := firstId? details ["roleId"]
          username := ["username", "user_name"].findSome? fun k =>
            (details.get? k).bind Json.text?
          credential := "" }

end SessionGateway.Identity
