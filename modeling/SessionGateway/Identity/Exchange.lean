import SessionGateway.Identity.Response
import SessionGateway.Json.Document
import SessionGateway.Text.Base64
import SessionGateway.Url
/-!
# Asking the identity service

A credential is sent to the service's address as a parameter and as a bearer, and the service's
response becomes a principal. Any status other than success refuses the credential; the start of
what the service said about it is kept.
-/

namespace SessionGateway.Identity

/-- A request for the principal of a credential. -/
structure Request where
  target : String
  /-- The values of the Authorization headers in order. -/
  authorization : List String
  deriving DecidableEq, Repr

/-- Whether a text can be sent as the value of a header. -/
def isSendable (text : String) : Bool :=
  text.toList.all fun c => c = '\t' || (0x20 ≤ c.toNat && c.toNat ≠ 0x7f)

/-- What an address tells of who asks, as an Authorization header. -/
def basic? (u : Url) : Option String :=
  if u.user = "" && u.password.isNone then none
  else
    let plain (s : String) : String := Text.Percent.decode s.toList
    let who := plain u.user ++ ":" ++ plain (u.password.getD "")
    some ("Basic " ++ String.ofList (Text.Base64.encode (Text.Utf8.encode who)))

/-- The request about a credential, if the address and the credential can be sent. -/
def request? (endpoint credential : String) : Option Request := do
  let u ← (Url.parse? endpoint).filter fun u => u.scheme = "http" || u.scheme = "https"
  if isSendable credential then
    return {
      target := (u.addParameter "access_token" credential).target
      authorization := (basic? u).toList ++ ["bearer " ++ credential] }
  else none

/-- What came of a request. -/
inductive Delivery where
  /-- The service was not reached. -/
  | failed
  /-- The service did not answer in time. -/
  | late
  /-- The service answered; the body may have broken off. -/
  | response (status : Nat) (body : List UInt8) (isWhole : Bool)
  deriving DecidableEq, Repr

/-- How many characters of a refusal are kept. -/
def keptOfRefusal : Nat := 256

/-- The statuses of responses that have no body. -/
def isBodiless (status : Nat) : Bool := status = 204 || status = 304

/-- What the body of a refusal says; one that broke off says nothing. -/
def refusalText (body : List UInt8) (isWhole : Bool) : String :=
  if isWhole then String.ofList ((Text.Utf8.decodeLossy body).toList.take keptOfRefusal) else ""

/-- The principal of a credential in the body of a success. -/
def accept (credential : String) (body : List UInt8) : Except Error Principal :=
  match (Text.Utf8.decode? body).bind Json.read? with
  | none => .error .malformed
  | some j => (principalOf j).map fun p => { p with credential := credential }

/-- Reads what came of the request about a credential. -/
def receive (credential : String) : Delivery → Except Error Principal
  | .failed => .error (.http false)
  | .late => .error (.http true)
  | .response status body isWhole =>
    let (body, isWhole) := if isBodiless status then ([], true) else (body, isWhole)
    if 200 ≤ status ∧ status < 300 then
      if isWhole then accept credential body else .error (.http false)
    else .error (.rejected status (refusalText body isWhole))

/-- Resolves a credential over a network: what was sent, and what came of it. -/
def authenticate (network : Request → Delivery) (endpoint credential : String) :
    Except Error Principal :=
  match request? endpoint credential with
  | none => .error (.http false)
  | some r => receive credential (network r)

end SessionGateway.Identity
