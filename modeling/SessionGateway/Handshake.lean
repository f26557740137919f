import SessionGateway.Attributes
import SessionGateway.Text.Blank
import SessionGateway.Text.Form
/-!
# Handshake

How an upgrade request becomes the attributes of its connection. The credential is the parameter
`access_token`, else the parameter `token`, else what an Authorization header bears; an empty one is
none. The secret and the group are copied as they are.
-/

namespace SessionGateway

/-- The query parameters and headers of an upgrade request. -/
structure Handshake where
  query : Table String String
  /-- The headers in order; a value is text whose UTF-8 bytes were sent. -/
  headers : List (String × String)

namespace Handshake

/-- The parameters of a query, which a fragment may follow; of a repeated name the last value
counts. -/
def queryOf (query : String) : Table String String :=
  .ofList (Text.Form.pairs (String.ofList (query.toList.takeWhile (· ≠ '#'))))

/-- Whether the value of a header can be read as text. -/
def isReadable (value : String) : Bool :=
  value.toList.all fun c => (0x20 ≤ c.toNat && c.toNat ≤ 0x7e) || c = '\t'

/-- The name of a header in lower case; names are ASCII. -/
def lowerName (s : String) : List Char := s.toList.map Char.toLower

/-- The value of the first header of a name. -/
def header? (h : Handshake) (name : String) : Option String :=
  (h.headers.find? fun x => lowerName x.1 = name.toList).map Prod.snd

/-- The rest of a text behind a given start. -/
def behind? (start : String) (s : String) : Option (List Char) :=
  if start.toList.isPrefixOf s.toList then some (s.toList.drop start.toList.length) else none

/-- The credential of the first Authorization header, without blanks around it. -/
def bearer? (h : Handshake) : Option String := do
  let value ← (h.header? "authorization").filter isReadable
  let rest ← behind? "Bearer " value <|> behind? "bearer " value
  return String.ofList (Text.trimChars rest)

/-- The credential of the first of the three places that has one, if it is not empty. -/
def credential? (h : Handshake) : Option String :=
  (h.query.get? "access_token" <|> h.query.get? Attributes.tokenKey <|> h.bearer?).filter (· ≠ "")

/-- Copies a query parameter, if it is there. -/
def copy (h : Handshake) (a : Attributes) (name : String) : Attributes :=
  match h.query.get? name with
  | some value => a.insert name value
  | none => a

def attributes (h : Handshake) : Attributes :=
  let base :=
    match h.credential? with
    | some token => Attributes.empty.insert Attributes.tokenKey token
    | none => .empty
  h.copy (h.copy base Attributes.secretKey) Attributes.groupKey

/-- Whether the request is to be refused: it names a secret, and not the expected one. -/
def isForged (expected : Option String) (a : Attributes) : Bool :=
  match expected, a.secret? with
  | some secret, some given => secret ≠ given
  | _, _ => false

end Handshake

end SessionGateway
