import SessionGateway.Table
import SessionGateway.Json.Decode
/-!
# Handshake attributes

The named texts that a connection brought along in its upgrade request. They are fixed before the
connection opens and say which kind of connection it is.
-/

namespace SessionGateway

/-- Whom a connection stands for: a user with a bearer credential, or a service that shares a
secret and joins a group. -/
inductive ConnectionKind where
  | endUser
  | groupSecret
  deriving DecidableEq, Repr, Inhabited

namespace ConnectionKind

/-- The name in logs and metrics. -/
def label : ConnectionKind → String
  | .endUser => "end_user"
  | .groupSecret => "group_secret"

/-- The name in documents. -/
def wireName : ConnectionKind → String
  | .endUser => "endUser"
  | .groupSecret => "groupSecret"

def decode : Json.Decoder ConnectionKind :=
  .choice ([.endUser, .groupSecret].map fun k => (k.wireName, k))

def toJson (k : ConnectionKind) : Json := .text k.wireName

end ConnectionKind

/-- A finite map from attribute names to values. -/
structure Attributes where
  entries : Table String String

namespace Attributes

def tokenKey : String := "token"

def secretKey : String := "secretKey"

def groupKey : String := "group"

def empty : Attributes := ⟨.empty⟩

instance : Inhabited Attributes := ⟨empty⟩

def ofList (pairs : List (String × String)) : Attributes := ⟨.ofList pairs⟩

def insert (a : Attributes) (name value : String) : Attributes := ⟨a.entries.insert name value⟩

def get? (a : Attributes) (name : String) : Option String := a.entries.get? name

def contains (a : Attributes) (name : String) : Bool := a.entries.contains name

def size (a : Attributes) : Nat := a.entries.size

def token? (a : Attributes) : Option String := a.get? tokenKey

def secret? (a : Attributes) : Option String := a.get? secretKey

def group? (a : Attributes) : Option String := a.get? groupKey

/-- The attributes in the order of their names. -/
def toList (a : Attributes) : List (String × String) :=
  a.entries.entries.mergeSort fun x y => decide (x.1 ≤ y.1)

/-- Whether an attribute is there and not empty. -/
def isGiven (value : Option String) : Bool :=
  match value with
  | some s => s ≠ ""
  | none => false

/-- The kind of connection that the attributes describe: a token comes first, else both a secret
and a group are needed. -/
def classify (a : Attributes) : Option ConnectionKind :=
  if isGiven a.token? then some .endUser
  else if isGiven a.secret? && isGiven a.group? then some .groupSecret
  else none

/-- Reads an object that holds texts only; of a repeated name the last value counts. -/
def decode : Json.Decoder Attributes
  | .object members => read .empty members
  | _ => none
where
  read (a : Attributes) : List (Option String × Json.Document) → Option Attributes
    | [] => some a
    | (some name, .text (some value)) :: rest => read (a.insert name value) rest
    | _ => none

def toJson (a : Attributes) : Json := .object (a.toList.map fun e => (e.1, .text e.2))

end Attributes

end SessionGateway
