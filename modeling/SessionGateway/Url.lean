import SessionGateway.Text.Decimal
import SessionGateway.Text.Form
import SessionGateway.Url.Host
/-!
# Addresses of services

How the address of a service is read: the scheme, who asks, the host, the port, the path and the
query. In a web address a backslash is a slash, any number of slashes stand before the host, and
there must be one. Dots in a path walk in it, and what may not stand in a part is percent-encoded.
The fragment behind `#` belongs to no request and is dropped.
-/

namespace SessionGateway

structure Url where
  scheme : String
  user : String
  /-- None if it is empty. -/
  password : Option String
  host : Option String
  /-- None if it is the usual one of the scheme. -/
  port : Option Nat
  path : String
  query : Option String
  deriving DecidableEq, Repr, Inhabited

namespace Url

/-- The schemes of web addresses and the port that each usually has. -/
def webPorts : List (String × Nat) :=
  [("http", 80), ("https", 443), ("ws", 80), ("wss", 443), ("ftp", 21)]

def isWeb (scheme : String) : Bool := webPorts.any fun e => e.1 = scheme

def isReservedInPath (c : Char) : Bool :=
  " \"<>`#?".toList.contains c || c.toNat = 0x7b || c.toNat = 0x7d

def isReservedInQuery (isWeb : Bool) (c : Char) : Bool :=
  " \"#<>".toList.contains c || (isWeb && c.toNat = 0x27)

def isReservedInUser (c : Char) : Bool := isReservedInPath c || "/:;=@[\\]^|".toList.contains c

/-- A text without control characters and spaces at its ends and without tabs and line ends. -/
def cleaned (s : List Char) : List Char :=
  let isEdge (c : Char) : Bool := c.toNat ≤ 0x20
  ((s.dropWhile isEdge).reverse.dropWhile isEdge).reverse.filter fun c =>
    c ≠ '\t' && c ≠ '\n' && c ≠ '\r'

/-- The scheme in lower case and what follows its colon. -/
def scheme? (s : List Char) : Option (String × List Char) := do
  let (name, rest) ← Text.atFirst? ':' s
  let isWord (c : Char) : Bool := c.isAlphanum || c = '+' || c = '-' || c = '.'
  if (name.head?.map Char.isAlpha).getD false && name.all isWord then
    some (String.ofList (name.map Char.toLower), rest)
  else none

/-- The dot segments, escapes included. -/
def isDot (segment : List Char) : Bool :=
  let s := segment.map Char.toLower
  s = ['.'] || s = "%2e".toList

def isDotDot (segment : List Char) : Bool :=
  let s := segment.map Char.toLower
  s ∈ ["..", ".%2e", "%2e.", "%2e%2e"].map String.toList

/-- Walks along the segments of a path; a dot at the end leaves a slash there. -/
def walk (done : List (List Char)) : List (List Char) → List (List Char)
  | [] => done.reverse
  | [s] =>
    if isDotDot s then ([] :: done.tail).reverse
    else if isDot s then ([] :: done).reverse
    else (s :: done).reverse
  | s :: rest =>
    if isDotDot s then walk done.tail rest
    else if isDot s then walk done rest
    else walk (s :: done) rest

/-- The path as it is sent. -/
def pathOf (isWeb : Bool) (s : List Char) : String :=
  let s := if isWeb then s.map fun c => if c = '\\' then '/' else c else s
  let s := match s with
    | '/' :: rest => some rest
    | s => if isWeb || s ≠ [] then some s else none
  match s with
  | none => ""
  | some s =>
    String.ofList ((walk [] (Text.partsAt '/' s)).flatMap fun segment =>
      '/' :: Text.Percent.encode isReservedInPath segment)

/-- The port behind a host; none stands for the usual one. -/
def port? (scheme : String) (s : List Char) : Option (Option Nat) :=
  if s = [] then some none
  else do
    let n ← (Text.digits? s).filter (· < UInt16.size)
    return if (scheme, n) ∈ webPorts then none else some n

/-- The host and the port of an address; a colon between brackets divides nothing. -/
def hostAndPort (s : List Char) : List Char × List Char :=
  match Text.atLast? ':' s with
  | some (host, port) => if port.contains ']' then (s, []) else (host, port)
  | none => (s, [])

/-- The address that a scheme and the text behind its host mark give. -/
def ofAuthority? (scheme : String) (authority path : List Char) (query : Option String) :
    Option Url := do
  let web := isWeb scheme
  let (who, place) := (Text.atLast? '@' authority).getD ([], authority)
  let (user, password) := (Text.atFirst? ':' who).getD (who, [])
  let escaped (s : List Char) : String := String.ofList (Text.Percent.encode isReservedInUser s)
  let (host, port) := hostAndPort place
  let port ← port? scheme port
  if host = [] && (web || authority ≠ []) then none
  else
    let host ← if host = [] then some none else (host? web host).map some
    return {
      scheme, host, port, query
      user := escaped user
      password := if password = [] then none else some (escaped password)
      path := pathOf web path }

/-- Reads an address. -/
def parse? (text : String) : Option Url := do
  let (scheme, rest) ← scheme? (cleaned text.toList)
  let web := isWeb scheme
  let rest := rest.takeWhile (· ≠ '#')
  let (place, query) :=
    match Text.atFirst? '?' rest with
    | some (place, query) =>
      (place, some (String.ofList (Text.Percent.encode (isReservedInQuery web) query)))
    | none => (rest, none)
  let isSlash (c : Char) : Bool := c = '/' || (web && c = '\\')
  let ofHost (s : List Char) : Option Url :=
    ofAuthority? scheme (s.takeWhile (!isSlash ·)) (s.dropWhile (!isSlash ·)) query
  if web then ofHost (place.dropWhile isSlash)
  else
    match place with
    | '/' :: '/' :: s => ofHost s
    | '/' :: _ => some ⟨scheme, "", none, none, none, pathOf false place, query⟩
    | s =>
      let path := String.ofList (Text.Percent.encode (fun _ => false) s)
      some ⟨scheme, "", none, none, none, path, query⟩

/-- What is asked of the host: the path and the query. -/
def target (u : Url) : String :=
  match u.query with
  | some q => u.path ++ "?" ++ q
  | none => u.path

/-- Adds a parameter behind the query. -/
def addParameter (u : Url) (name value : String) : Url :=
  let pair := String.ofList (Text.Form.encode name ++ '=' :: Text.Form.encode value)
  let query :=
    match u.query with
    | none | some "" => pair
    | some q => q ++ "&" ++ pair
  { u with query := some query }

end Url

end SessionGateway
