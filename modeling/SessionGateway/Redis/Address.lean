import SessionGateway.Url
/-!
# Addresses of Redis servers

What the address in a node's settings says of its Redis server: the host and the port, who asks and
with which password, and the number of the database. In logs the text between the scheme and the
host is replaced, since it may hold the password.
-/

namespace SessionGateway.Redis

structure Address where
  host : String
  port : Nat
  user : Option String
  password : Option String
  database : Int64
  deriving DecidableEq, Repr, Inhabited

namespace Address

def schemes : List String := ["redis", "valkey"]

def usualPort : Nat := 6379

/-- The number of the database that a path names. -/
def database? (path : String) : Option Int64 :=
  let s := ((path.toList.dropWhile (· = '/')).reverse.dropWhile (· = '/')).reverse
  if s = [] then some 0 else Text.int64? s

def ofUrl? (text : String) : Option Address := do
  let u ← (Url.parse? text).filter fun u => u.scheme ∈ schemes
  let host ← u.host
  let database ← database? u.path
  let plain (s : String) : String := Text.Percent.decode s.toList
  return {
    host, database
    port := u.port.getD usualPort
    user := if u.user = "" then none else some (plain u.user)
    password := u.password.map plain }

/-- The commands that a new connection begins with: a password is shown, and a database other than
the first one chosen. -/
def greeting (a : Address) : List (List String) :=
  (a.password.map fun p => "AUTH" :: a.user.toList ++ [p]).toList ++
    (if a.database = 0 then [] else [["SELECT", toString a.database]])

end Address

/-- The text before and from behind the first mark between a scheme and a host. -/
def atScheme? : List Char → Option (List Char × List Char)
  | [] => none
  | ':' :: '/' :: '/' :: rest => some ([], rest)
  | c :: rest => (atScheme? rest).map fun e => (c :: e.1, e.2)

/-- An address in which whatever stands before the last at sign of what follows the scheme is
replaced. -/
def redact (url : String) : String :=
  match atScheme? url.toList with
  | none => url
  | some (scheme, rest) =>
    match Text.atLast? '@' rest with
    | none => url
    | some (_, place) => String.ofList (scheme ++ "://***@".toList ++ place)

end SessionGateway.Redis
