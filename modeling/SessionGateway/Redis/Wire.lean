import SessionGateway.Cache
import SessionGateway.Redis.Address
import SessionGateway.Redis.Reply
/-!
# The session cache on a Redis server

How each command of the store is put to a Redis server. Setting a field and starting the time of its
key anew is one transaction. Deleting a field in one step with checking what it holds is a script,
which the server is asked for by its digest; a server that does not know it is given its text.
-/

namespace SessionGateway.Redis

inductive Request where
  /-- Opens the connection; tells whether a server took it. -/
  | dial (a : Address)
  | command (words : List String)
  /-- Commands that are carried out together. -/
  | transaction (commands : List (List String))

abbrev Request.Answer : Request → Type
  | .dial _ => Bool
  | .command _ => Outcome
  | .transaction _ => Outcome

/-- What comes of a request where no server is reached. -/
def unreachable : (r : Request) → r.Answer
  | .dial _ => false
  | .command _ => none
  | .transaction _ => none

abbrev interface : Interface := ⟨Request, Request.Answer⟩

/-- A conversation with a Redis server. -/
abbrev Conversation (α : Type) : Type := Program interface α

def send (words : List String) : Conversation Outcome :=
  Program.request (I := interface) (.command words)

def sendTogether (commands : List (List String)) : Conversation Outcome :=
  Program.request (I := interface) (.transaction commands)

/-- The time to live as it is sent: whole milliseconds, at least one. -/
def millisText (ttl : Duration) : String := toString (max 1 (min ttl.millis (UInt64.size - 1)))

/-- Deletes a field that holds a value. -/
def deleteIfScript : String :=
  "if redis.call('HGET', KEYS[1], ARGV[1]) == ARGV[2] then
            return redis.call('HDEL', KEYS[1], ARGV[1])
        end
        return 0"

/-- The SHA-1 digest of the script. -/
def deleteIfDigest : String := "26bbe37298207e16cfb53b3515db14f1e07f11b2"

/-- Runs the script; if the server does not know it, the server is given it first. -/
def runDeleteIf (key field expected : String) : Conversation (Except CacheError Bool) := do
  let call := ["EVALSHA", deleteIfDigest, "1", key, field, expected]
  let first ← send call
  if (first.map Reply.isUnknownScript).getD false then
    match (← send ["SCRIPT", "LOAD", deleteIfScript]).read Reply.done? with
    | .error e => return .error e
    | .ok () => return (← send call).read Reply.isRemoval?
  else return first.read Reply.isRemoval?

/-- Puts a command of the store to the server. Keys whose time has passed are gone by themselves. -/
def perform : (c : Store.Command) → Conversation (Store.Result c)
  | .hashPut key field value ttl => do
    return (← sendTogether [["HSET", key, field, value], ["PEXPIRE", key, millisText ttl]]).read
      Reply.executed?
  | .hashGet key field => do return (← send ["HGET", key, field]).read Reply.optionalText?
  | .hashGetAll key => do return (← send ["HGETALL", key]).read Reply.fields?
  | .hashDelete key field => do return (← send ["HDEL", key, field]).read Reply.isRemoval?
  | .hashDeleteIf key field expected => runDeleteIf key field expected
  | .put key value ttl => do
    return (← send ["SET", key, value, "PX", millisText ttl]).read Reply.done?
  | .get key => do return (← send ["GET", key]).read Reply.optionalText?
  | .delete key => do return (← send ["DEL", key]).read Reply.isRemoval?
  | .purgeExpired => return .ok (0 : Nat)

/-- Greets the server that took the connection. -/
def greet : List (List String) → Conversation (Except CacheError Unit)
  | [] => return .ok ()
  | words :: rest => do
    match (← send words).read Reply.done? with
    | .ok () => greet rest
    | .error e => return .error e

def connected (url : String) : Log.Event := Log.info "connected to redis" [("url", redact url)]

/-- Connects to the server at an address, and tells what is logged. -/
def connect (url : String) : Conversation (Except CacheError Log.Event) := do
  match Address.ofUrl? url with
  | none => return .error .redis
  | some a =>
    if ← Program.request (I := interface) (.dial a) then
      match ← greet a.greeting with
      | .ok () => return .ok (connected url)
      | .error e => return .error e
    else return .error .redis

/-- Asks the server for a sign of life. -/
def ping : Conversation (Except CacheError Unit) := do
  return ((← send ["PING"]).read Reply.text?).map fun _ => ()

end SessionGateway.Redis
