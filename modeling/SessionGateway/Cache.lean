import SessionGateway.Store.Basic
import SessionGateway.Program
import SessionGateway.Log
/-!
# The session cache

What the cluster knows of its sessions. Each node writes into its own two buckets only, so nodes
never overwrite each other:

* the group bucket, a hash from group to the entry of the connection that joined it last;
* the user bucket, a hash from user id to the entry of the connection that registered last;
* one key for each connection, with the entry of its user;
* one hash shared by all nodes, from broker id to the time of its last heartbeat.

A living node keeps its buckets alive, so every entry in them carries its own stamp. Readers skip
entries whose stamp has passed. Pruning deletes a field only while it still holds the stale text
that was read, so a refresh in between survives.
-/

namespace SessionGateway

namespace Cache

/-- What the cache asks of its surroundings. -/
inductive Request where
  | store (c : Store.Command)
  /-- The time in milliseconds since 1970. -/
  | wallClock
  | log (e : Log.Event)

abbrev Request.Answer : Request → Type
  | .store c => Store.Result c
  | .wallClock => Int64
  | .log _ => Unit

abbrev interface : Interface := ⟨Request, Request.Answer⟩

/-- An operation on the cache: a conversation with the store that may fail. -/
abbrev Operation (α : Type) : Type := ExceptT CacheError (Program interface) α

def command (c : Store.Command) : Operation c.Answer :=
  ExceptT.mk (Program.request (I := interface) (.store c))

def wallClock : Operation Int64 := ExceptT.lift (Program.request (I := interface) .wallClock)

def log (e : Log.Event) : Operation Unit :=
  ExceptT.lift (Program.request (I := interface) (.log e))

/-- The nearest 64-bit integer. -/
def clamp (n : Int) : Int64 :=
  Int64.ofInt (max Int64.minValue.toInt (min Int64.maxValue.toInt n))

end Cache

/-- A view of the cache: where its keys begin and how long entries last. -/
structure SessionCache where
  keyStart : String
  ttl : Duration
  deriving DecidableEq, Repr, Inhabited

namespace SessionCache

open Cache (Operation)

def groupBucket (c : SessionCache) (b : BrokerId) : String :=
  c.keyStart ++ ":brokerServerSession:" ++ b.text

def userBucket (c : SessionCache) (b : BrokerId) : String :=
  c.keyStart ++ ":brokerUserSession:" ++ b.text

def connectionKey (c : SessionCache) (id : ConnectionId) : String :=
  c.keyStart ++ ":sessionUser:" ++ id.text

def brokersKey (c : SessionCache) : String := c.keyStart ++ ":brokers"

def userField (userId : Int64) : String := toString userId.toInt

/-- The stamp of an entry that is written at a time. -/
def stampAt (c : SessionCache) (now : Int64) : Int64 :=
  Cache.clamp (now.toInt + (Cache.clamp c.ttl.millis).toInt)

/-- The time before which a heartbeat is too old. -/
def cutoffAt (c : SessionCache) (now : Int64) : Int64 :=
  Cache.clamp (now.toInt - (Cache.clamp c.ttl.millis).toInt)

/-! ### Writing -/

def refreshGroup (c : SessionCache) (e : GroupEntry) : Operation Unit := do
  let now ← Cache.wallClock
  Cache.command (.hashPut (c.groupBucket e.owner) e.group
    (Stamped.render e.members (c.stampAt now)) c.ttl)

def refreshUser (c : SessionCache) (e : UserEntry) : Operation Unit := do
  let now ← Cache.wallClock
  Cache.command (.hashPut (c.userBucket e.owner) (userField e.userId)
    (Stamped.render e.members (c.stampAt now)) c.ttl)

/-- Writes whose connection it is. -/
def refreshConnection (c : SessionCache) (e : UserEntry) : Operation Unit :=
  Cache.command (.put (c.connectionKey e.connection) e.toJson.render c.ttl)

/-- Makes a user connection known in both places. -/
def publishUser (c : SessionCache) (e : UserEntry) : Operation Unit := do
  c.refreshUser e
  c.refreshConnection e

/-- Writes a heartbeat. -/
def registerBroker (c : SessionCache) (b : BrokerId) : Operation Unit := do
  let now ← Cache.wallClock
  Cache.command (.hashPut c.brokersKey b.text (toString now.toInt) c.ttl)

def deregisterBroker (c : SessionCache) (b : BrokerId) : Operation Bool :=
  Cache.command (.hashDelete c.brokersKey b.text)

/-- Whether a stored text is the entry of a connection. -/
def names (text : String) (id : ConnectionId) : Bool :=
  match Stamped.readUser? text with
  | some s => s.entry.connection = id
  | none => false

/-- Deletes what is known of a user connection; the user's field only while it names that
connection. Tells whether the field went. -/
def forgetUser (c : SessionCache) (e : UserEntry) : Operation Bool := do
  let _ ← Cache.command (.delete (c.connectionKey e.connection))
  let key := c.userBucket e.owner
  let field := userField e.userId
  match ← Cache.command (.hashGet key field) with
  | none => return false
  | some text =>
    if names text e.connection then Cache.command (.hashDeleteIf key field text)
    else return false

def purgeStore : Operation Nat := Cache.command .purgeExpired

/-! ### Reading -/

/-- The brokers whose heartbeat is not too old, in the order of their ids. -/
def brokers (c : SessionCache) : Operation (List BrokerId) := do
  let cutoff := c.cutoffAt (← Cache.wallClock)
  let beats ← Cache.command (.hashGetAll c.brokersKey)
  let living := beats.filter fun b =>
    match Text.int64? b.2.toList with
    | some t => cutoff ≤ t
    | none => false
  return (living.map fun b => BrokerId.mk b.1).mergeSort fun a b => decide (a.text ≤ b.text)

def undecodable (key field : String) : Log.Event :=
  Log.warn "skipping undecodable cache entry" [("key", key), ("field", field)]

/-- The entries among some fields that count at a time; an undecodable one is skipped with a
warning. -/
def liveAmong {α : Type} (read? : String → Option (Stamped α)) (key : String) (now : Int64) :
    List (String × String) → Operation (List α)
  | [] => return []
  | (field, text) :: rest =>
    match read? text with
    | none => do
      Cache.log (undecodable key field)
      liveAmong read? key now rest
    | some s => do
      let others ← liveAmong read? key now rest
      return if now < s.expiresAt then s.entry :: others else others

def liveFields {α : Type} (read? : String → Option (Stamped α)) (key : String) :
    Operation (List α) := do
  let now ← Cache.wallClock
  liveAmong read? key now (← Cache.command (.hashGetAll key))

def groups (c : SessionCache) (b : BrokerId) : Operation (List GroupEntry) :=
  liveFields Stamped.readGroup? (c.groupBucket b)

def users (c : SessionCache) (b : BrokerId) : Operation (List UserEntry) :=
  liveFields Stamped.readUser? (c.userBucket b)

/-- The entry in one field, if it counts. -/
def liveField {α : Type} (read? : String → Option (Stamped α)) (key field : String) :
    Operation (Option α) := do
  match ← Cache.command (.hashGet key field) with
  | none => return none
  | some text =>
    match read? text with
    | none => do
      Cache.log (undecodable key field)
      return none
    | some s => do
      let now ← Cache.wallClock
      return if now < s.expiresAt then some s.entry else none

/-- The entry of the user behind a connection. -/
def userOf (c : SessionCache) (id : ConnectionId) : Operation (Option UserEntry) := do
  match ← Cache.command (.get (c.connectionKey id)) with
  | none => return none
  | some text =>
    match (Json.Document.read? text).bind UserEntry.decode with
    | some e => return some e
    | none => throw .malformed

/-- The entries that the buckets of some brokers hold in one field. -/
def locateIn {α : Type} (read? : String → Option (Stamped α)) (bucket : BrokerId → String)
    (field : String) : List BrokerId → Operation (List α)
  | [] => return []
  | b :: rest => do
    let found ← liveField read? (bucket b) field
    let others ← locateIn read? bucket field rest
    return found.toList ++ others

/-- The entry that every living broker has for a user. -/
def locateUser (c : SessionCache) (userId : Int64) : Operation (List UserEntry) := do
  locateIn Stamped.readUser? c.userBucket (userField userId) (← c.brokers)

def locateGroup (c : SessionCache) (group : String) : Operation (List GroupEntry) := do
  locateIn Stamped.readGroup? c.groupBucket group (← c.brokers)

/-! ### Pruning -/

/-- Whether a stored text no longer counts at a time, or never did. -/
def isStale (now : Int64) (text : String) : Bool :=
  match Stamped.stampOf? text with
  | some t => t ≤ now
  | none => true

/-- Deletes the stale ones among fields that were read; how many went. -/
def pruneAmong (key : String) (now : Int64) : List (String × String) → Operation Nat
  | [] => return 0
  | (field, text) :: rest => do
    let gone ← if isStale now text then Cache.command (.hashDeleteIf key field text) else pure false
    let others ← pruneAmong key now rest
    return (if gone then 1 else 0) + others

/-- Deletes the stale fields of a broker's buckets; how many went. -/
def prune (c : SessionCache) (b : BrokerId) : Operation Nat := do
  let now ← Cache.wallClock
  let groups ← pruneAmong (c.groupBucket b) now
    (← Cache.command (.hashGetAll (c.groupBucket b)))
  let users ← pruneAmong (c.userBucket b) now (← Cache.command (.hashGetAll (c.userBucket b)))
  return groups + users

end SessionCache

end SessionGateway
