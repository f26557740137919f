import SessionGateway.Json.Decode
import SessionGateway.Duration
/-!
# Settings

The settings of a node in their sections, with the defaults that are compiled in, and how they are
read from and written to documents. Every section and every field may be left out.
-/

namespace SessionGateway

open Json (Decoder Fields)

/-- Where the shared session cache lives. -/
inductive CacheBackend where
  | memory
  | redis
  deriving DecidableEq, Repr, Inhabited

namespace CacheBackend

def label : CacheBackend → String
  | .memory => "memory"
  | .redis => "redis"

def all : List CacheBackend := [.memory, .redis]

def decode : Decoder CacheBackend := .choice (all.map fun b => (b.label, b))

end CacheBackend

inductive LogFormat where
  | compact
  | json
  deriving DecidableEq, Repr, Inhabited

namespace LogFormat

def label : LogFormat → String
  | .compact => "compact"
  | .json => "json"

def all : List LogFormat := [.compact, .json]

def decode : Decoder LogFormat := .choice (all.map fun f => (f.label, f))

end LogFormat

structure NodeSettings where
  /-- The broker id; one is generated for the process if it is not set. -/
  brokerId : Option String := none
  deriving DecidableEq, Repr, Inhabited

structure ServerSettings where
  host : String := "0.0.0.0"
  port : UInt16 := 8260
  wsPath : String := "/websocket"
  maxMessageSize : UInt64 := 1048576
  pingIntervalSecs : UInt64 := 30
  pongTimeoutSecs : UInt64 := 60
  sendQueueCapacity : UInt64 := 256
  deriving DecidableEq, Repr, Inhabited

structure AuthSettings where
  oauthUrl : String := "http://127.0.0.1:8020/oauth/api/user"
  requestTimeoutMs : UInt64 := 5000
  deriving DecidableEq, Repr, Inhabited

structure SecuritySettings where
  /-- The secret that group connections must present; any will do if it is not set. -/
  secretKey : Option String := none
  deriving DecidableEq, Repr, Inhabited

structure CacheSettings where
  backend : CacheBackend := .memory
  redisUrl : String := "redis://127.0.0.1:6379/0"
  keyPrefix : String := "conduit:websocket"
  entryTtlSecs : UInt64 := 300
  reconcileIntervalSecs : UInt64 := 60
  deriving DecidableEq, Repr, Inhabited

structure RegistrationSettings where
  lockTimeoutMs : UInt64 := 10000
  deriving DecidableEq, Repr, Inhabited

structure DispatchSettings where
  heartbeat : String := "heartbeat"
  processorTimeoutMs : UInt64 := 30000
  deriving DecidableEq, Repr, Inhabited

structure LoggingSettings where
  level : String := "info"
  format : LogFormat := .compact
  deriving DecidableEq, Repr, Inhabited

structure Settings where
  node : NodeSettings := {}
  server : ServerSettings := {}
  auth : AuthSettings := {}
  security : SecuritySettings := {}
  cache : CacheSettings := {}
  registration : RegistrationSettings := {}
  dispatch : DispatchSettings := {}
  logging : LoggingSettings := {}
  deriving DecidableEq, Repr, Inhabited

namespace Json

def uint64 (n : UInt64) : Json := .nat n.toNat

def uint16 (n : UInt16) : Json := .nat n.toNat

end Json

namespace NodeSettings

def fieldNames : List String := ["brokerId"]

def decode : Decoder NodeSettings := fun d => do
  let fs ← Fields.ofDocument? fieldNames d
  let brokerId ← fs.optional 0 Decoder.text
  return ⟨brokerId⟩

def toJson (s : NodeSettings) : Json := .ofFields [("brokerId", s.brokerId.map .text)]

end NodeSettings

namespace ServerSettings

def fieldNames : List String :=
  ["host", "port", "wsPath", "maxMessageSize", "pingIntervalSecs", "pongTimeoutSecs",
    "sendQueueCapacity"]

def decode : Decoder ServerSettings := fun d => do
  let base : ServerSettings := {}
  let fs ← Fields.ofDocument? fieldNames d
  let host ← fs.withDefault 0 Decoder.text base.host
  let port ← fs.withDefault 1 Decoder.uint16 base.port
  let wsPath ← fs.withDefault 2 Decoder.text base.wsPath
  let maxMessageSize ← fs.withDefault 3 Decoder.uint64 base.maxMessageSize
  let pingIntervalSecs ← fs.withDefault 4 Decoder.uint64 base.pingIntervalSecs
  let pongTimeoutSecs ← fs.withDefault 5 Decoder.uint64 base.pongTimeoutSecs
  let sendQueueCapacity ← fs.withDefault 6 Decoder.uint64 base.sendQueueCapacity
  return ⟨host, port, wsPath, maxMessageSize, pingIntervalSecs, pongTimeoutSecs,
    sendQueueCapacity⟩

def toJson (s : ServerSettings) : Json :=
  .object [
    ("host", .text s.host),
    ("port", .uint16 s.port),
    ("wsPath", .text s.wsPath),
    ("maxMessageSize", .uint64 s.maxMessageSize),
    ("pingIntervalSecs", .uint64 s.pingIntervalSecs),
    ("pongTimeoutSecs", .uint64 s.pongTimeoutSecs),
    ("sendQueueCapacity", .uint64 s.sendQueueCapacity)]

end ServerSettings

namespace AuthSettings

def fieldNames : List String := ["oauthUrl", "requestTimeoutMs"]

def decode : Decoder AuthSettings := fun d => do
  let base : AuthSettings := {}
  let fs ← Fields.ofDocument? fieldNames d
  let oauthUrl ← fs.withDefault 0 Decoder.text base.oauthUrl
  let requestTimeoutMs ← fs.withDefault 1 Decoder.uint64 base.requestTimeoutMs
  return ⟨oauthUrl, requestTimeoutMs⟩

def toJson (s : AuthSettings) : Json :=
  .object [("oauthUrl", .text s.oauthUrl), ("requestTimeoutMs", .uint64 s.requestTimeoutMs)]

end AuthSettings

namespace SecuritySettings

def fieldNames : List String := ["secretKey"]

def decode : Decoder SecuritySettings := fun d => do
  let fs ← Fields.ofDocument? fieldNames d
  let secretKey ← fs.optional 0 Decoder.text
  return ⟨secretKey⟩

def toJson (s : SecuritySettings) : Json := .ofFields [("secretKey", s.secretKey.map .text)]

end SecuritySettings

namespace CacheSettings

def fieldNames : List String :=
  ["backend", "redisUrl", "keyPrefix", "entryTtlSecs", "reconcileIntervalSecs"]

def decode : Decoder CacheSettings := fun d => do
  let base : CacheSettings := {}
  let fs ← Fields.ofDocument? fieldNames d
  let backend ← fs.withDefault 0 CacheBackend.decode base.backend
  let redisUrl ← fs.withDefault 1 Decoder.text base.redisUrl
  let keyPrefix ← fs.withDefault 2 Decoder.text base.keyPrefix
  let entryTtlSecs ← fs.withDefault 3 Decoder.uint64 base.entryTtlSecs
  let reconcileIntervalSecs ← fs.withDefault 4 Decoder.uint64 base.reconcileIntervalSecs
  return ⟨backend, redisUrl, keyPrefix, entryTtlSecs, reconcileIntervalSecs⟩

def toJson (s : CacheSettings) : Json :=
  .object [
    ("backend", .text s.backend.label),
    ("redisUrl", .text s.redisUrl),
    ("keyPrefix", .text s.keyPrefix),
    ("entryTtlSecs", .uint64 s.entryTtlSecs),
    ("reconcileIntervalSecs", .uint64 s.reconcileIntervalSecs)]

end CacheSettings

namespace RegistrationSettings

def fieldNames : List String := ["lockTimeoutMs"]

def decode : Decoder RegistrationSettings := fun d => do
  let base : RegistrationSettings := {}
  let fs ← Fields.ofDocument? fieldNames d
  let lockTimeoutMs ← fs.withDefault 0 Decoder.uint64 base.lockTimeoutMs
  return ⟨lockTimeoutMs⟩

def toJson (s : RegistrationSettings) : Json := .object [("lockTimeoutMs", .uint64 s.lockTimeoutMs)]

end RegistrationSettings

namespace DispatchSettings

def fieldNames : List String := ["heartbeat", "processorTimeoutMs"]

def decode : Decoder DispatchSettings := fun d => do
  let base : DispatchSettings := {}
  let fs ← Fields.ofDocument? fieldNames d
  let heartbeat ← fs.withDefault 0 Decoder.text base.heartbeat
  let processorTimeoutMs ← fs.withDefault 1 Decoder.uint64 base.processorTimeoutMs
  return ⟨heartbeat, processorTimeoutMs⟩

def toJson (s : DispatchSettings) : Json :=
  .object [("heartbeat", .text s.heartbeat), ("processorTimeoutMs", .uint64 s.processorTimeoutMs)]

end DispatchSettings

namespace LoggingSettings

def fieldNames : List String := ["level", "format"]

def decode : Decoder LoggingSettings := fun d => do
  let base : LoggingSettings := {}
  let fs ← Fields.ofDocument? fieldNames d
  let level ← fs.withDefault 0 Decoder.text base.level
  let format ← fs.withDefault 1 LogFormat.decode base.format
  return ⟨level, format⟩

def toJson (s : LoggingSettings) : Json :=
  .object [("level", .text s.level), ("format", .text s.format.label)]

end LoggingSettings

namespace Settings

def fieldNames : List String :=
  ["node", "server", "auth", "security", "cache", "registration", "dispatch", "logging"]

def decode : Decoder Settings := fun d => do
  let base : Settings := {}
  let fs ← Fields.ofDocument? fieldNames d
  let node ← fs.withDefault 0 NodeSettings.decode base.node
  let server ← fs.withDefault 1 ServerSettings.decode base.server
  let auth ← fs.withDefault 2 AuthSettings.decode base.auth
  let security ← fs.withDefault 3 SecuritySettings.decode base.security
  let cache ← fs.withDefault 4 CacheSettings.decode base.cache
  let registration ← fs.withDefault 5 RegistrationSettings.decode base.registration
  let dispatch ← fs.withDefault 6 DispatchSettings.decode base.dispatch
  let logging ← fs.withDefault 7 LoggingSettings.decode base.logging
  return ⟨node, server, auth, security, cache, registration, dispatch, logging⟩

def toJson (s : Settings) : Json :=
  .object [
    ("node", s.node.toJson),
    ("server", s.server.toJson),
    ("auth", s.auth.toJson),
    ("security", s.security.toJson),
    ("cache", s.cache.toJson),
    ("registration", s.registration.toJson),
    ("dispatch", s.dispatch.toJson),
    ("logging", s.logging.toJson)]

end Settings

end SessionGateway
