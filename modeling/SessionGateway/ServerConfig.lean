import SessionGateway.Settings.Basic
/-!
# Server configuration

What the network front end of a node needs to know of its settings.
-/

namespace SessionGateway

open Json (Decoder Fields)

structure ServerConfig where
  host : String := "127.0.0.1"
  /-- Zero stands for a port that the system chooses. -/
  port : UInt16 := 0
  wsPath : String := "/websocket"
  maxMessageSize : UInt64 := 1048576
  pingIntervalSecs : UInt64 := 30
  pongTimeoutSecs : UInt64 := 60
  sendQueueCapacity : UInt64 := 256
  secretKey : Option String := none
  heartbeat : String := "heartbeat"
  processorTimeoutMs : UInt64 := 30000
  lockTimeoutMs : UInt64 := 10000
  reconcileIntervalSecs : UInt64 := 60
  deriving DecidableEq, Repr, Inhabited

namespace ServerConfig

def ofSettings (s : Settings) : ServerConfig where
  host := s.server.host
  port := s.server.port
  wsPath := s.server.wsPath
  maxMessageSize := s.server.maxMessageSize
  pingIntervalSecs := s.server.pingIntervalSecs
  pongTimeoutSecs := s.server.pongTimeoutSecs
  sendQueueCapacity := s.server.sendQueueCapacity
  secretKey := s.security.secretKey
  heartbeat := s.dispatch.heartbeat
  processorTimeoutMs := s.dispatch.processorTimeoutMs
  lockTimeoutMs := s.registration.lockTimeoutMs
  reconcileIntervalSecs := s.cache.reconcileIntervalSecs

def pingInterval (c : ServerConfig) : Duration := .ofSeconds c.pingIntervalSecs.toNat

def pongTimeout (c : ServerConfig) : Duration := .ofSeconds c.pongTimeoutSecs.toNat

def processorTimeout (c : ServerConfig) : Duration := .ofMillis c.processorTimeoutMs.toNat

def lockTimeout (c : ServerConfig) : Duration := .ofMillis c.lockTimeoutMs.toNat

def reconcileInterval (c : ServerConfig) : Duration := .ofSeconds c.reconcileIntervalSecs.toNat

def fieldNames : List String :=
  ["host", "port", "ws_path", "max_message_size", "ping_interval_secs", "pong_timeout_secs",
    "send_queue_capacity", "secret_key", "heartbeat", "processor_timeout_ms", "lock_timeout_ms",
    "reconcile_interval_secs"]

def decode : Decoder ServerConfig := fun d => do
  let fs ← Fields.ofDocument? fieldNames d
  let host ← fs.required 0 Decoder.text
  let port ← fs.required 1 Decoder.uint16
  let wsPath ← fs.required 2 Decoder.text
  let maxMessageSize ← fs.required 3 Decoder.uint64
  let pingIntervalSecs ← fs.required 4 Decoder.uint64
  let pongTimeoutSecs ← fs.required 5 Decoder.uint64
  let sendQueueCapacity ← fs.required 6 Decoder.uint64
  let secretKey ← fs.nullable 7 Decoder.text
  let heartbeat ← fs.required 8 Decoder.text
  let processorTimeoutMs ← fs.required 9 Decoder.uint64
  let lockTimeoutMs ← fs.required 10 Decoder.uint64
  let reconcileIntervalSecs ← fs.required 11 Decoder.uint64
  return ⟨host, port, wsPath, maxMessageSize, pingIntervalSecs, pongTimeoutSecs,
    sendQueueCapacity, secretKey, heartbeat, processorTimeoutMs, lockTimeoutMs,
    reconcileIntervalSecs⟩

def toJson (c : ServerConfig) : Json :=
  .object [
    ("host", .text c.host),
    ("port", .uint16 c.port),
    ("ws_path", .text c.wsPath),
    ("max_message_size", .uint64 c.maxMessageSize),
    ("ping_interval_secs", .uint64 c.pingIntervalSecs),
    ("pong_timeout_secs", .uint64 c.pongTimeoutSecs),
    ("send_queue_capacity", .uint64 c.sendQueueCapacity),
    ("secret_key", match c.secretKey with | some s => .text s | none => .null),
    ("heartbeat", .text c.heartbeat),
    ("processor_timeout_ms", .uint64 c.processorTimeoutMs),
    ("lock_timeout_ms", .uint64 c.lockTimeoutMs),
    ("reconcile_interval_secs", .uint64 c.reconcileIntervalSecs)]

end ServerConfig

end SessionGateway
