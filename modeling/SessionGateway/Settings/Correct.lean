import SessionGateway.Settings.Basic
import SessionGateway.Log
/-!
# Corrections

Settings under which a node could not run are corrected, field by field and in a fixed order, and
every correction is told. A timeout that must exceed an interval is set to a multiple of the
interval as corrected before.
-/

namespace SessionGateway.Settings

/-- One corrected field, with what the log needs to know of it. -/
inductive Correction where
  | wsPath (was now : String)
  | pingInterval
  | pongTimeout (was now : UInt64)
  | requestTimeout
  | lockTimeout
  | processorTimeout
  | reconcileInterval
  | entryTtl (was now : UInt64)
  | secretKey
  deriving DecidableEq, Repr

namespace Correction

def event : Correction → Log.Event
  | .wsPath was now =>
    Log.warn "server.wsPath must be an absolute path" [("ws_path", was), ("corrected", now)]
  | .pingInterval => Log.warn "server.pingIntervalSecs is 0, using 30"
  | .pongTimeout was now =>
    Log.warn "server.pongTimeoutSecs must exceed the ping interval"
      [("pong_timeout", toString was.toNat), ("corrected", toString now.toNat)]
  | .requestTimeout => Log.warn "auth.requestTimeoutMs is 0, using 5000"
  | .lockTimeout => Log.warn "registration.lockTimeoutMs is 0, using 10000"
  | .processorTimeout => Log.warn "dispatch.processorTimeoutMs is 0, using 30000"
  | .reconcileInterval => Log.warn "cache.reconcileIntervalSecs is 0, using 60"
  | .entryTtl was now =>
    Log.warn "cache.entryTtlSecs must exceed the reconciliation interval"
      [("ttl", toString was.toNat), ("corrected", toString now.toNat)]
  | .secretKey => Log.warn "security.secretKey is empty, disabling the handshake check"

end Correction

/-- A path that begins with a slash and goes on after it. -/
def isAbsolute (path : String) : Bool :=
  match path.toList with
  | '/' :: _ :: _ => true
  | _ => false

/-- The path behind exactly one slash; the default if nothing is left of it. -/
def absolutePath (path : String) : String :=
  match path.toList.dropWhile (· = '/') with
  | [] => "/websocket"
  | rest => String.ofList ('/' :: rest)

/-- One rule: the corrected settings and the correction, if the rule applies. -/
abbrev Rule := Settings → Option (Settings × Correction)

namespace Rule

def wsPath : Rule := fun s =>
  if isAbsolute s.server.wsPath then none
  else
    let now := absolutePath s.server.wsPath
    some ({ s with server := { s.server with wsPath := now } }, .wsPath s.server.wsPath now)

def pingInterval : Rule := fun s =>
  if s.server.pingIntervalSecs ≠ 0 then none
  else some ({ s with server := { s.server with pingIntervalSecs := 30 } }, .pingInterval)

def pongTimeout : Rule := fun s =>
  if s.server.pingIntervalSecs < s.server.pongTimeoutSecs then none
  else
    let now := s.server.pingIntervalSecs * 2
    some ({ s with server := { s.server with pongTimeoutSecs := now } },
      .pongTimeout s.server.pongTimeoutSecs now)

def requestTimeout : Rule := fun s =>
  if s.auth.requestTimeoutMs ≠ 0 then none
  else some ({ s with auth := { s.auth with requestTimeoutMs := 5000 } }, .requestTimeout)

def lockTimeout : Rule := fun s =>
  if s.registration.lockTimeoutMs ≠ 0 then none
  else some ({ s with registration := ⟨10000⟩ }, .lockTimeout)

def processorTimeout : Rule := fun s =>
  if s.dispatch.processorTimeoutMs ≠ 0 then none
  else some ({ s with dispatch := { s.dispatch with processorTimeoutMs := 30000 } },
    .processorTimeout)

def reconcileInterval : Rule := fun s =>
  if s.cache.reconcileIntervalSecs ≠ 0 then none
  else some ({ s with cache := { s.cache with reconcileIntervalSecs := 60 } }, .reconcileInterval)

def entryTtl : Rule := fun s =>
  if s.cache.reconcileIntervalSecs < s.cache.entryTtlSecs then none
  else
    let now := s.cache.reconcileIntervalSecs * 3
    some ({ s with cache := { s.cache with entryTtlSecs := now } },
      .entryTtl s.cache.entryTtlSecs now)

def secretKey : Rule := fun s =>
  if s.security.secretKey = some "" then some ({ s with security := ⟨none⟩ }, .secretKey)
  else none

def all : List Rule :=
  [wsPath, pingInterval, pongTimeout, requestTimeout, lockTimeout, processorTimeout,
    reconcileInterval, entryTtl, secretKey]

end Rule

/-- Applies rules one after another; the corrections in order. -/
def applyRules : List Rule → Settings → Settings × List Correction
  | [], s => (s, [])
  | rule :: rest, s =>
    match rule s with
    | none => applyRules rest s
    | some (s, c) =>
      let (s, cs) := applyRules rest s
      (s, c :: cs)

/-- The settings under which a node can run, and what had to be corrected. -/
def correct (s : Settings) : Settings × List Correction := applyRules Rule.all s

end SessionGateway.Settings
