import SessionGateway.Settings.Basic
import SessionGateway.Log
import SessionGateway.Text.Decimal
/-!
# Environment variables

Variables named `CONDUIT_*` override settings. A text counts if it is not empty, a number if it is
in its variable's range, a choice if it is a known word in letters of any case. A value that does
not count leaves the setting as it is and is told in a warning, an empty text excepted.
-/

namespace SessionGateway.Settings

/-- A text with its ASCII letters in lower case. No letter outside ASCII has one of the letters of
the known words as its lower case, so this decides them as the full mapping would. -/
def lower (s : String) : String := String.ofList (s.toList.map Char.toLower)

def bool? (s : String) : Option Bool :=
  let w := lower s
  if w ∈ ["true", "1", "yes", "on"] then some true
  else if w ∈ ["false", "0", "no", "off"] then some false
  else none

def backend? (s : String) : Option CacheBackend :=
  findPair (lower s) (CacheBackend.all.map fun b => (b.label, b))

/-- A 16-bit number in an inclusive range. -/
def uint16In? (low high : Nat) (s : String) : Option UInt16 :=
  ((Text.naturalIn? low high s).filter (· < UInt16.size)).map UInt16.ofNat

/-- A 64-bit number in an inclusive range. -/
def uint64In? (low high : Nat) (s : String) : Option UInt64 :=
  ((Text.naturalIn? low high s).filter (· < UInt64.size)).map UInt64.ofNat

/-- What a variable may hold and which setting it sets. -/
inductive Effect where
  | text (set : String → Settings → Settings)
  | bool (set : Bool → Settings → Settings)
  | uint16 (low high : Nat) (set : UInt16 → Settings → Settings)
  | uint64 (low high : Nat) (set : UInt64 → Settings → Settings)
  | backend (set : CacheBackend → Settings → Settings)

structure Variable where
  name : String
  effect : Effect

/-- The variables in the order in which they are looked at. -/
def overrides : List Variable := [
  ⟨"CONDUIT_BROKER_ID", .text fun v s => { s with node := ⟨some v⟩ }⟩,
  ⟨"CONDUIT_HOST", .text fun v s => { s with server := { s.server with host := v } }⟩,
  ⟨"CONDUIT_PORT", .uint16 1 65535 fun v s => { s with server := { s.server with port := v } }⟩,
  ⟨"CONDUIT_WS_PATH", .text fun v s => { s with server := { s.server with wsPath := v } }⟩,
  ⟨"CONDUIT_PING_INTERVAL_SECS", .uint64 1 3600 fun v s =>
    { s with server := { s.server with pingIntervalSecs := v } }⟩,
  ⟨"CONDUIT_PONG_TIMEOUT_SECS", .uint64 1 7200 fun v s =>
    { s with server := { s.server with pongTimeoutSecs := v } }⟩,
  ⟨"CONDUIT_OAUTH_URL", .text fun v s => { s with auth := { s.auth with oauthUrl := v } }⟩,
  ⟨"CONDUIT_AUTH_TIMEOUT_MS", .uint64 100 120000 fun v s =>
    { s with auth := { s.auth with requestTimeoutMs := v } }⟩,
  ⟨"CONDUIT_SECRET_KEY", .text fun v s => { s with security := ⟨some v⟩ }⟩,
  ⟨"CONDUIT_CACHE_BACKEND", .backend fun v s =>
    { s with cache := { s.cache with backend := v } }⟩,
  ⟨"CONDUIT_REDIS_URL", .text fun v s => { s with cache := { s.cache with redisUrl := v } }⟩,
  ⟨"CONDUIT_KEY_PREFIX", .text fun v s => { s with cache := { s.cache with keyPrefix := v } }⟩,
  ⟨"CONDUIT_CACHE_TTL_SECS", .uint64 10 86400 fun v s =>
    { s with cache := { s.cache with entryTtlSecs := v } }⟩,
  ⟨"CONDUIT_RECONCILE_INTERVAL_SECS", .uint64 1 3600 fun v s =>
    { s with cache := { s.cache with reconcileIntervalSecs := v } }⟩,
  ⟨"CONDUIT_LOCK_TIMEOUT_MS", .uint64 1 600000 fun v s => { s with registration := ⟨v⟩ }⟩,
  ⟨"CONDUIT_HEARTBEAT", .text fun v s => { s with dispatch := { s.dispatch with heartbeat := v } }⟩,
  ⟨"CONDUIT_PROCESSOR_TIMEOUT_MS", .uint64 1 600000 fun v s =>
    { s with dispatch := { s.dispatch with processorTimeoutMs := v } }⟩,
  ⟨"CONDUIT_LOG_LEVEL", .text fun v s => { s with logging := { s.logging with level := v } }⟩,
  ⟨"CONDUIT_LOG_JSON", .bool fun v s =>
    { s with logging := { s.logging with format := if v then .json else .compact } }⟩]

/-- The warning about a value that does not count. -/
def ignored (what name value : String) : Log.Event :=
  Log.warn (what ++ ", ignoring") [("key", name), ("value", value)]

/-- What the value of a variable makes of the settings. -/
def Variable.apply (x : Variable) (value : String) (s : Settings) : Settings × List Log.Event :=
  let take {α : Type} (v : Option α) (what : String) (set : α → Settings → Settings) :
      Settings × List Log.Event :=
    match v with
    | some v => (set v s, [])
    | none => (s, [ignored what x.name value])
  match x.effect with
  | .text set => if value = "" then (s, []) else (set value s, [])
  | .bool set => take (bool? value) "invalid boolean env var" set
  | .uint16 low high set => take (uint16In? low high value) "invalid u16 env var" set
  | .uint64 low high set => take (uint64In? low high value) "invalid u64 env var" set
  | .backend set =>
    if value = "" then (s, []) else take (backend? value) "unknown cache backend" set

/-- The settings as the variables of an environment override them, and the warnings. -/
def applyEnvironment (lookup : String → Option String) (s : Settings) :
    Settings × List Log.Event :=
  overrides.foldl
    (fun (s, warnings) x =>
      match lookup x.name with
      | none => (s, warnings)
      | some value =>
        let (s, more) := x.apply value s
        (s, warnings ++ more))
    (s, [])

end SessionGateway.Settings
