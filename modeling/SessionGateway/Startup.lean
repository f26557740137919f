import SessionGateway.CommandLine
import SessionGateway.Redis.Wire
import SessionGateway.ServerConfig
import SessionGateway.Settings.Load
/-!
# Starting a node

From the command line to a listening socket: the settings are loaded and overridden, the log begins,
the settings are corrected again so that their warnings are heard, the cache's store is opened, and
the node listens. Nothing is logged before the settings say how.
-/

namespace SessionGateway

namespace Startup

/-- What a starting node asks of its machine. -/
inductive Request where
  /-- Begins to show what is logged. -/
  | showLog (s : LoggingSettings)
  | log (e : Log.Event)
  | redis (r : Redis.Request)
  /-- Listens at a host and a port; gives the address at which it does. -/
  | listen (host : String) (port : UInt16)

abbrev Request.Answer : Request → Type
  | .showLog _ => Unit
  | .log _ => Unit
  | .redis r => r.Answer
  | .listen .. => Option String

abbrev interface : Interface := ⟨Request, Request.Answer⟩

/-- Why a node does not start. -/
inductive Failure where
  | settings (e : Settings.Error)
  /-- The cache's server could not be reached at an address. -/
  | connect (url : String) (e : CacheError)
  /-- The cache's server gave no sign of life. -/
  | ping (e : CacheError)
  | listen (host : String) (port : UInt16)
  deriving DecidableEq, Repr

def Failure.message : Failure → String
  | .settings e => "Failed to load settings: " ++ e.message
  | .connect url e => "Failed to connect to redis at " ++ url ++ ": " ++ e.message
  | .ping e => "Redis did not answer PING: " ++ e.message
  | .listen host port => "Failed to bind listener at " ++ host ++ ":" ++ toString port

def ask (r : Request) : Program interface r.Answer := Program.request (I := interface) r

def log (e : Log.Event) : Program interface Unit := ask (.log e)

def logAll : List Log.Event → Program interface Unit
  | [] => return ()
  | e :: rest => do
    log e
    logAll rest

/-- A conversation with the Redis server of a starting node. -/
def redis {α : Type} (c : Redis.Conversation α) : Program interface α :=
  Program.expand (I := Redis.interface) (fun r => ask (.redis r)) c

def localOnly : Log.Event :=
  Log.warn "using in-memory session cache, sessions are not shared across nodes"

def storeConnected (url : String) : Log.Event :=
  Log.info "redis session cache connected" [("url", url)]

/-- Opens the store that the cache's settings choose. -/
def openStore (s : CacheSettings) : Program interface (Except Failure Unit) := do
  match s.backend with
  | .memory =>
    log localOnly
    return .ok ()
  | .redis =>
    match ← redis (Redis.connect s.redisUrl) with
    | .error e => return .error (.connect s.redisUrl e)
    | .ok event =>
      log event
      match ← redis Redis.ping with
      | .error e => return .error (.ping e)
      | .ok () =>
        log (storeConnected s.redisUrl)
        return .ok ()

/-- The id of a node: the one that its settings give, if it is not empty. -/
def brokerOf (s : Settings) (generated : BrokerId) : BrokerId :=
  match s.node.brokerId with
  | none | some "" => generated
  | some id => ⟨id⟩

/-- A node that listens. -/
structure Running where
  config : ServerConfig
  cache : CacheSettings
  broker : BrokerId
  address : String
  deriving DecidableEq, Repr

def starting (b : BrokerId) : Log.Event := Log.info "starting gateway node" [("broker_id", b.text)]

def listening (address : String) (c : ServerConfig) (b : BrokerId) : Log.Event :=
  Log.info "gateway listening"
    [("local_addr", address), ("ws_path", c.wsPath), ("broker_id", b.text)]

/-- The announcement that ends the start. -/
def announcement (address : String) (s : Settings) : Log.Event :=
  Log.info ("gateway listening on ws://" ++ address ++ s.server.wsPath ++ " (identity service " ++
    s.auth.oauthUrl ++ ")")

/-- Starts a node with settings that were loaded. -/
def launch (s : Settings) (generated : BrokerId) : Program interface (Except Failure Running) := do
  ask (.showLog s.logging)
  let (s, corrections) := s.correct
  logAll (corrections.map Settings.Correction.event)
  let broker := brokerOf s generated
  log (starting broker)
  match ← openStore s.cache with
  | .error e => return .error e
  | .ok () =>
    let config := ServerConfig.ofSettings s
    match ← ask (.listen config.host config.port) with
    | none => return .error (.listen config.host config.port)
    | some address =>
      log (listening address config broker)
      log (announcement address s)
      return .ok ⟨config, s.cache, broker, address⟩

/-- The settings of a node: those of its file and environment, overridden by its command line. -/
def settingsOf (c : CommandLine) (file : Settings.File) (lookup : String → Option String) :
    Except Settings.Error Settings :=
  (Settings.load file lookup).map fun loaded => c.apply loaded.settings

/-- Starts a node. -/
def start (c : CommandLine) (file : Settings.File) (lookup : String → Option String)
    (generated : BrokerId) : Program interface (Except Failure Running) :=
  match settingsOf c file lookup with
  | .error e => return .error (.settings e)
  | .ok s => launch s generated

/-- What is logged when a node is told to stop. -/
def stopping : Log.Event := Log.info "shutting down"

def stopped (drained : Bool) : Log.Event :=
  Log.info "shutdown complete" [("drained", if drained then "true" else "false")]

/-- The exit code of a run: 2 for a command line that gives no options, 1 for a failure. -/
def exitCode : Except CommandLine.Stop (Except Failure Unit) → UInt32
  | .error .help => 0
  | .error _ => 2
  | .ok (.error _) => 1
  | .ok (.ok ()) => 0

end Startup

end SessionGateway
