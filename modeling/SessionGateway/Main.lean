import SessionGateway.Directory
import SessionGateway.Gateway.Routes
import SessionGateway.Health
import SessionGateway.Report
import SessionGateway.Startup
import SessionGateway.Uuid
import Std.Async.Signal
import Std.Async.TCP
/-!
# The program of a node

Reads the command line, the settings file and the environment, starts the node and serves its plain
routes over HTTP until it is interrupted. No Redis server is reached from here.
-/

namespace SessionGateway.Service

open Std.Async
open Std.Net (IPv4Addr SocketAddress SocketAddressV4)

def usage : String :=
  "Usage: session-gateway [OPTIONS]\n\n" ++ String.join (CommandLine.flags.map fun f =>
    "  --" ++ f.label ++ " <VALUE>\n") ++ "  -h, --help"

/-- What stands at the path of the settings file. -/
def readFile (path : String) : IO Settings.File := do
  try
    return .bytes (← IO.FS.readBinFile path).toList
  catch
    | .noFileOrDirectory .. => return .absent
    | _ => return .directory

/-- The path of the settings file of a command line. -/
def filePath (c : CommandLine) : IO String := do
  match c.config with
  | some path => return path
  | none => return (← IO.getEnv "HOME").getD "/tmp" ++ "/.conduit/settings.json"

/-- The settings variables that are set. -/
def environment : IO (List (String × String)) := do
  let mut found := []
  for x in Settings.overrides do
    if let some value ← IO.getEnv x.name then found := found ++ [(x.name, value)]
  return found

def generateBroker : IO BrokerId := do
  let millis := (← Std.Time.Timestamp.now).toMillisecondsSinceUnixEpoch.val.toNat
  let random := (← IO.getRandomBytes 10).toList.foldl (fun n b => n * 256 + b.toNat) 0
  return ⟨uuidV7 millis random⟩

/-- What a running node holds of its machine. -/
structure Machine where
  logging : IO.Ref (Option LoggingSettings)
  listener : IO.Ref (Option TCP.Socket.Server)

def Machine.new : IO Machine := return ⟨← IO.mkRef none, ← IO.mkRef none⟩

/-- The level of a log; a log that is off has none. -/
def levelOf? (s : LoggingSettings) : Option Log.Level :=
  let word := Settings.lower s.level
  if word = "off" then none
  else some ((Log.Level.all.find? fun l => Settings.lower l.label = word).getD .info)

def Machine.log (m : Machine) (e : Log.Event) : IO Unit := do
  let some s ← m.logging.get | return
  let some limit := levelOf? s | return
  if limit.admits e.level then
    IO.eprintln (match s.format with | .compact => e.text | .json => e.toJson.render)

/-- Listens at a host that needs no name service. -/
def Machine.listen (m : Machine) (host : String) (port : UInt16) : IO (Option String) := do
  let some address := Url.knownAddress? host | return none
  let [a, b, c, d] := Url.bytesOf address | return none
  try
    let server ← TCP.Socket.Server.mk
    server.bind (.v4 ⟨IPv4Addr.ofParts a b c d, port⟩)
    server.listen 128
    m.listener.set (some server)
    let name ← server.getSockName
    return some (toString name.ipAddr ++ ":" ++ toString name.port)
  catch _ => return none

def Machine.answer (m : Machine) : (r : Startup.Request) → IO (Startup.interface.Answer r)
  | .showLog s => m.logging.set (some s)
  | .log e => m.log e
  | .redis r => return Redis.unreachable r
  | .listen host port => m.listen host port

/-- A response of HTTP that closes the connection. -/
def response (status : Nat) (body : String) : ByteArray :=
  (String.intercalate "\r\n" ["HTTP/1.1 " ++ toString status ++ " ", "connection: close",
    "content-length: " ++ toString body.utf8ByteSize, "", body]).toUTF8

/-- The response to the first line of a request. -/
def respond (node : Startup.Running) (uptime : Duration) (line : String) : ByteArray :=
  match line.splitOn " " with
  | [method, target, _] =>
    let reply := Route.reply node.config method target
    let health := Health.ofDirectory uptime 0 (.empty node.broker)
    response reply.status (match reply with | .health => health.toJson.render | _ => "")
  | _ => response Reply.badRequest.status ""

/-- Answers the client of a connection. -/
def attend (node : Startup.Running) (startedAt : Nat) (client : TCP.Socket.Client) :
    Async Unit := do
  if let some bytes ← client.recv? 8192 then
    let line := (Text.Utf8.decodeLossy bytes.toList).toList.takeWhile (· ≠ '\r')
    let uptime := Duration.ofMillis ((← IO.monoMsNow) - startedAt)
    client.send (respond node uptime (String.ofList line))
  client.shutdown

/-- Answers clients until the node is interrupted. -/
partial def serve (node : Startup.Running) (startedAt : Nat) (server : TCP.Socket.Server)
    (interrupt : Signal.Waiter) : Async Unit := do
  let goesOn ← Selectable.one #[
    .case interrupt.selector fun _ => return false,
    .case server.acceptSelector fun client => do
      try attend node startedAt client catch _ => pure ()
      return true]
  if goesOn then serve node startedAt server interrupt

/-- Runs a node until it is interrupted. -/
def run (c : CommandLine) : IO (Except Startup.Failure Unit) := do
  let m ← Machine.new
  let found ← environment
  let file ← readFile (← filePath c)
  let start := Startup.start c file (fun name => findPair name found) (← generateBroker)
  match ← start.interpret m.answer with
  | .error e => return .error e
  | .ok node =>
    let interrupt ← Signal.Waiter.mk .sigint false
    if let some server ← m.listener.get then
      Async.block (serve node (← IO.monoMsNow) server interrupt)
    m.log Startup.stopping
    m.log (Startup.stopped true)
    return .ok ()

end SessionGateway.Service

open SessionGateway in
/-- The program of a node, given its arguments. -/
def main (args : List String) : IO UInt32 := do
  match CommandLine.parse args with
  | .error .help =>
    IO.println Service.usage
    return Startup.exitCode (.error .help)
  | .error stop =>
    IO.eprintln ("error: " ++ stop.message)
    return Startup.exitCode (.error stop)
  | .ok c =>
    let outcome ← Service.run c
    if let .error e := outcome then IO.eprintln ("Error: " ++ e.message)
    return Startup.exitCode (.ok outcome)
