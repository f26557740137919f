import SessionGateway.Settings.Basic
import SessionGateway.Text.Decimal
import SessionGateway.Text.Parts
/-!
# The command line

The options of a node. Each is given at most once, as `--name value` or as `--name=value`; a value
that begins with a hyphen needs the equals sign, a single hyphen excepted. What is wrong is told at
the first word that shows it, and help is given if it is asked for before that.
-/

namespace SessionGateway

/-- What the command line says. -/
structure CommandLine where
  /-- The path of the settings file. -/
  config : Option String := none
  host : Option String := none
  /-- Zero stands for a port that the system chooses. -/
  port : Option UInt16 := none
  brokerId : Option String := none
  logLevel : Option String := none
  deriving DecidableEq, Repr, Inhabited

namespace CommandLine

inductive Flag where
  | config
  | host
  | port
  | brokerId
  | logLevel
  deriving DecidableEq, Repr

def Flag.label : Flag → String
  | .config => "config"
  | .host => "host"
  | .port => "port"
  | .brokerId => "broker-id"
  | .logLevel => "log-level"

def flags : List Flag := [.config, .host, .port, .brokerId, .logLevel]

/-- Why a command line gives no options. -/
inductive Stop where
  /-- It asks for help. -/
  | help
  | unexpected (word : String)
  | missingValue (f : Flag)
  | invalidValue (f : Flag) (value : String)
  | repeated (f : Flag)
  deriving DecidableEq, Repr

def Stop.message : Stop → String
  | .help => ""
  | .unexpected word => "unexpected argument " ++ word
  | .missingValue f => "a value is required for --" ++ f.label
  | .invalidValue f value => "invalid value " ++ value ++ " for --" ++ f.label
  | .repeated f => "--" ++ f.label ++ " cannot be used multiple times"

/-- A port: an integer of any spelling that lies in range. -/
def port? (value : String) : Option UInt16 :=
  (Text.int64? value.toList).bind fun n =>
    if 0 ≤ n.toInt ∧ n.toInt < UInt16.size then some (UInt16.ofNat n.toInt.toNat) else none

def isGiven (c : CommandLine) : Flag → Bool
  | .config => c.config.isSome
  | .host => c.host.isSome
  | .port => c.port.isSome
  | .brokerId => c.brokerId.isSome
  | .logLevel => c.logLevel.isSome

/-- Takes the value of an option. Only the path of the settings file must not be empty. -/
def give (c : CommandLine) (f : Flag) (value : String) : Except Stop CommandLine :=
  if c.isGiven f then .error (.repeated f)
  else
    match f with
    | .config =>
      if value = "" then .error (.invalidValue f value) else .ok { c with config := some value }
    | .host => .ok { c with host := some value }
    | .port =>
      match port? value with
      | some n => .ok { c with port := some n }
      | none => .error (.invalidValue f value)
    | .brokerId => .ok { c with brokerId := some value }
    | .logLevel => .ok { c with logLevel := some value }

/-- How a word is read where options may stand. -/
inductive Word where
  | help
  | flag (f : Flag)
  | assignment (f : Flag) (value : String)
  /-- The mark behind which no options stand. -/
  | endOfOptions
  /-- A word that no option begins with. -/
  | plain
  /-- A word in the form of an option that there is not. -/
  | unknown

def flag? (name : List Char) : Option Flag := flags.find? fun f => f.label.toList = name

def wordOf (word : String) : Word :=
  match word.toList with
  | ['-', '-'] => .endOfOptions
  | '-' :: '-' :: rest =>
    match Text.atFirst? '=' rest with
    | some (name, value) =>
      match flag? name with
      | some f => .assignment f (String.ofList value)
      | none => .unknown
    | none =>
      if rest = "help".toList then .help
      else
        match flag? rest with
        | some f => .flag f
        | none => .unknown
  | ['-'] => .plain
  | '-' :: 'h' :: _ => .help
  | '-' :: _ => .unknown
  | _ => .plain

/-- Reads the words behind those that gave `c`, the last of which was an option without its value
if `open?` names one. -/
def read (c : CommandLine) (open? : Option Flag) : List String → Except Stop CommandLine
  | [] =>
    match open? with
    | some f => .error (.missingValue f)
    | none => .ok c
  | word :: rest =>
    match open?, wordOf word with
    | some f, .plain => do read (← c.give f word) none rest
    | none, .flag f => read c (some f) rest
    | none, .assignment f value => do read (← c.give f value) none rest
    | none, .help => .error .help
    | none, .endOfOptions =>
      match rest with
      | [] => .ok c
      | word :: _ => .error (.unexpected word)
    | none, .plain | _, .unknown => .error (.unexpected word)
    | some f, _ => .error (.missingValue f)

/-- Reads a command line without the program's name. -/
def parse (words : List String) : Except Stop CommandLine := read {} none words

/-- The settings as the options override them. -/
def apply (c : CommandLine) (s : Settings) : Settings :=
  { s with
    server := { s.server with
      host := c.host.getD s.server.host
      port := c.port.getD s.server.port }
    node := ⟨c.brokerId.or s.node.brokerId⟩
    logging := { s.logging with level := c.logLevel.getD s.logging.level } }

end CommandLine

end SessionGateway
