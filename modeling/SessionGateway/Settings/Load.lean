import SessionGateway.Settings.Correct
import SessionGateway.Settings.Environment
import SessionGateway.Text.Utf8
/-!
# Loading settings

A settings file is merged over the defaults, the environment overrides the result, and what a node
could not run with is corrected.
-/

namespace SessionGateway.Settings

inductive Error where
  /-- The file cannot be read as text. -/
  | io
  /-- The file is not a JSON value, or does not decode to settings. -/
  | json
  /-- A value can be neither used nor corrected. -/
  | invalid (text : String)
  deriving DecidableEq, Repr

def Error.message : Error → String
  | .io => "failed to read settings file"
  | .json => "failed to parse settings JSON"
  | .invalid text => "invalid settings value: " ++ text

/-- What stands at the path of the settings file. -/
inductive File where
  | absent
  | directory
  | bytes (content : List UInt8)
  deriving DecidableEq, Repr

/-- The text of the settings file, if there is one. -/
def File.text? : File → Except Error (Option String)
  | .absent => .ok none
  | .directory => .error .io
  | .bytes content =>
    match Text.Utf8.decode? content with
    | some s => .ok (some s)
    | none => .error .io

/-- The defaults with the values of a settings file merged over them. -/
def ofFile (file : File) : Except Error Settings := do
  let merged ←
    match ← file.text? with
    | none => pure (toJson {})
    | some text =>
      match Json.read? text with
      | some user => pure ((toJson {}).merge user)
      | none => throw .json
  match decode (.ofJson merged) with
  | some s => return s
  | none => throw .json

/-- Settings as loaded: the result and the warnings in order. -/
structure Loaded where
  settings : Settings
  corrections : List Correction
  warnings : List Log.Event

/-- The settings of a file and an environment. -/
def load (file : File) (lookup : String → Option String) : Except Error Loaded := do
  let (s, warnings) := applyEnvironment lookup (← ofFile file)
  let (s, corrections) := s.correct
  return ⟨s, corrections, warnings ++ corrections.map Correction.event⟩

end SessionGateway.Settings
