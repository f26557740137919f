import SessionGateway.Json.Document
import SessionGateway.Text.Decimal
/-!
# Typed reading of documents

How a document is read as a value of a known shape. A record is an object whose known fields occur
at most once, unknown ones being skipped unread, or an array of the fields in their order. A field
may be required, may be left out, or may take its value from a default; a reader that cannot read
what stands in a field fails.
-/

namespace SessionGateway.Json

/-- A way to read documents as values of a type. -/
abbrev Decoder (α : Type) := Document → Option α

namespace Decoder

def text : Decoder String
  | .text s => s
  | _ => none

def int : Decoder Int
  | .number (some (.int n)) => some n
  | _ => none

def int64 : Decoder Int64 := fun d => (int d).bind Text.int64OfInt?

def naturalBelow (bound : Nat) : Decoder Nat := fun d =>
  (int d).bind fun n => if 0 ≤ n ∧ n < bound then some n.toNat else none

def uint64 : Decoder UInt64 := fun d => (naturalBelow UInt64.size d).map UInt64.ofNat

def uint16 : Decoder UInt16 := fun d => (naturalBelow UInt16.size d).map UInt16.ofNat

/-- A null reads as no value. -/
def nullable {α : Type} (read : Decoder α) : Decoder (Option α)
  | .null => some none
  | d => (read d).map some

/-- One of some names, given as a text or as the only key of an object that holds null. -/
def choice {α : Type} (names : List (String × α)) : Decoder α
  | .text (some s) => findPair s names
  | .object [(some s, .null)] => findPair s names
  | _ => none

end Decoder

/-- The fields of a record as found: in the order of their names, each with its document if it is
there. `positional` tells that they were given as an array. -/
structure Fields where
  positional : Bool
  found : List (Option Document)

namespace Fields

/-- Files a member under its name. An unknown name is skipped, a known one may not be repeated. -/
def file (names : List String) (name : String) (d : Document) :
    List (Option Document) → Option (List (Option Document))
  | [] => some []
  | slot :: slots =>
    match names with
    | [] => some (slot :: slots)
    | n :: names =>
      if n = name then
        match slot with
        | none => some (some d :: slots)
        | some _ => none
      else (file names name d slots).map (slot :: ·)

/-- Files the members of an object. -/
def fileAll (names : List String) :
    List (Option String × Document) → List (Option Document) → Option (List (Option Document))
  | [], slots => some slots
  | (none, _) :: _, _ => none
  | (some name, d) :: rest, slots => (file names name d slots).bind (fileAll names rest)

/-- The fields of a record with the given field names. -/
def ofDocument? (names : List String) : Document → Option Fields
  | .object members =>
    (fileAll names members (names.map fun _ => none)).map fun found => ⟨false, found⟩
  | .array items =>
    if items.length ≤ names.length then
      some ⟨true, items.map some ++ List.replicate (names.length - items.length) none⟩
    else none
  | _ => none

def get (fs : Fields) (i : Nat) : Option Document := (fs.found[i]?).join

/-- A field that must be there. -/
def required {α : Type} (fs : Fields) (i : Nat) (read : Decoder α) : Option α :=
  (fs.get i).bind read

/-- A field that takes a default when it is not there. -/
def withDefault {α : Type} (fs : Fields) (i : Nat) (read : Decoder α) (default : α) : Option α :=
  match fs.get i with
  | some d => read d
  | none => some default

/-- A field that may be null or left out. -/
def optional {α : Type} (fs : Fields) (i : Nat) (read : Decoder α) : Option (Option α) :=
  fs.withDefault i (.nullable read) none

/-- A field that may be null or, in an object, left out. -/
def nullable {α : Type} (fs : Fields) (i : Nat) (read : Decoder α) : Option (Option α) :=
  match fs.get i with
  | some d => Decoder.nullable read d
  | none => if fs.positional then none else some none

end Fields

/-- The members of an object that are not among the given names, read as values. -/
def otherMembers? (names : List String) :
    List (Option String × Document) → Option (List (String × Json))
  | [] => some []
  | (none, _) :: _ => none
  | (some key, d) :: rest =>
    if key ∈ names then otherMembers? names rest
    else
      match d.toJson? (Document.maxDepth - 1), otherMembers? names rest with
      | some j, some others => some ((key, j) :: others)
      | _, _ => none

end SessionGateway.Json
