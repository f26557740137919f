import SessionGateway.Table
import SessionGateway.Json.Binary64
/-!
# JSON values

Values, the members of objects, and the merging of one value into another. A number is either an
integer of 64 bits, signed or not, or a double.
-/

namespace SessionGateway

namespace Json

inductive Number where
  | int (n : Int)
  | float (bits : UInt64)
  deriving DecidableEq, Repr

end Json

inductive Json where
  | null
  | bool (b : Bool)
  | number (n : Json.Number)
  | text (s : String)
  | array (items : List Json)
  | object (members : List (String × Json))
  deriving Repr

namespace Json

instance : Inhabited Json := ⟨.null⟩

def int (n : Int) : Json := .number (.int n)

def nat (n : Nat) : Json := .int n

/-- The least and greatest integers that are no doubles. -/
def leastInt : Int := -0x8000000000000000

def greatestInt : Int := 0xFFFFFFFFFFFFFFFF

def isNull : Json → Bool
  | .null => true
  | _ => false

def members? : Json → Option (List (String × Json))
  | .object ms => some ms
  | _ => none

def text? : Json → Option String
  | .text s => some s
  | _ => none

def bool? : Json → Option Bool
  | .bool b => some b
  | _ => none

def int? : Json → Option Int
  | .number (.int n) => some n
  | _ => none

def array? : Json → Option (List Json)
  | .array xs => some xs
  | _ => none

/-- The member of an object under a key. -/
def get? (j : Json) (key : String) : Option Json :=
  j.members?.bind (findPair key)

/-- An object in which a member without a value is left out. -/
def ofFields (fields : List (String × Option Json)) : Json :=
  .object (fields.filterMap fun f => f.2.map fun v => (f.1, v))

mutual

/-- Merges objects key by key, a null keeping what is there; anything else takes the place of the
target. -/
def merge (target : Json) : Json → Json
  | .object source =>
    match target with
    | .object members => .object (mergeMembers members source)
    | _ => .object source
  | source => source

def mergeMembers (members : List (String × Json)) : List (String × Json) → List (String × Json)
  | [] => members
  | (key, value) :: rest =>
    mergeMembers
      (if value.isNull then members
       else
        match findPair key members with
        | some there => putPair key (merge there value) members
        | none => putPair key value members)
      rest

end

end Json

end SessionGateway
