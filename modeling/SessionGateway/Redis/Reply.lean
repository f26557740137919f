import SessionGateway.Text.Decimal
import SessionGateway.Store.Basic
/-!
# Replies of a Redis server

What a server may reply, and how a reply is read as the value that a command is to give. A reply
that reports an error, or is of another form, is an error of the cache.
-/

namespace SessionGateway.Redis

inductive Reply where
  | nil
  | integer (n : Int64)
  | bulk (text : String)
  | status (text : String)
  | list (replies : List Reply)
  /-- An error; its first word is its code. -/
  | error (text : String)
  deriving Repr, Inhabited

/-- What came of a command: a reply, or the connection was lost. -/
abbrev Outcome : Type := Option Reply

namespace Reply

mutual

/-- Whether a reply reports an error, at the top or within. -/
def isFailure : Reply → Bool
  | error _ => true
  | list rs => anyFailure rs
  | _ => false

def anyFailure : List Reply → Bool
  | [] => false
  | r :: rs => isFailure r || anyFailure rs

end

/-- Whether a reply reports that the server does not know a script. -/
def isUnknownScript : Reply → Bool
  | error text => text.toList.takeWhile (· ≠ ' ') = "NOSCRIPT".toList
  | _ => false

def text? : Reply → Option String
  | bulk s | status s => some s
  | integer n => some (toString n)
  | _ => none

/-- A value that may be missing. -/
def optionalText? : Reply → Option (Option String)
  | nil => some none
  | r => r.text?.map some

/-- Whether a count of removed things is not zero. -/
def isRemoval? : Reply → Option Bool
  | integer n => some (n ≠ 0)
  | bulk s | status s => (Text.naturalIn? 0 (UInt64.size - 1) s).map (· ≠ 0)
  | _ => none

/-- Fields and values in turn. -/
def pairs? : List Reply → Option (List (String × String))
  | [] => some []
  | [_] => none
  | f :: v :: rest => do
    let field ← f.text?
    let value ← v.text?
    return (field, value) :: (← pairs? rest)

/-- The fields of a hash; of a repeated field the last value counts. -/
def fields? : Reply → Option (List (String × String))
  | nil => some []
  | list rs => (pairs? rs).map fun ps => (Table.ofList ps).entries
  | _ => none

/-- A reply of which only matters that it is no error. -/
def done? (_ : Reply) : Option Unit := some ()

/-- What came of an executed transaction. -/
def executed? : Reply → Option Unit
  | nil | list _ => some ()
  | _ => none

end Reply

/-- Reads what came of a command. -/
def Outcome.read {α : Type} (o : Outcome) (value? : Reply → Option α) : Except CacheError α :=
  match o with
  | none => .error .redis
  | some r => if r.isFailure then .error .redis else (value? r).elim (.error .redis) .ok

end SessionGateway.Redis
