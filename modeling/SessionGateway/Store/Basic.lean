import SessionGateway.Fault
/-!
# The store

The commands that the shared cache gives to its backend: plain keys and hashes, each key with a time
to live. A write sets a value and starts the time anew.
-/

namespace SessionGateway.Store

inductive Command where
  /-- Sets a field of the hash under a key. -/
  | hashPut (key field value : String) (ttl : Duration)
  | hashGet (key field : String)
  | hashGetAll (key : String)
  | hashDelete (key field : String)
  /-- Deletes a field in one step with checking what it holds. -/
  | hashDeleteIf (key field expected : String)
  /-- Sets the text under a key, whatever it held. -/
  | put (key value : String) (ttl : Duration)
  | get (key : String)
  | delete (key : String)
  /-- Drops the keys whose time has passed. -/
  | purgeExpired
  deriving DecidableEq, Repr

/-- What a command gives back when it succeeds. -/
abbrev Command.Answer : Command → Type
  | .hashPut .. => Unit
  | .hashGet .. => Option String
  | .hashGetAll _ => List (String × String)
  | .hashDelete .. => Bool
  | .hashDeleteIf .. => Bool
  | .put .. => Unit
  | .get _ => Option String
  | .delete _ => Bool
  | .purgeExpired => Nat

/-- What a command gives back. -/
abbrev Result (c : Command) : Type := Except CacheError c.Answer

end SessionGateway.Store
