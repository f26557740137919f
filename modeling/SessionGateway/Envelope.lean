import SessionGateway.Json.Decode
/-!
# Message envelopes

A text frame is an object with four fields of its own and any others beside them. The envelope keeps
all of them, so that writing it back loses nothing but members that were null.
-/

namespace SessionGateway

structure Envelope where
  key : Option String := none
  /-- The member called `type`. -/
  messageType : Option String := none
  message : Option String := none
  data : Option Json := none
  /-- The members of other names, in order. -/
  extra : List (String × Json) := []
  deriving Inhabited

namespace Envelope

open Json (Document Fields Decoder)

def fieldNames : List String := ["key", "type", "message", "data"]

/-- Reads the members of an object; every other member must have a value. -/
def ofMembers? (members : List (Option String × Document)) : Option Envelope := do
  let fs ← Fields.ofDocument? fieldNames (.object members)
  let key ← fs.optional 0 Decoder.text
  let messageType ← fs.optional 1 Decoder.text
  let message ← fs.optional 2 Decoder.text
  let data ← fs.optional 3 (Document.toJson? (Document.maxDepth - 1))
  let others ← Json.otherMembers? fieldNames members
  return ⟨key, messageType, message, data, others.foldl (fun ms e => putPair e.1 e.2 ms) []⟩

def decode : Decoder Envelope
  | .object members => ofMembers? members
  | _ => none

/-- The envelope of a text frame. -/
def read? (text : String) : Option Envelope := (Document.read? text).bind decode

def toJson (e : Envelope) : Json :=
  .object (([("key", e.key.map .text), ("type", e.messageType.map .text),
      ("message", e.message.map .text), ("data", e.data)].filterMap
        fun f => f.2.map fun v => (f.1, v)) ++ e.extra)

end Envelope

end SessionGateway
