import SessionGateway.Store.Basic
/-!
# The memory store

A store within the process. A key past its deadline reads as absent but is held until it is written
again, deleted or purged.
-/

namespace SessionGateway.Store

inductive Value where
  | text (s : String)
  | hash (fields : Table String String)

structure Slot where
  value : Value
  /-- The time from which the slot no longer counts. -/
  deadline : Duration

def Slot.isLive (s : Slot) (now : Duration) : Bool := now < s.deadline

structure Memory where
  slots : Table String Slot

namespace Memory

def empty : Memory := ⟨.empty⟩

instance : Inhabited Memory := ⟨empty⟩

/-- The slot under a key, if it counts. -/
def live? (m : Memory) (now : Duration) (key : String) : Option Slot :=
  (m.slots.get? key).filter fun s => s.isLive now

/-- The number of keys that count. -/
def size (m : Memory) (now : Duration) : Nat := m.slots.values.countP fun s => s.isLive now

def set (m : Memory) (key : String) (slot : Slot) : Memory := ⟨m.slots.insert key slot⟩

/-- Deletes a field of a hash that counts if its value passes a test. -/
def deleteField (m : Memory) (now : Duration) (key field : String) (test : String → Bool) :
    Except CacheError Bool × Memory :=
  match m.live? now key with
  | none => (.ok false, m)
  | some ⟨.text _, _⟩ => (.error (.wrongType key), m)
  | some ⟨.hash fields, deadline⟩ =>
    if ((fields.get? field).map test).getD false then
      (.ok true, m.set key ⟨.hash (fields.erase field), deadline⟩)
    else (.ok false, m)

/-- Carries a command out at a time. -/
def answer (now : Duration) : (c : Command) → Memory → Result c × Memory
  | .hashPut key field value ttl, m =>
    match m.live? now key with
    | none => (.ok (), m.set key ⟨.hash (Table.empty.insert field value), now + ttl⟩)
    | some ⟨.hash fields, _⟩ => (.ok (), m.set key ⟨.hash (fields.insert field value), now + ttl⟩)
    | some ⟨.text _, _⟩ => (.error (.wrongType key), m)
  | .hashGet key field, m =>
    match m.live? now key with
    | none => (.ok none, m)
    | some ⟨.hash fields, _⟩ => (.ok (fields.get? field), m)
    | some ⟨.text _, _⟩ => (.error (.wrongType key), m)
  | .hashGetAll key, m =>
    match m.live? now key with
    | none => (.ok [], m)
    | some ⟨.hash fields, _⟩ => (.ok fields.entries, m)
    | some ⟨.text _, _⟩ => (.error (.wrongType key), m)
  | .hashDelete key field, m => m.deleteField now key field fun _ => true
  | .hashDeleteIf key field expected, m => m.deleteField now key field (· = expected)
  | .put key value ttl, m => (.ok (), m.set key ⟨.text value, now + ttl⟩)
  | .get key, m =>
    match m.live? now key with
    | none => (.ok none, m)
    | some ⟨.text s, _⟩ => (.ok (some s), m)
    | some ⟨.hash _, _⟩ => (.error (.wrongType key), m)
  | .delete key, m => (.ok (m.live? now key).isSome, ⟨m.slots.erase key⟩)
  | .purgeExpired, m =>
    let kept := m.slots.filter fun _ s => s.isLive now
    (.ok (m.slots.size - kept.size), ⟨kept⟩)

end Memory

end SessionGateway.Store
