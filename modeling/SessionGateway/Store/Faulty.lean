import SessionGateway.Store.Memory
/-!
# A store with faults

A memory store whose commands can be made to fail and whose writes can be made slow. A value can be
set to arrive between the reading of a hash and what its reader does next, and purging can be
switched off.
-/

namespace SessionGateway.Store

inductive Method where
  | hashPut
  | hashGet
  | hashGetAll
  | hashDelete
  | hashDeleteIf
  | put
  | get
  | delete
  | purgeExpired
  deriving DecidableEq, Repr

namespace Method

def all : List Method :=
  [.hashPut, .hashGet, .hashGetAll, .hashDelete, .hashDeleteIf, .put, .get, .delete, .purgeExpired]

def label : Method → String
  | .hashPut => "hash_put"
  | .hashGet => "hash_get"
  | .hashGetAll => "hash_get_all"
  | .hashDelete => "hash_delete"
  | .hashDeleteIf => "hash_delete_if"
  | .put => "put"
  | .get => "get"
  | .delete => "delete"
  | .purgeExpired => "purge_expired"

/-- The method of a label. -/
def ofLabel? (label : String) : Option Method := all.find? fun m => m.label = label

end Method

def Command.method : Command → Method
  | .hashPut .. => .hashPut
  | .hashGet .. => .hashGet
  | .hashGetAll _ => .hashGetAll
  | .hashDelete .. => .hashDelete
  | .hashDeleteIf .. => .hashDeleteIf
  | .put .. => .put
  | .get _ => .get
  | .delete _ => .delete
  | .purgeExpired => .purgeExpired

/-- Calls of a method that go through before others fail; without a count all others fail. -/
structure Outage where
  skip : Nat
  count : Option Nat
  deriving DecidableEq, Repr

/-- Whether the next call fails, and what is left of the outage. -/
def Outage.next : Outage → Bool × Outage
  | ⟨skip + 1, count⟩ => (false, ⟨skip, count⟩)
  | ⟨0, none⟩ => (true, ⟨0, none⟩)
  | ⟨0, some 0⟩ => (false, ⟨0, some 0⟩)
  | ⟨0, some (n + 1)⟩ => (true, ⟨0, some n⟩)

structure Faulty where
  memory : Memory
  outages : Table Method Outage
  /-- How long a write waits before it is carried out. -/
  writeDelay : Duration
  /-- A hash field that is set once the next hash was read: key, field and value. -/
  intrusion : Option (String × String × String)
  /-- Whether expired keys can be purged. -/
  purges : Bool

namespace Faulty

def empty : Faulty := ⟨.empty, .empty, .zero, none, true⟩

instance : Inhabited Faulty := ⟨empty⟩

/-- How long a command waits before it is carried out. -/
def delayOf (s : Faulty) (c : Command) : Duration :=
  match c with
  | .hashPut .. | .put .. => s.writeDelay
  | _ => .zero

/-- Whether the next call of a method fails. -/
def fails (s : Faulty) (m : Method) : Bool × Faulty :=
  match s.outages.get? m with
  | none => (false, s)
  | some o => (o.next.1, { s with outages := s.outages.insert m o.next.2 })

/-- Carries a command out on the memory alone. -/
def direct (now : Duration) (c : Command) (s : Faulty) : Result c × Faulty :=
  let (r, m) := Memory.answer now c s.memory
  (r, { s with memory := m })

/-- How long a value that intrudes is kept. -/
def intrusionTtl : Duration := .ofSeconds 60

/-- Sets the field that was to intrude. -/
def intrude (now : Duration) (s : Faulty) : Faulty :=
  match s.intrusion with
  | none => s
  | some (key, field, value) =>
    { (s.direct now (.hashPut key field value intrusionTtl)).2 with intrusion := none }

/-- Fields in the order of their names. -/
def sorted (fields : List (String × String)) : List (String × String) :=
  fields.mergeSort fun x y => decide (x.1 ≤ y.1)

/-- Carries a command out that does not fail. -/
def sound (now : Duration) : (c : Command) → Faulty → Result c × Faulty
  | .hashGetAll key, s =>
    match s.direct now (.hashGetAll key) with
    | (.ok fields, s) => (.ok (sorted fields), s.intrude now)
    | (.error e, s) => (.error e, s)
  | .purgeExpired, s => if s.purges then s.direct now .purgeExpired else (.ok (0 : Nat), s)
  | c, s => s.direct now c

/-- The error of a command that is made to fail. -/
def offline : CacheError := .unavailable "store offline"

/-- Carries a command out at a time. -/
def answer (now : Duration) (c : Command) (s : Faulty) : Result c × Faulty :=
  match s.fails c.method with
  | (true, s) => (.error offline, s)
  | (false, s) => s.sound now c

end Faulty

end SessionGateway.Store
