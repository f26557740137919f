/-!
# Locks

A lock is held under a ticket. It passes to those who wait in the order in which they came, and a
waiter may give up.
-/

namespace SessionGateway

structure Lock where
  /-- The ticket under which the lock is held. -/
  holder : Option Nat
  /-- The tickets of those who wait, first come first. -/
  waiting : List Nat
  /-- How many tickets were issued. -/
  issued : Nat
  deriving Repr, Inhabited

namespace Lock

def free : Lock := ⟨none, [], 0⟩

/-- Takes a fresh ticket. It holds the lock if nobody does. -/
def join (l : Lock) : Nat × Lock :=
  match l.holder with
  | none => (l.issued, { l with holder := some l.issued, issued := l.issued + 1 })
  | some _ => (l.issued, { l with waiting := l.waiting ++ [l.issued], issued := l.issued + 1 })

def isHeldBy (l : Lock) (ticket : Nat) : Bool := l.holder = some ticket

/-- The holder passes the lock to the first who waits. -/
def pass (l : Lock) : Lock := { l with holder := l.waiting.head?, waiting := l.waiting.tail }

/-- A waiter gives up. -/
def abandon (l : Lock) (ticket : Nat) : Lock :=
  { l with waiting := l.waiting.filter (· ≠ ticket) }

end Lock

end SessionGateway
