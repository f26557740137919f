/-!
# Decimal integers

Reading an integer written in ASCII digits with at most one sign in front. Nothing else is allowed
in the text, and a value outside the bounds of the target is no value.
-/

namespace SessionGateway.Text

/-- The value of an ASCII decimal digit. -/
def digit? (c : Char) : Option Nat :=
  if '0' ≤ c ∧ c ≤ '9' then some (c.toNat - '0'.toNat) else none

/-- Continues a number with further digits; any other character spoils it. -/
def digitsFrom? (value : Nat) : List Char → Option Nat
  | [] => some value
  | c :: rest => (digit? c).bind fun d => digitsFrom? (value * 10 + d) rest

/-- A number of at least one digit. -/
def digits? : List Char → Option Nat
  | [] => none
  | s => digitsFrom? 0 s

/-- A number that may carry one plus sign. -/
def natural? : List Char → Option Nat
  | '+' :: rest => digits? rest
  | s => digits? s

/-- A number that may carry one sign. -/
def integer? : List Char → Option Int
  | '-' :: rest => (digits? rest).map fun n => -(n : Int)
  | s => (natural? s).map Int.ofNat

/-- A natural number in the inclusive range from `low` to `high`. -/
def naturalIn? (low high : Nat) (s : String) : Option Nat :=
  (natural? s.toList).filter fun n => low ≤ n && n ≤ high

/-- The 64-bit integer of a number in range. -/
def int64OfInt? (n : Int) : Option Int64 :=
  if Int64.minValue.toInt ≤ n ∧ n ≤ Int64.maxValue.toInt then some (Int64.ofInt n) else none

def int64? (s : List Char) : Option Int64 := (integer? s).bind int64OfInt?

end SessionGateway.Text
