import SessionGateway.Text.Decimal
/-!
# Durations

A span of time in whole nanoseconds, which is also how the time since a node's start is told. Its
text is in the largest of the units s, ms, µs and ns that gives a whole part of at least one, with
the fraction in full but without trailing zeros.
-/

namespace SessionGateway

structure Duration where
  nanos : Nat
  deriving DecidableEq, Repr, Inhabited

namespace Duration

def zero : Duration := ⟨0⟩

def ofNanos (n : Nat) : Duration := ⟨n⟩

def ofMillis (n : Nat) : Duration := ⟨n * 1000000⟩

def ofSeconds (n : Nat) : Duration := ⟨n * 1000000000⟩

/-- Whole milliseconds. -/
def millis (d : Duration) : Nat := d.nanos / 1000000

/-- Whole seconds. -/
def seconds (d : Duration) : Nat := d.nanos / 1000000000

instance : Add Duration := ⟨fun a b => ⟨a.nanos + b.nanos⟩⟩
instance : Sub Duration := ⟨fun a b => ⟨a.nanos - b.nanos⟩⟩
instance : LE Duration := ⟨fun a b => a.nanos ≤ b.nanos⟩
instance : LT Duration := ⟨fun a b => a.nanos < b.nanos⟩
instance (a b : Duration) : Decidable (a ≤ b) := inferInstanceAs (Decidable (a.nanos ≤ b.nanos))
instance (a b : Duration) : Decidable (a < b) := inferInstanceAs (Decidable (a.nanos < b.nanos))

/-- The fraction `part / 10 ^ width` without trailing zeros, with its point if it is not zero. -/
def fraction (part width : Nat) : List Char :=
  let digits := (Nat.toDigits 10 part).leftpad width '0'
  match (digits.reverse.dropWhile (· = '0')).reverse with
  | [] => []
  | kept => '.' :: kept

/-- A count of nanoseconds in a unit of `10 ^ width` of them. -/
def inUnit (n width : Nat) (unit : String) : String :=
  let whole := Nat.pow 10 width
  String.ofList (Nat.toDigits 10 (n / whole) ++ fraction (n % whole) width) ++ unit

def text (d : Duration) : String :=
  if 1000000000 ≤ d.nanos then inUnit d.nanos 9 "s"
  else if 1000000 ≤ d.nanos then inUnit d.nanos 6 "ms"
  else if 1000 ≤ d.nanos then inUnit d.nanos 3 "µs"
  else inUnit d.nanos 0 "ns"

example : (ofMillis 1500).text = "1.5s" := by decide +kernel
example : (ofNanos 1000001).text = "1.000001ms" := by decide +kernel
example : zero.text = "0ns" := by decide +kernel

end Duration

end SessionGateway
