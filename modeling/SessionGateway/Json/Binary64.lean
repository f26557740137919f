/-!
# Binary64 values

The doubles that decimal numbers denote, computed in exact integer arithmetic. A magnitude is
`mantissa * 2 ^ exponent`, rounded to nearest with ties to even at every step.

A decimal number is read the way a streaming reader reads it: its leading digits are one integer
of at most 64 bits, and that integer, as a double, is multiplied or divided by the double nearest
to a power of ten. Two roundings happen, so the result may differ from the nearest double by one
unit in the last place.
-/

namespace SessionGateway.Json

/-- A finite nonnegative double. -/
structure Magnitude where
  mantissa : Nat
  exponent : Int
  deriving DecidableEq, Repr

namespace Magnitude

/-- The quotient `n / d` rounded to an integer, a half going to the even neighbour. -/
def roundDiv (n d : Nat) : Nat :=
  let q := n / d
  let twice := 2 * (n % d)
  if twice > d ∨ (twice = d ∧ q % 2 = 1) then q + 1 else q

/-- The least mantissa of 53 binary digits. -/
def leastNormal : Nat := 0x10000000000000

/-- The bit that tells a negative double. -/
def signBit : Nat := 0x8000000000000000

/-- The numerator and denominator of `n / d / 2 ^ e`. -/
def scaled (n d : Nat) (e : Int) : Nat × Nat :=
  if 0 ≤ e then (n, d * Nat.pow 2 e.toNat) else (n * Nat.pow 2 (-e).toNat, d)

/-- The double nearest to `n / d`; nothing if that is beyond the largest one. -/
def ofRatio? (n d : Nat) : Option Magnitude :=
  if n = 0 then some ⟨0, -1074⟩
  else
    let guess : Int := max (-1074) ((n.log2 : Int) - (d.log2 : Int) - 53)
    let (a, b) := scaled n d guess
    let e := if a / b < 2 * leastNormal then guess else guess + 1
    let (a, b) := scaled n d e
    let m := roundDiv a b
    let r : Magnitude := if m = 2 * leastNormal then ⟨leastNormal, e + 1⟩ else ⟨m, e⟩
    if 971 < r.exponent then none else some r

/-- The exact value as a numerator and a denominator. -/
def ratio (x : Magnitude) : Nat × Nat :=
  if 0 ≤ x.exponent then (x.mantissa * Nat.pow 2 x.exponent.toNat, 1)
  else (x.mantissa, Nat.pow 2 (-x.exponent).toNat)

def mul? (x y : Magnitude) : Option Magnitude :=
  ofRatio? (x.ratio.1 * y.ratio.1) (x.ratio.2 * y.ratio.2)

/-- The quotient by a positive double. -/
def div? (x y : Magnitude) : Option Magnitude :=
  ofRatio? (x.ratio.1 * y.ratio.2) (x.ratio.2 * y.ratio.1)

def powerOfTen? (k : Nat) : Option Magnitude := ofRatio? (Nat.pow 10 k) 1

/-- Divides by `10 ^ k`, by at most `10 ^ 308` at a time. -/
def shrink? (x : Magnitude) (k : Nat) : Option Magnitude :=
  if x.mantissa = 0 then some x
  else if h : k ≤ 308 then (powerOfTen? k).bind x.div?
  else ((powerOfTen? 308).bind x.div?).bind fun y => shrink? y (k - 308)
termination_by k

/-- The double read from `significand * 10 ^ power`. -/
def ofDecimal? (significand : Nat) (power : Int) : Option Magnitude :=
  (ofRatio? significand 1).bind fun x =>
    if power < 0 then x.shrink? power.natAbs
    else if power ≤ 308 then (powerOfTen? power.toNat).bind x.mul?
    else if x.mantissa = 0 then some x
    else none

/-- The 64 bits of a double. -/
def bits (negative : Bool) (x : Magnitude) : UInt64 :=
  let sign := if negative then signBit else 0
  let rest :=
    if x.mantissa < leastNormal then x.mantissa
    else (x.exponent + 1075).toNat * leastNormal + (x.mantissa - leastNormal)
  UInt64.ofNat (sign + rest)

end Magnitude

end SessionGateway.Json
