import SessionGateway.Text.Parts
import SessionGateway.Text.Percent
/-!
# Form encoding

Names and values as `application/x-www-form-urlencoded`: a plus sign stands for a space, and a
percent sign with two hexadecimal digits for a byte. A percent sign without them stands for itself,
and bytes that are not UTF-8 read as replacement characters.
-/

namespace SessionGateway.Text.Form

/-- The text of encoded text. -/
def decode (s : List Char) : String :=
  Percent.decode (s.map fun c => if c = '+' then ' ' else c)

/-- The pairs of a query, in order; a pair without text is skipped. -/
def pairs (query : String) : List (String × String) :=
  ((partsAt '&' query.toList).filter (· ≠ [])).map fun part =>
    (decode (part.takeWhile (· ≠ '=')), decode ((part.dropWhile (· ≠ '=')).drop 1))

/-- Whether a byte stands for itself. -/
def isPlain (b : UInt8) : Bool :=
  let c := Char.ofNat b.toNat
  c.isAlphanum || c = '*' || c = '-' || c = '.' || c = '_'

def encodeByte (b : UInt8) : List Char :=
  if isPlain b then [Char.ofNat b.toNat]
  else if b = 0x20 then ['+']
  else Percent.escapeByte b

def encode (s : String) : List Char := (Utf8.encode s).flatMap encodeByte

end SessionGateway.Text.Form
