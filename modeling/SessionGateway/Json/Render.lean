import SessionGateway.Json.Basic
import SessionGateway.Text.Hex
/-!
# JSON text

The compact text of a value: no spaces, members in their order, and in a text an escape for the
quote, the backslash and the control characters only.
-/

namespace SessionGateway.Json

/-- A character as it stands in a text. -/
def escape (c : Char) : List Char :=
  if c = '"' then ['\\', '"']
  else if c = '\\' then ['\\', '\\']
  else if c = '\n' then ['\\', 'n']
  else if c = '\r' then ['\\', 'r']
  else if c = '\t' then ['\\', 't']
  else if c.toNat = 8 then ['\\', 'b']
  else if c.toNat = 12 then ['\\', 'f']
  else if c.toNat < 0x20 then ['\\', 'u'] ++ Text.hexDigits 4 c.toNat
  else [c]

def quote (s : String) : List Char := '"' :: s.toList.flatMap escape ++ ['"']

def intText (n : Int) : List Char :=
  if n < 0 then '-' :: Nat.toDigits 10 n.natAbs else Nat.toDigits 10 n.natAbs

/-- The exact decimal value of a finite double: every one is an integer over a power of two, hence
an integer times a power of ten. -/
def floatText (bits : UInt64) : List Char :=
  let n : Nat := bits.toNat
  let field : Nat := n / Magnitude.leastNormal % 2048
  let part : Nat := n % Magnitude.leastNormal
  let mantissa : Nat := if field = 0 then part else part + Magnitude.leastNormal
  let power : Int := Int.ofNat (if field = 0 then 1 else field) - 1075
  let sign := if Magnitude.signBit ≤ n then ['-'] else []
  if 0 ≤ power then sign ++ Nat.toDigits 10 (mantissa * Nat.pow 2 power.toNat) ++ ['e', '0']
  else sign ++ Nat.toDigits 10 (mantissa * Nat.pow 5 power.natAbs) ++ 'e' :: intText power

def numberText : Number → List Char
  | .int n => intText n
  | .float bits => floatText bits

/-- Puts a comma between the texts. -/
def separate : List (List Char) → List Char
  | [] => []
  | [s] => s
  | s :: rest => s ++ ',' :: separate rest

mutual

def chars : Json → List Char
  | .null => ['n', 'u', 'l', 'l']
  | .bool true => ['t', 'r', 'u', 'e']
  | .bool false => ['f', 'a', 'l', 's', 'e']
  | .number n => numberText n
  | .text s => quote s
  | .array items => '[' :: separate (itemChars items) ++ [']']
  | .object members => Char.ofNat 0x7b :: separate (memberChars members) ++ [Char.ofNat 0x7d]

def itemChars : List Json → List (List Char)
  | [] => []
  | j :: rest => chars j :: itemChars rest

def memberChars : List (String × Json) → List (List Char)
  | [] => []
  | (k, j) :: rest => (quote k ++ ':' :: chars j) :: memberChars rest

end

/-- The compact text of a value. -/
def render (j : Json) : String := String.ofList j.chars

end SessionGateway.Json
