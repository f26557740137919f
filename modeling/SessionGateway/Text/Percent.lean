import SessionGateway.Text.Hex
import SessionGateway.Text.Utf8
/-!
# Percent encoding

A byte is written as a percent sign and two hexadecimal digits. A percent sign without them stands
for itself. Which bytes are written so depends on where they stand.
-/

namespace SessionGateway.Text.Percent

/-- The bytes that encoded bytes stand for. -/
def unescape : List UInt8 → List UInt8
  | [] => []
  | [b] => [b]
  | [a, b] => [a, b]
  | a :: b :: c :: rest =>
    if a = 0x25 then
      match hexDigit? (Char.ofNat b.toNat), hexDigit? (Char.ofNat c.toNat) with
      | some hi, some lo => UInt8.ofNat (hi * 16 + lo) :: unescape rest
      | _, _ => a :: unescape (b :: c :: rest)
    else a :: unescape (b :: c :: rest)

/-- The text of encoded text; bytes that are not UTF-8 read as replacement characters. -/
def decode (s : List Char) : String :=
  Utf8.decodeLossy (unescape (Utf8.encode (String.ofList s)))

def escapeByte (b : UInt8) : List Char :=
  ['%', upperHexDigit (b.toNat / 16), upperHexDigit (b.toNat % 16)]

/-- Writes a text so that only printable ASCII outside a set stands for itself. -/
def encode (isReserved : Char → Bool) (s : List Char) : List Char :=
  s.flatMap fun c =>
    if 0x20 ≤ c.toNat && c.toNat ≤ 0x7e && !isReserved c then [c]
    else (Utf8.encode (String.singleton c)).flatMap escapeByte

end SessionGateway.Text.Percent
