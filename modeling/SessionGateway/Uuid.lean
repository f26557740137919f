import SessionGateway.Text.Hex
/-!
# Time-ordered identifiers

The text of an identifier made of a time in milliseconds and random bits: 36 characters, the
version digit being 7.
-/

namespace SessionGateway

/-- The version-7 identifier of a time and 74 random bits. -/
def uuidV7 (millis random : Nat) : String :=
  let time := Text.hexDigits 12 millis
  let high := Text.hexDigits 3 (random / 0x4000000000000000)
  let low := Text.hexDigits 16 (0x8000000000000000 + random % 0x4000000000000000)
  String.ofList (time.take 8 ++ '-' :: time.drop 8 ++ '-' :: '7' :: high ++ '-' :: low.take 4 ++
    '-' :: low.drop 4)

example : (uuidV7 1700000000000 0).length = 36 := by decide +kernel

end SessionGateway
