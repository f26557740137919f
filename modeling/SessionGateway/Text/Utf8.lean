/-!
# UTF-8

Reading bytes as UTF-8. Each maximal ill-formed part of the bytes is found once, so that a strict
reader can refuse it and a lenient one can put one replacement character in its place.
-/

namespace SessionGateway.Text.Utf8

/-- A character part way through: the continuation bytes still owed, the bounds of the next one,
and the bits read so far. -/
structure Partial where
  owed : Nat
  low : Nat
  high : Nat
  bits : Nat

/-- What a first byte starts: a whole character, a longer one, or nothing well formed. -/
inductive Lead where
  | whole (c : Char)
  | longer (p : Partial)
  | bad

def lead (b : Nat) : Lead :=
  if b < 0x80 then .whole (Char.ofNat b)
  else if 0xC2 ≤ b ∧ b ≤ 0xDF then .longer ⟨1, 0x80, 0xBF, b % 0x20⟩
  else if b = 0xE0 then .longer ⟨2, 0xA0, 0xBF, 0⟩
  else if b = 0xED then .longer ⟨2, 0x80, 0x9F, 0xD⟩
  else if 0xE1 ≤ b ∧ b ≤ 0xEF then .longer ⟨2, 0x80, 0xBF, b % 0x10⟩
  else if b = 0xF0 then .longer ⟨3, 0x90, 0xBF, 0⟩
  else if 0xF1 ≤ b ∧ b ≤ 0xF3 then .longer ⟨3, 0x80, 0xBF, b % 8⟩
  else if b = 0xF4 then .longer ⟨3, 0x80, 0x8F, 4⟩
  else .bad

/-- The characters of the bytes, an ill-formed part being `none`. -/
def scan : Option Partial → List (Option Char) → List UInt8 → List (Option Char)
  | none, done, [] => done.reverse
  | some _, done, [] => (none :: done).reverse
  | none, done, b :: rest =>
    match lead b.toNat with
    | .whole c => scan none (some c :: done) rest
    | .longer p => scan (some p) done rest
    | .bad => scan none (none :: done) rest
  | some p, done, b :: rest =>
    if p.low ≤ b.toNat ∧ b.toNat ≤ p.high then
      let bits := p.bits * 64 + b.toNat % 64
      if p.owed ≤ 1 then scan none (some (Char.ofNat bits) :: done) rest
      else scan (some ⟨p.owed - 1, 0x80, 0xBF, bits⟩) done rest
    else
      match lead b.toNat with
      | .whole c => scan none (some c :: none :: done) rest
      | .longer q => scan (some q) (none :: done) rest
      | .bad => scan none (none :: none :: done) rest

/-- The text of well-formed bytes. -/
def decode? (bytes : List UInt8) : Option String :=
  ((scan none [] bytes).mapM id).map String.ofList

/-- The text of any bytes, with U+FFFD for each ill-formed part. -/
def decodeLossy (bytes : List UInt8) : String :=
  String.ofList ((scan none [] bytes).map fun c => c.getD (Char.ofNat 0xFFFD))

def encode (s : String) : List UInt8 := s.toUTF8.toList

end SessionGateway.Text.Utf8
