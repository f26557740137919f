import SessionGateway.Json.Basic
import SessionGateway.Text.Hex
/-!
# JSON documents

What the grammar of RFC 8259 alone finds in a text: members of objects in order and with
repetitions, to any depth, and with the texts and numbers that have no value still in place. A text
has no value if one of its surrogate escapes is unpaired, a number if it is too large for a double.

A document is read in one pass over the characters: the scanner hands each token to a builder that
holds the containers still open, so no bound on the depth is needed to read.
-/

namespace SessionGateway.Json

inductive Document where
  | null
  | bool (b : Bool)
  | number (n : Option Number)
  | text (s : Option String)
  | array (items : List Document)
  | object (members : List (Option String × Document))

/-- A part of a text token: a character, or a code unit from an escape. -/
inductive Piece where
  | char (c : Char)
  | codeUnit (n : Nat)

/-- Joins the pieces of a text, pairing surrogates; an unpaired one spoils the text. -/
def joinPieces : List Piece → Option (List Char)
  | [] => some []
  | .char c :: rest => (joinPieces rest).map (c :: ·)
  | .codeUnit hi :: .codeUnit lo :: rest =>
    if 0xD800 ≤ hi ∧ hi ≤ 0xDBFF then
      if 0xDC00 ≤ lo ∧ lo ≤ 0xDFFF then
        (joinPieces rest).map
          (Char.ofNat (0x10000 + (hi - 0xD800) * 0x400 + (lo - 0xDC00)) :: ·)
      else none
    else if 0xDC00 ≤ hi ∧ hi ≤ 0xDFFF then none
    else (joinPieces (.codeUnit lo :: rest)).map (Char.ofNat hi :: ·)
  | .codeUnit n :: rest =>
    if 0xD800 ≤ n ∧ n ≤ 0xDFFF then none
    else (joinPieces rest).map (Char.ofNat n :: ·)

/-! ### Numbers -/

/-- A number as it is spelled. -/
structure Spelling where
  negative : Bool
  whole : List Nat
  fraction : Option (List Nat)
  power : Option Int

/-- The digits at the front, and the rest. -/
def takeDigits : List Char → List Nat × List Char
  | [] => ([], [])
  | c :: rest =>
    if '0' ≤ c ∧ c ≤ '9' then
      let (ds, rest') := takeDigits rest
      ((c.toNat - '0'.toNat) :: ds, rest')
    else ([], c :: rest)

def natOfDigits (ds : List Nat) : Nat := ds.foldl (fun n d => n * 10 + d) 0

/-- The exponent part: a mark, a sign, at least one digit. -/
def readPower : List Char → Option (Option Int)
  | [] => some none
  | c :: rest =>
    if c = 'e' ∨ c = 'E' then
      let (negative, rest) :=
        match rest with
        | '-' :: r => (true, r)
        | '+' :: r => (false, r)
        | r => (false, r)
      match takeDigits rest with
      | ([], _) => none
      | (ds, []) => some (some (if negative then -(natOfDigits ds : Int) else natOfDigits ds))
      | (_, _ :: _) => none
    else none

/-- A number spelled as the grammar asks: no needless zero in front, and digits after a point. -/
def readSpelling (s : List Char) : Option Spelling :=
  let (negative, s) :=
    match s with
    | '-' :: rest => (true, rest)
    | rest => (false, rest)
  match takeDigits s with
  | ([], _) => none
  | (0 :: _ :: _, _) => none
  | (whole, '.' :: rest) =>
    match takeDigits rest with
    | ([], _) => none
    | (fraction, rest) => (readPower rest).map fun p => ⟨negative, whole, some fraction, p⟩
  | (whole, rest) => (readPower rest).map fun p => ⟨negative, whole, none, p⟩

/-- Appends digits to a significand while it fits in 64 bits; the digits that are left. -/
def absorb (significand : Nat) : List Nat → Nat × List Nat
  | [] => (significand, [])
  | d :: rest =>
    if significand * 10 + d < UInt64.size then absorb (significand * 10 + d) rest
    else (significand, d :: rest)

/-- The value of a spelling. Without a point or an exponent it is an integer if 64 bits hold it,
and minus zero is a double. -/
def Spelling.value? (s : Spelling) : Option Number :=
  let (significand, cut) := absorb 0 s.whole
  let asFloat (m : Option Magnitude) : Option Number := m.map fun x => .float (x.bits s.negative)
  match s.fraction, s.power with
  | none, none =>
    if cut ≠ [] then asFloat (Magnitude.ofDecimal? significand cut.length)
    else if !s.negative then some (.int significand)
    else if significand = 0 ∨ Magnitude.signBit < significand then
      asFloat (Magnitude.ofDecimal? significand 0)
    else some (.int (-(significand : Int)))
  | fraction, power =>
    let digits := fraction.getD []
    let (full, lost) := absorb significand digits
    asFloat (Magnitude.ofDecimal? full
      ((cut.length : Int) - ((digits.length - lost.length : Nat) : Int) + power.getD 0))

/-! ### Tokens -/

inductive Token where
  | openArray
  | closeArray
  | openObject
  | closeObject
  | comma
  | colon
  | text (pieces : List Piece)
  | number (n : Option Number)
  | null
  | bool (b : Bool)

/-- Where the scanner stands between two characters. -/
inductive Scan where
  | between
  | inText (done : List Piece)
  | inEscape (done : List Piece)
  | inUnit (done : List Piece) (owed value : Nat)
  | inNumber (done : List Char)
  | inWord (done : List Char)

def isSpace (c : Char) : Bool := c = ' ' || c = '\t' || c = '\n' || c = '\r'

def isNumberChar (c : Char) : Bool :=
  ('0' ≤ c && c ≤ '9') || c = '-' || c = '+' || c = '.' || c = 'e' || c = 'E'

def isWordChar (c : Char) : Bool := 'a' ≤ c && c ≤ 'z'

def word? (w : List Char) : Option Token :=
  if w = ['n', 'u', 'l', 'l'] then some .null
  else if w = ['t', 'r', 'u', 'e'] then some (.bool true)
  else if w = ['f', 'a', 'l', 's', 'e'] then some (.bool false)
  else none

/-- The character of a one-letter escape. -/
def escape? (c : Char) : Option Char :=
  if c = '"' ∨ c = '\\' ∨ c = '/' then some c
  else if c = 'b' then some (Char.ofNat 8)
  else if c = 'f' then some (Char.ofNat 12)
  else if c = 'n' then some '\n'
  else if c = 'r' then some '\r'
  else if c = 't' then some '\t'
  else none

/-! ### Building -/

/-- A container that is still open, with what it holds so far, last first. -/
inductive Frame where
  | array (items : List Document)
  | object (members : List (Option String × Document)) (key : Option String)

/-- What may come next. -/
inductive Expect where
  | value
  | valueOrClose
  | key
  | keyOrClose
  | colon
  | separator

/-- The open containers, innermost first; at the end, the whole document. -/
inductive Build where
  | building (frames : List Frame) (expect : Expect)
  | built (d : Document)

namespace Build

def start : Build := .building [] .value

/-- Puts a finished value into the innermost container. -/
def place (d : Document) : List Frame → Build
  | [] => .built d
  | .array items :: rest => .building (.array (d :: items) :: rest) .separator
  | .object members key :: rest => .building (.object ((key, d) :: members) none :: rest) .separator

def feed : Build → Token → Option Build
  | .built _, _ => none
  | .building frames expect, token =>
    let value (d : Document) : Option Build :=
      match expect with
      | .value | .valueOrClose => some (place d frames)
      | _ => none
    match token with
    | .null => value .null
    | .bool b => value (.bool b)
    | .number n => value (.number n)
    | .text pieces =>
      let s := (joinPieces pieces).map String.ofList
      match expect, frames with
      | .key, .object members _ :: rest | .keyOrClose, .object members _ :: rest =>
        some (.building (.object members s :: rest) .colon)
      | _, _ => value (.text s)
    | .openArray =>
      match expect with
      | .value | .valueOrClose => some (.building (.array [] :: frames) .valueOrClose)
      | _ => none
    | .openObject =>
      match expect with
      | .value | .valueOrClose => some (.building (.object [] none :: frames) .keyOrClose)
      | _ => none
    | .closeArray =>
      match expect, frames with
      | .separator, .array items :: rest | .valueOrClose, .array items :: rest =>
        some (place (.array items.reverse) rest)
      | _, _ => none
    | .closeObject =>
      match expect, frames with
      | .separator, .object members _ :: rest | .keyOrClose, .object members _ :: rest =>
        some (place (.object members.reverse) rest)
      | _, _ => none
    | .comma =>
      match expect, frames with
      | .separator, .array items :: rest => some (.building (.array items :: rest) .value)
      | .separator, .object members key :: rest =>
        some (.building (.object members key :: rest) .key)
      | _, _ => none
    | .colon =>
      match expect with
      | .colon => some (.building frames .value)
      | _ => none

end Build

/-- The scanner and the builder that it feeds. -/
structure Reader where
  scan : Scan
  build : Build

namespace Reader

def start : Reader := ⟨.between, .start⟩

/-- Hands a token over and stands between tokens again. -/
def emit (r : Reader) (t : Token) : Option Reader := (r.build.feed t).map fun b => ⟨.between, b⟩

def punctuation? (c : Char) : Option Token :=
  if c = '[' then some .openArray
  else if c = ']' then some .closeArray
  else if c.toNat = 0x7b then some .openObject
  else if c.toNat = 0x7d then some .closeObject
  else if c = ',' then some .comma
  else if c = ':' then some .colon
  else none

/-- A character between tokens. -/
def begin (r : Reader) (c : Char) : Option Reader :=
  if isSpace c then some r
  else if c = '"' then some ⟨.inText [], r.build⟩
  else if isNumberChar c && c ≠ 'e' then some ⟨.inNumber [c], r.build⟩
  else if isWordChar c then some ⟨.inWord [c], r.build⟩
  else (punctuation? c).bind r.emit

/-- Ends a number or a word, whose extent only the next character shows. -/
def settle (r : Reader) : Option Reader :=
  match r.scan with
  | .inNumber done => (readSpelling done.reverse).bind fun s => r.emit (.number s.value?)
  | .inWord done => (word? done.reverse).bind r.emit
  | .between => some r
  | _ => none

def step (r : Reader) (c : Char) : Option Reader :=
  match r.scan with
  | .between => r.begin c
  | .inNumber done =>
    if isNumberChar c then some ⟨.inNumber (c :: done), r.build⟩
    else r.settle.bind fun r => r.begin c
  | .inWord done =>
    if isWordChar c then some ⟨.inWord (c :: done), r.build⟩
    else r.settle.bind fun r => r.begin c
  | .inText done =>
    if c = '"' then r.emit (.text done.reverse)
    else if c = '\\' then some ⟨.inEscape done, r.build⟩
    else if c.toNat < 0x20 then none
    else some ⟨.inText (.char c :: done), r.build⟩
  | .inEscape done =>
    if c = 'u' then some ⟨.inUnit done 4 0, r.build⟩
    else (escape? c).map fun c => ⟨.inText (.char c :: done), r.build⟩
  | .inUnit done owed value =>
    (Text.hexDigit? c).map fun d =>
      if owed ≤ 1 then ⟨.inText (.codeUnit (value * 16 + d) :: done), r.build⟩
      else ⟨.inUnit done (owed - 1) (value * 16 + d), r.build⟩

def readFrom (r : Reader) : List Char → Option Document
  | [] =>
    match r.settle with
    | some ⟨_, .built d⟩ => some d
    | _ => none
  | c :: rest => (r.step c).bind fun r => readFrom r rest

end Reader

namespace Document

/-- The document that a text is, if the text is one document between spaces. -/
def read? (s : String) : Option Document := Reader.start.readFrom s.toList

/-- How many containers may be open at once in a value. -/
def maxDepth : Nat := 127

mutual

/-- The value of a document with at most `room` containers open at once. Of a repeated key the last
value counts. -/
def toJson? (room : Nat) : Document → Option Json
  | .null => some .null
  | .bool b => some (.bool b)
  | .number n => n.map .number
  | .text s => s.map .text
  | .array items =>
    match room with
    | 0 => none
    | room + 1 => (itemsToJson? room items).map .array
  | .object members =>
    match room with
    | 0 => none
    | room + 1 => (membersToJson? room [] members).map .object

def itemsToJson? (room : Nat) : List Document → Option (List Json)
  | [] => some []
  | d :: rest =>
    match toJson? room d, itemsToJson? room rest with
    | some j, some js => some (j :: js)
    | _, _ => none

def membersToJson? (room : Nat) (done : List (String × Json)) :
    List (Option String × Document) → Option (List (String × Json))
  | [] => some done
  | (key, d) :: rest =>
    match key, toJson? room d with
    | some k, some j => membersToJson? room (putPair k j done) rest
    | _, _ => none

end

mutual

/-- The document that says the same as a value. -/
def ofJson : Json → Document
  | .null => .null
  | .bool b => .bool b
  | .number n => .number (some n)
  | .text s => .text (some s)
  | .array items => .array (ofItems items)
  | .object members => .object (ofMembers members)

def ofItems : List Json → List Document
  | [] => []
  | j :: rest => ofJson j :: ofItems rest

def ofMembers : List (String × Json) → List (Option String × Document)
  | [] => []
  | (k, j) :: rest => (some k, ofJson j) :: ofMembers rest

end

end Document

/-- The value that a text is. -/
def read? (s : String) : Option Json := (Document.read? s).bind (Document.toJson? Document.maxDepth)

end SessionGateway.Json
