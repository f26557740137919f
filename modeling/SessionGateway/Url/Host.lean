import SessionGateway.Text.Parts
import SessionGateway.Text.Percent
/-!
# Hosts

How the host of an address is written. A host whose last part is a number is an IPv4 address: one to
four numbers between points, decimal, octal behind `0` or hexadecimal behind `0x`, the last of which
fills all bytes that are left. An IPv6 address is eight groups between colons, of which `::` stands
for some that are zero, and the last two of which may be written as an IPv4 address.
-/

namespace SessionGateway.Url

open Text (hexDigit?)

/-- Continues a number with digits below a base. -/
def numeral? (base : Nat) (value : Nat) : List Char → Option Nat
  | [] => some value
  | c :: rest =>
    match hexDigit? c with
    | some d => if d < base then numeral? base (value * base + d) rest else none
    | none => none

/-- One number of an IPv4 address. -/
def addressPart? : List Char → Option Nat
  | [] => none
  | '0' :: 'x' :: rest | '0' :: 'X' :: rest => numeral? 16 0 rest
  | '0' :: rest => numeral? 8 0 rest
  | s => numeral? 10 0 s

/-- The address of its numbers: each but the last is a byte. -/
def ofParts? (value : Nat) (bytesLeft : Nat) : List Nat → Option Nat
  | [] => none
  | [n] => if n < Nat.pow 256 bytesLeft then some (value * Nat.pow 256 bytesLeft + n) else none
  | n :: rest => if n < 256 then ofParts? (value * 256 + n) (bytesLeft - 1) rest else none

/-- The number of an IPv4 address. -/
def ipv4? (s : List Char) : Option Nat := do
  let parts ← (Text.partsAt '.' s).mapM addressPart?
  if parts.length ≤ 4 then ofParts? 0 4 parts else none

/-- The four bytes of an IPv4 address. -/
def bytesOf (address : Nat) : List UInt8 :=
  [address / 0x1000000, address / 0x10000, address / 0x100, address].map UInt8.ofNat

/-- The IPv4 address of a host that needs no name service. -/
def knownAddress? (host : String) : Option Nat :=
  if host = "localhost" then some 0x7F000001 else ipv4? host.toList

/-- A host without one point at its end. -/
def withoutFinalPoint (s : List Char) : List Char :=
  if s.getLast? = some '.' && s.length ≠ 1 then s.dropLast else s

/-- Whether the last part of a host is a number, so that the host must be an IPv4 address. -/
def endsInNumber (s : List Char) : Bool :=
  match (Text.partsAt '.' (withoutFinalPoint s)).getLast? with
  | none | some [] => false
  | some part => part.all (fun c => '0' ≤ c && c ≤ '9') || (addressPart? part).isSome

/-- The number of groups written between colons, if each is one. -/
def groupCount? (s : List Char) : Option Nat :=
  if s = [] then some 0
  else
    let parts := Text.partsAt ':' s
    let isGroup (p : List Char) : Bool :=
      p ≠ [] && p.length ≤ 4 && p.all fun c => (hexDigit? c).isSome
    let isDotted (p : List Char) : Bool := p.count '.' = 3 && (ipv4? p).isSome
    if parts.all isGroup then some parts.length
    else if parts.dropLast.all isGroup && (parts.getLast?.map isDotted).getD false then
      some (parts.length + 1)
    else none

/-- The parts of a text before and behind its first `::`. -/
def atGap? : List Char → Option (List Char × List Char)
  | [] => none
  | ':' :: ':' :: rest => some ([], rest)
  | c :: rest => (atGap? rest).map fun e => (c :: e.1, e.2)

/-- Whether a text is an IPv6 address. -/
def isIpv6 (s : List Char) : Bool :=
  match atGap? s with
  | none => groupCount? s = some 8
  | some (before, behind) =>
    match groupCount? before, groupCount? behind with
    | some m, some n => !before.contains '.' && m + n ≤ 7
    | _, _ => false

/-- Whether a character may stand in no host. -/
def isForbidden (c : Char) : Bool :=
  c.toNat = 0 || c = '\t' || c = '\n' || c = '\r' || " #/:<>?@[\\]^|".toList.contains c

/-- Whether a character may stand in no domain. -/
def isForbiddenInDomain (c : Char) : Bool :=
  isForbidden c || c.toNat < 0x20 || c = '%' || c.toNat = 0x7f

/-- The host of a web address: its case does not matter, and escapes in it are resolved. -/
def domain? (s : List Char) : Option String :=
  let host := (Text.Percent.decode s).toList.map Char.toLower
  if host = [] || host.any isForbiddenInDomain then none
  else if endsInNumber host then
    (ipv4? (withoutFinalPoint host)).map fun n =>
      String.intercalate "." ((bytesOf n).map fun b => toString b.toNat)
  else some (String.ofList host)

/-- The host between an address's user part and its port. -/
def host? (isWeb : Bool) (s : List Char) : Option String :=
  match s with
  | '[' :: rest =>
    if rest.getLast? = some ']' && isIpv6 rest.dropLast then some (String.ofList s) else none
  | s => if isWeb then domain? s else if s.any isForbidden then none else some (String.ofList s)

end SessionGateway.Url
