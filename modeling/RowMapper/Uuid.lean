/-!
# Universally unique identifiers

Sixteen bytes. They are written in lower case with hyphens in groups of 8, 4, 4, 4 and 12 digits.
Four forms are read, each of its letters in upper or lower case: 32 digits in a row, the written
form, the written form in braces, and the written form after `urn:uuid:`.
-/

namespace RowMapper

/-- An identifier of sixteen bytes. -/
structure Uuid where
  bytes : List UInt8
  length_eq : bytes.length = 16
  deriving DecidableEq

namespace Uuid

/-- The identifier of sixteen bytes. -/
def ofBytes? (bytes : List UInt8) : Option Uuid :=
  if h : bytes.length = 16 then some ⟨bytes, h⟩ else none

/-- The identifier whose bytes are all zero. -/
def nil : Uuid := ⟨List.replicate 16 0, rfl⟩

instance : Inhabited Uuid := ⟨nil⟩

/-- The two lower-case hexadecimal digits of a byte. -/
def byteText (b : UInt8) : List Char :=
  [Nat.digitChar (b.toNat / 16), Nat.digitChar (b.toNat % 16)]

/-- The 32 digits of an identifier. -/
def digits (u : Uuid) : List Char := u.bytes.flatMap byteText

/-- The digits in their five groups, with hyphens. -/
def text (u : Uuid) : List Char :=
  let d := u.digits
  d.take 8 ++ '-' :: ((d.drop 8).take 4 ++ '-' :: ((d.drop 12).take 4 ++
    '-' :: ((d.drop 16).take 4 ++ '-' :: d.drop 20)))

/-- The value of a hexadecimal digit of either case. -/
def digitValue? (c : Char) : Option UInt8 :=
  if '0' ≤ c ∧ c ≤ '9' then some (UInt8.ofNat (c.toNat - 48))
  else if 'a' ≤ c ∧ c ≤ 'f' then some (UInt8.ofNat (c.toNat - 87))
  else if 'A' ≤ c ∧ c ≤ 'F' then some (UInt8.ofNat (c.toNat - 55))
  else none

/-- The bytes of an even number of hexadecimal digits. -/
def bytesOfDigits? : List Char → Option (List UInt8)
  | [] => some []
  | [_] => none
  | high :: low :: rest => do
    let h ← digitValue? high
    let l ← digitValue? low
    let bytes ← bytesOfDigits? rest
    return (h * 16 + l) :: bytes

/-- Reads 32 digits in a row. -/
def ofSimple? (s : List Char) : Option Uuid := bytesOfDigits? s >>= ofBytes?

/-- Reads the form with hyphens. -/
def ofHyphenated? (s : List Char) : Option Uuid :=
  if s.length = 36 ∧ [8, 13, 18, 23].all (fun i => s[i]? == some '-') then
    ofSimple? (s.take 8 ++ (s.drop 9).take 4 ++ (s.drop 14).take 4 ++ (s.drop 19).take 4 ++
      s.drop 24)
  else none

/-- The name of the space of identifiers, in lower case. -/
def namespacePart : List Char := ['u', 'r', 'n', ':', 'u', 'u', 'i', 'd', ':']

/-- Reads any of the four forms. -/
def ofText? (s : List Char) : Option Uuid :=
  if s.head? = some '\x7b' then
    if s.getLast? = some '\x7d' then ofHyphenated? s.tail.dropLast else none
  else if (s.take 9).map Char.toLower = namespacePart then ofHyphenated? (s.drop 9)
  else if s.length = 32 then ofSimple? s
  else ofHyphenated? s

end Uuid

end RowMapper
