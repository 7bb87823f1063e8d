import RowMapper.Json.Basic
import RowMapper.Number.Decimal

/-!
# Writing JSON texts

Documents are written without blanks. Inside strings the quote, the backslash and the control
characters are escaped, with the short escapes where there are such. A floating point number keeps a
point or an exponent, so that it is read as one again.
-/

namespace RowMapper.Json

/-- Floating point numbers in JSON: positional from `0.00001` up to below `10 ^ 16`, a tie between
two shortest texts goes to the even digit, and every power of ten has a sign. -/
def floatLayout : DecimalLayout := ⟨.toEven, 5, true⟩

/-- A control character as four hexadecimal digits. -/
def unitEscape (n : Nat) : List Char :=
  ['\\', 'u', '0', '0', Nat.digitChar (n / 16), Nat.digitChar (n % 16)]

/-- How one character stands inside a string. -/
def stringChar (c : Char) : List Char :=
  if c = '"' then ['\\', '"']
  else if c = '\\' then ['\\', '\\']
  else if c = '\x08' then ['\\', 'b']
  else if c = '\x0c' then ['\\', 'f']
  else if c = '\n' then ['\\', 'n']
  else if c = '\r' then ['\\', 'r']
  else if c = '\t' then ['\\', 't']
  else if c.toNat < 0x20 then unitEscape c.toNat
  else [c]

/-- A string in quotes. -/
def stringText (s : String) : String :=
  String.ofList ('"' :: (s.toList.flatMap stringChar ++ ['"']))

mutual

/-- The text of a document. -/
def text : Json → String
  | null => "null"
  | bool b => if b then "true" else "false"
  | integer n => toString n
  | float x => match x.magnitude with
    | .finite _ _ => floatLayout.render x
    | _ => "null"
  | string s => stringText s
  | array items => "[" ++ ",".intercalate (itemTexts items) ++ "]"
  | object members => "\x7b" ++ ",".intercalate (memberTexts members) ++ "\x7d"

/-- The texts of the items of an array. -/
def itemTexts : List Json → List String
  | [] => []
  | j :: js => text j :: itemTexts js

/-- The texts of the members of an object. -/
def memberTexts : List (String × Json) → List String
  | [] => []
  | (name, j) :: ms => (stringText name ++ ":" ++ text j) :: memberTexts ms

end

end RowMapper.Json
