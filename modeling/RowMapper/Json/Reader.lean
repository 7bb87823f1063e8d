import RowMapper.Json.Number

/-!
# Reading JSON texts

`Json.ofText?` reads a whole text. Blanks are the space, tab, line feed and carriage return.
Control characters inside strings, escaped surrogates that form no pair, commas before a closing
bracket and anything after the document are refused, and so is a document whose arrays and objects
nest more than 127 levels deep.
-/

namespace RowMapper.Json

/-- Skips blanks. -/
def skipBlanks (s : List Char) : List Char :=
  s.dropWhile fun c => c == ' ' || c == '\n' || c == '\t' || c == '\r'

/-- The value of a hexadecimal digit of either case. -/
def hexValue? (c : Char) : Option Nat :=
  if c.isDigit then some (c.toNat - 48)
  else if 'a' ≤ c ∧ c ≤ 'f' then some (c.toNat - 87)
  else if 'A' ≤ c ∧ c ≤ 'F' then some (c.toNat - 55)
  else none

/-- Reads four hexadecimal digits. -/
def readUnit : List Char → Option (Nat × List Char)
  | a :: b :: c :: d :: rest => do
    let a ← hexValue? a
    let b ← hexValue? b
    let c ← hexValue? c
    let d ← hexValue? d
    return (a * 4096 + b * 256 + c * 16 + d, rest)
  | _ => none

/-- Reads the character of an escape `\u`, whose digits may be those of a pair of surrogates. -/
def readCodePoint (s : List Char) : Option (Char × List Char) := do
  let (high, rest) ← readUnit s
  if 0xdc00 ≤ high ∧ high ≤ 0xdfff then none
  else if 0xd800 ≤ high ∧ high ≤ 0xdbff then
    match rest with
    | '\\' :: 'u' :: rest =>
      let (low, rest) ← readUnit rest
      if 0xdc00 ≤ low ∧ low ≤ 0xdfff then
        return (Char.ofNat (0x10000 + (high - 0xd800) * 0x400 + (low - 0xdc00)), rest)
      else none
    | _ => none
  else return (Char.ofNat high, rest)

/-- The character that a short escape stands for. -/
def shortEscape? : Char → Option Char
  | '"' => some '"'
  | '\\' => some '\\'
  | '/' => some '/'
  | 'b' => some '\x08'
  | 'f' => some '\x0c'
  | 'n' => some '\n'
  | 'r' => some '\r'
  | 't' => some '\t'
  | _ => none

/-- Reads the rest of a string after its opening quote. Every step takes a character, so as much
fuel as there are characters is enough. -/
def readString : Nat → List Char → Option (List Char × List Char)
  | 0, _ => none
  | _ + 1, [] => none
  | fuel + 1, c :: rest =>
    if c = '"' then some ([], rest)
    else if c = '\\' then
      match rest with
      | 'u' :: rest => do
        let (ch, rest) ← readCodePoint rest
        let (cs, rest) ← readString fuel rest
        return (ch :: cs, rest)
      | e :: rest => do
        let ch ← shortEscape? e
        let (cs, rest) ← readString fuel rest
        return (ch :: cs, rest)
      | [] => none
    else if c.toNat < 0x20 then none
    else do
      let (cs, rest) ← readString fuel rest
      return (c :: cs, rest)

/-- Reads a given word. -/
def readWord (word : List Char) (s : List Char) : Option (List Char) :=
  if word.isPrefixOf s then some (s.drop word.length) else none

/-- Reads a string after its opening quote as a text. -/
def readText (s : List Char) : Option (String × List Char) :=
  (readString (s.length + 1) s).map fun (cs, rest) => (String.ofList cs, rest)

mutual

/-- Reads a document after any blanks; `depth` counts the levels that may still open. -/
def readValue (depth : Nat) : Nat → List Char → Option (Json × List Char)
  | 0, _ => none
  | fuel + 1, s =>
    match skipBlanks s with
    | 'n' :: rest => (readWord ['u', 'l', 'l'] rest).map fun rest => (null, rest)
    | 't' :: rest => (readWord ['r', 'u', 'e'] rest).map fun rest => (bool true, rest)
    | 'f' :: rest => (readWord ['a', 'l', 's', 'e'] rest).map fun rest => (bool false, rest)
    | '"' :: rest => (readText rest).map fun (s, rest) => (string s, rest)
    | '[' :: rest =>
      match depth with
      | 0 => none
      | depth + 1 =>
        match skipBlanks rest with
        | ']' :: rest => some (array [], rest)
        | rest => (readItems depth fuel rest).map fun (items, rest) => (array items, rest)
    | '\x7b' :: rest =>
      match depth with
      | 0 => none
      | depth + 1 =>
        match skipBlanks rest with
        | '\x7d' :: rest => some (object [], rest)
        | rest => (readMembers depth fuel rest).map fun (members, rest) => (ofMembers members, rest)
    | s => readNumber s

/-- Reads the items of an array, of which there is one, and its closing bracket. -/
def readItems (depth : Nat) : Nat → List Char → Option (List Json × List Char)
  | 0, _ => none
  | fuel + 1, s => do
    let (item, rest) ← readValue depth fuel s
    match skipBlanks rest with
    | ',' :: rest =>
      let (items, rest) ← readItems depth fuel rest
      return (item :: items, rest)
    | ']' :: rest => return ([item], rest)
    | _ => none

/-- Reads the members of an object, of which there is one, and its closing brace. -/
def readMembers (depth : Nat) : Nat → List Char → Option (List (String × Json) × List Char)
  | 0, _ => none
  | fuel + 1, s =>
    match skipBlanks s with
    | '"' :: rest => do
      let (name, rest) ← readText rest
      match skipBlanks rest with
      | ':' :: rest =>
        let (item, rest) ← readValue depth fuel rest
        match skipBlanks rest with
        | ',' :: rest =>
          let (members, rest) ← readMembers depth fuel rest
          return ((name, item) :: members, rest)
        | '\x7d' :: rest => return ([(name, item)], rest)
        | _ => none
      | _ => none
    | _ => none

end

/-- The levels of arrays and objects that may nest. -/
def depthLimit : Nat := 127

/-- The document that a whole text stands for. -/
def ofText? (s : String) : Option Json :=
  match readValue depthLimit (2 * s.length + 2) s.toList with
  | some (j, rest) => if (skipBlanks rest).isEmpty then some j else none
  | none => none

end RowMapper.Json
