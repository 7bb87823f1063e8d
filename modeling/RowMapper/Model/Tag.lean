import RowMapper.Error
import RowMapper.Text.Blank

/-!
# Field tags

A tag is a list of pairs `key=value` with commas between them. A piece without exactly one `=` is an
error. Keys and values are trimmed, and of pairs with the same key the last one counts. The empty
tag has no pairs.
-/

namespace RowMapper

/-- The pieces of a text between the occurrences of a character. There is always one. -/
def splitAt (separator : Char) : List Char → List (List Char)
  | [] => [[]]
  | c :: cs =>
    if c = separator then [] :: splitAt separator cs
    else match splitAt separator cs with
      | [] => [[c]]
      | piece :: pieces => (c :: piece) :: pieces

namespace Tag

/-- The key that names a field's column. -/
def columnKey : String := "column"

/-- The pair that a piece stands for. -/
def pairOf? (piece : List Char) : Option (String × String) :=
  match splitAt '=' piece with
  | [key, value] => some (String.ofList (Text.trim key), String.ofList (Text.trim value))
  | _ => none

/-- The pairs of the pieces of a tag, up to the first piece that is none. -/
def pairsOf : List (List Char) → Except Error (List (String × String))
  | [] => .ok []
  | piece :: pieces =>
    match pairOf? piece with
    | none => .error (.invalidTag (String.ofList piece))
    | some pair => (pairsOf pieces).map (pair :: ·)

/-- The pairs of a tag in order. -/
def pairs (tag : Option String) : Except Error (List (String × String)) :=
  match tag with
  | none => .ok []
  | some tag => if tag.isEmpty then .ok [] else pairsOf (splitAt ',' tag.toList)

/-- The value that pairs give a key: that of the last pair with the key. -/
def lookup? (key : String) (pairs : List (String × String)) : Option String :=
  (pairs.reverse.find? fun pair => pair.1 == key).map Prod.snd

end Tag

end RowMapper
