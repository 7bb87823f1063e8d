import RowMapper.Text.Uppercase

/-!
# Default names

The default name of a table or a column is the declared name with underscores: every upper-case
letter is written in lower case, and an underscore stands before it unless it is the first
character.
-/

namespace RowMapper

/-- The characters of a default name, after the first. -/
def underscoreRest (cs : List Char) : List Char :=
  cs.flatMap fun c => match Text.lowercaseOf? c with
    | some lower => '_' :: lower
    | none => [c]

/-- The characters of a default name. -/
def underscoreChars : List Char → List Char
  | [] => []
  | c :: cs => (Text.lowercaseOf? c).getD [c] ++ underscoreRest cs

/-- The default name for a declared name. -/
def underscoreName (name : String) : String := String.ofList (underscoreChars name.toList)

end RowMapper
