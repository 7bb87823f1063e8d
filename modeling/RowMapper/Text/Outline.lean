import RowMapper.Text.Quoted

/-!
# Outlines of structured values

The one-line text under which a value appears in messages: a record is its name with its fields in
braces, a case with contents is its name with the contents in parentheses, a list stands in
brackets. The parts are texts already.
-/

namespace RowMapper.Outline

/-- The parts with a comma and a space between them. -/
def joined (parts : List String) : String := ", ".intercalate parts

/-- A record, its name and then its fields in order, each with its name. -/
def record (name : String) (fields : List (String × String)) : String :=
  name ++ " \x7b " ++ joined (fields.map fun f => f.1 ++ ": " ++ f.2) ++ " \x7d"

/-- A case with one content. -/
def tagged (name : String) (content : String) : String := name ++ "(" ++ content ++ ")"

/-- A list in brackets. -/
def list (items : List String) : String := "[" ++ joined items ++ "]"

/-- A part that may be missing. -/
def optional : Option String → String
  | none => "None"
  | some s => tagged "Some" s

/-- A quoted text that may be missing. -/
def optionalText (s : Option String) : String := optional (s.map Text.quoted)

/-- The word for a truth value. -/
def flag (b : Bool) : String := if b then "true" else "false"

end RowMapper.Outline
