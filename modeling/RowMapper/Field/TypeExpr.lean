import RowMapper.Field.Type

/-!
# Types as they are written in a declaration

The declaration of an entity names the type of each field by a path, the last step of which may
have arguments. `TypeExpr.ofText?` reads the written form that `TypeExpr.text` gives.
`TypeExpr.columnType` reads the storage class off the names alone, without knowing what a name
stands for; `TypeExpr.fieldType?` knows the names of the basic types.
-/

namespace RowMapper

/-- A type as written: the steps of a path and the arguments of the last one. -/
inductive TypeExpr where
  | path (qualifiers : List String) (name : String) (arguments : List TypeExpr)

namespace TypeExpr

/-- A name without qualifiers or arguments. -/
def simple (name : String) : TypeExpr := path [] name []

/-- The last step of the path. -/
def name : TypeExpr → String
  | path _ name _ => name

/-- The first argument. -/
def firstArgument? : TypeExpr → Option TypeExpr
  | path _ _ arguments => arguments.head?

mutual

/-- The text of a type, without blanks. -/
def text : TypeExpr → String
  | path qualifiers name arguments =>
    "::".intercalate (qualifiers ++ [name]) ++ argumentText arguments

/-- The text of the arguments of a type. -/
def argumentText : List TypeExpr → String
  | [] => ""
  | arguments => "<" ++ ",".intercalate (argumentTexts arguments) ++ ">"

/-- The texts of some types. -/
def argumentTexts : List TypeExpr → List String
  | [] => []
  | t :: ts => text t :: argumentTexts ts

end

/-- Whether a character ends a name. -/
def endsName (c : Char) : Bool := c == ':' || c == '<' || c == '>' || c == ','

mutual

/-- Reads a type, with fuel for its steps and arguments. -/
def readType : Nat → List Char → Option (TypeExpr × List Char)
  | 0, _ => none
  | fuel + 1, s =>
    let (first, rest) := s.span fun c => !endsName c
    let step := String.ofList first
    match rest with
    | ':' :: ':' :: rest => do
      let (path qualifiers name arguments, rest) ← readType fuel rest
      return (path (step :: qualifiers) name arguments, rest)
    | '<' :: rest => do
      let (arguments, rest) ← readArguments fuel rest
      return (path [] step arguments, rest)
    | rest => some (path [] step [], rest)

/-- Reads arguments up to the mark that closes them. -/
def readArguments : Nat → List Char → Option (List TypeExpr × List Char)
  | 0, _ => none
  | fuel + 1, s => do
    let (t, rest) ← readType fuel s
    match rest with
    | ',' :: rest => do
      let (ts, rest) ← readArguments fuel rest
      return (t :: ts, rest)
    | '>' :: rest => return ([t], rest)
    | _ => none

end

/-- Reads a type from the whole of a text. -/
def ofText? (s : String) : Option TypeExpr :=
  match readType (2 * s.length + 1) s.toList with
  | some (t, []) => some t
  | _ => none

/-- The type under one layer of being optional. -/
def withoutOption (t : TypeExpr) : TypeExpr :=
  if t.name = "Option" then t.firstArgument?.getD t else t

/-- Whether a type is a vector of bytes. -/
def isByteVector (t : TypeExpr) : Bool :=
  t.name == "Vec" && (t.firstArgument?.map name) == some "u8"

/-- The storage class of a field by the text of its type. Whatever is not known by its last name is
stored as text. -/
def columnType (t : TypeExpr) : ColumnType :=
  let inner := t.withoutOption
  if inner.name ∈ ["i8", "i16", "i32", "i64", "u8", "u16", "u32", "bool"] then .integer
  else if inner.name ∈ ["f32", "f64"] then .float
  else if inner.isByteVector then .blob
  else if inner.name = "Value" then .null
  else .text

/-- The basic type of a name. -/
def basicType? : String → Option FieldType
  | "i8" => some (.integer .int8)
  | "i16" => some (.integer .int16)
  | "i32" => some (.integer .int32)
  | "i64" => some (.integer .int64)
  | "u8" => some (.integer .uint8)
  | "u16" => some (.integer .uint16)
  | "u32" => some (.integer .uint32)
  | "f32" => some (.float .single)
  | "f64" => some (.float .double)
  | "bool" => some .bool
  | "String" => some .text
  | "Value" => some .value
  | "NaiveDateTime" => some .timestamp
  | "NaiveDate" => some .date
  | "Uuid" => some .uuid
  | _ => none

/-- The field type that a written type stands for, if all its names are known ones. -/
def fieldType? : TypeExpr → Option FieldType
  | path _ name [] => basicType? name
  | path _ "Option" [inner] => inner.fieldType?.map .optional
  | path _ "Vec" [path _ "u8" []] => some .blob
  | path _ "DateTime" [path _ "Utc" []] => some .instant
  | path _ "Json" [path _ "Value" []] => some (.json .any)
  | path _ "Json" [path _ "Vec" [path _ "i64" []]] => some (.json .integers)
  | _ => none

end TypeExpr

end RowMapper
