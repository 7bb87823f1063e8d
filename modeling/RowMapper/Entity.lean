import RowMapper.Field.Codec
import RowMapper.Field.TypeExpr

/-!
# Entities

An entity type is the declaration of a record: its fields in order, with their types and tags, and
the table name it chose for itself, if any. `Fields` is the type of its records, one typed value
per field.

The fields of a record are reached in two ways. `Fields.read?` and `Fields.write` go by the name of
a field and pass over hidden ones; `Fields.readAt?` and `Fields.writeAt` go by its place. Both
convert between the field's type and database values.
-/

namespace RowMapper

/-- The declaration of a field. A hidden field is declared but not reachable by name. -/
structure FieldDecl where
  name : String
  tag : Option String
  typeName : String
  columnType : ColumnType
  type : FieldType
  initial : type.Carrier
  hidden : Bool
  deriving DecidableEq

namespace FieldDecl

/-- The declaration of a field from its type as written: the type's text and storage class are
those of the written type. -/
def ofWritten (name : String) (tag : Option String) (written : TypeExpr) (type : FieldType) :
    FieldDecl :=
  { name, tag, typeName := written.text, columnType := written.columnType, type,
    initial := type.initial, hidden := false }

/-- Whether a field is reachable under a name. -/
def answersTo (f : FieldDecl) (name : String) : Bool := f.name == name && !f.hidden

end FieldDecl

/-- The forms of a declaration. Only records map to tables. -/
inductive EntityShape where
  | record
  | tuple
  | unit
  deriving DecidableEq, Repr

namespace EntityShape

/-- The name of a form. -/
def outline : EntityShape → String
  | record => "NamedStruct"
  | tuple => "TupleStruct"
  | unit => "UnitStruct"

end EntityShape

/-- A record with one value for each declared field. -/
def Fields : List FieldDecl → Type
  | [] => Unit
  | f :: fs => f.type.Carrier × Fields fs

namespace Fields

/-- The record with every field as declared initially. -/
def initial : (fs : List FieldDecl) → Fields fs
  | [] => ()
  | f :: fs => (f.initial, initial fs)

instance decEq : (fs : List FieldDecl) → DecidableEq (Fields fs)
  | [] => inferInstanceAs (DecidableEq Unit)
  | f :: fs =>
    have := decEq fs
    inferInstanceAs (DecidableEq (f.type.Carrier × Fields fs))

/-- The value of the field that answers to a name. -/
def read? : {fs : List FieldDecl} → Fields fs → String → Option Value
  | [], _, _ => none
  | f :: _, (x, xs), name => if f.answersTo name then some (f.type.encode x) else read? xs name

/-- The record with the field that answers to a name replaced by the decoded value. -/
def write : {fs : List FieldDecl} → Fields fs → String → Value → Except Error (Fields fs)
  | [], _, name, _ => .error (.unknownField name)
  | f :: _, (x, xs), name, v =>
    if f.answersTo name then (f.type.decode v).map (·, xs)
    else (write xs name v).map (x, ·)

/-- The value of the field at a place. -/
def readAt? : {fs : List FieldDecl} → Fields fs → Nat → Option Value
  | [], _, _ => none
  | f :: _, (x, _), 0 => some (f.type.encode x)
  | _ :: _, (_, xs), i + 1 => readAt? xs i

/-- The record with the field at a place replaced by the decoded value; `none` if there is no such
place. -/
def writeAt? : {fs : List FieldDecl} → Fields fs → Nat → Value → Option (Except Error (Fields fs))
  | [], _, _, _ => none
  | f :: _, (_, xs), 0, v => some ((f.type.decode v).map (·, xs))
  | _ :: _, (x, xs), i + 1, v => (writeAt? xs i v).map fun r => r.map (x, ·)

/-- Writes values to fields by name, one after the other. -/
def writeAll {fs : List FieldDecl} (r : Fields fs) :
    List (String × Value) → Except Error (Fields fs)
  | [] => .ok r
  | (name, v) :: rest => do writeAll (← r.write name v) rest

end Fields

/-- The declaration of an entity. Its path tells it apart from others of the same name. -/
structure EntityType where
  path : String
  name : String
  shape : EntityShape
  fields : List FieldDecl
  tableName : Option String
  deriving DecidableEq

namespace EntityType

/-- The records of an entity. -/
abbrev Record (T : EntityType) : Type := Fields T.fields

/-- The record with every field as declared initially. -/
def initial (T : EntityType) : T.Record := Fields.initial T.fields

/-- The record that has the given values in the given fields and is initial elsewhere. -/
def recordOf (T : EntityType) (values : List (String × Value)) : Except Error T.Record :=
  T.initial.writeAll values

/-- The fields in order, with the value of each that is reachable by name. -/
def values (T : EntityType) (r : T.Record) : List (String × Option Value) :=
  T.fields.map fun f => (f.name, r.read? f.name)

/-- The path of lists of an entity in messages. -/
def listPath (T : EntityType) : String := "alloc::vec::Vec<" ++ T.path ++ ">"

end EntityType

end RowMapper
