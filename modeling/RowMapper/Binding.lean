import RowMapper.Model.Basic

/-!
# Binding rows to records

Binding writes the columns of a row into the fields of a record and reads fields back as values to
bind. There are two strategies. `byName` goes through the names of the fields; `byPlace` goes
straight to the place of a field that the model recorded, and therefore refuses a model of another
entity type.
-/

namespace RowMapper

/-- The ways to reach the fields of a record. -/
inductive Strategy where
  | byName
  | byPlace
  deriving DecidableEq, Repr

namespace Strategy

/-- The name of a strategy in messages. -/
def outline : Strategy → String
  | byName => "Reflect"
  | byPlace => "Unsafe"

end Strategy

namespace Binding

/-- Refuses a model that was not made from an entity type. -/
def checkOwner (m : Model) (T : EntityType) : Except Error Unit :=
  if m.owner = T then .ok ()
  else .error (.unknown ("model for table " ++ m.tableName ++ " was not derived from " ++ T.path))

/-- The check that a strategy makes before it touches a record. -/
def check (s : Strategy) (m : Model) (T : EntityType) : Except Error Unit :=
  match s with
  | .byName => .ok ()
  | .byPlace => checkOwner m T

/-- The value of a field of a record. -/
def field (s : Strategy) (m : Model) {T : EntityType} (r : T.Record) (name : String) :
    Except Error Value := do
  check s m T
  match m.field? name with
  | none => throw (.unknownField name)
  | some f =>
    let v? := match s with
      | .byName => r.read? f.name
      | .byPlace => r.readAt? f.index
    match v? with
    | some v => return v
    | none => throw (.unknownField name)

/-- The fields of columns in order. There may not be more columns than fields, and each must be the
column of a field. -/
def resolveColumns (m : Model) (columns : List String) : Except Error (List ModelField) :=
  if m.fields.length < columns.length then .error (.tooManyColumns columns)
  else columns.mapM fun column => match m.fieldByColumn? column with
    | some f => .ok f
    | none => .error (.unknownField column)

/-- The record with one field replaced by a decoded value. -/
def assign (s : Strategy) {T : EntityType} (r : T.Record) (f : ModelField) (v : Value) :
    Except Error T.Record :=
  match s with
  | .byName => r.write f.name v
  | .byPlace => (r.writeAt? f.index v).getD (.error (.unknownField f.name))

/-- Assigns values one after the other and stops at the first that fails; the record keeps what was
assigned before. -/
def assignAll (s : Strategy) {T : EntityType} (r : T.Record) :
    List (ModelField × Value) → Except Error Unit × T.Record
  | [] => (.ok (), r)
  | (f, v) :: rest => match assign s r f v with
    | .ok r => assignAll s r rest
    | .error e => (.error e, r)

/-- Assigns the values of a row to the fields of its columns, up to the shorter of the two lists.
The record afterwards is returned with the failure too. -/
def setColumns (s : Strategy) (m : Model) {T : EntityType} (r : T.Record) (columns : List String)
    (values : List Value) : Except Error Unit × T.Record :=
  match check s m T >>= fun _ => resolveColumns m columns with
  | .error e => (.error e, r)
  | .ok fields => assignAll s r (fields.zip values)

/-- The record that a row is bound to. -/
def bindRow (s : Strategy) (m : Model) (T : EntityType) (columns : List String)
    (values : List Value) : Except Error T.Record :=
  match setColumns s m T.initial columns values with
  | (.ok _, r) => .ok r
  | (.error e, _) => .error e

end Binding

end RowMapper
