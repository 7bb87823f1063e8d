import RowMapper.Entity
import RowMapper.Model.Naming
import RowMapper.Model.Tag

/-!
# Models

A model says how an entity type maps to a table: the name of the table, and the column of every
field. Fields are found by name and by column through two indexes. `Model.ofEntity` makes the
default model from tags and default names; `ModelOption.apply` changes names of a model that has not
been shared yet.
-/

namespace RowMapper

/-- An index from names to places. -/
abbrev NameIndex := List (String × Nat)

namespace NameIndex

/-- The place of a name. -/
def find? (index : NameIndex) (name : String) : Option Nat := List.lookup name index

/-- The index without a name. -/
def erase (index : NameIndex) (name : String) : NameIndex := index.filter fun e => e.1 != name

/-- The index with a name at a place, wherever the name was before. -/
def insert (index : NameIndex) (name : String) (place : Nat) : NameIndex :=
  (name, place) :: erase index name

/-- The index of names in order; of equal names the last one counts. -/
def ofNames (names : List String) : NameIndex :=
  names.zipIdx.foldl (fun index e => insert index e.1 e.2) []

end NameIndex

/-- A field of a model: the declared facts, its column, and its place in the declaration. -/
structure ModelField where
  name : String
  column : String
  typeName : String
  columnType : ColumnType
  index : Nat
  deriving DecidableEq

/-- How an entity type maps to a table. -/
structure Model where
  tableName : String
  fields : List ModelField
  byName : NameIndex
  byColumn : NameIndex
  owner : EntityType
  deriving DecidableEq

namespace Model

/-- The model of fields with the indexes that belong to them. -/
def ofFields (tableName : String) (fields : List ModelField) (owner : EntityType) : Model :=
  { tableName, fields, owner
    byName := .ofNames (fields.map (·.name))
    byColumn := .ofNames (fields.map (·.column)) }

/-- The field with a declared name. -/
def field? (m : Model) (name : String) : Option ModelField := do m.fields[← m.byName.find? name]?

/-- The field that is stored in a column. -/
def fieldByColumn? (m : Model) (column : String) : Option ModelField := do
  m.fields[← m.byColumn.find? column]?

/-- The column of a field. -/
def columnOf (m : Model) (name : String) : Except Error String :=
  match m.field? name with
  | some f => .ok f.column
  | none => .error (.unknownField name)

/-- The default column of a field: the one its tag gives, else its default name. -/
def defaultColumn (f : FieldDecl) : Except Error String := do
  let pairs ← Tag.pairs f.tag
  match Tag.lookup? Tag.columnKey pairs with
  | some column => return if column.isEmpty then underscoreName f.name else column
  | none => return underscoreName f.name

/-- The fields of a default model, from a place on. -/
def defaultFields (index : Nat) : List FieldDecl → Except Error (List ModelField)
  | [] => .ok []
  | f :: fs => do
    let column ← defaultColumn f
    let rest ← defaultFields (index + 1) fs
    return ⟨f.name, column, f.typeName, f.columnType, index⟩ :: rest

/-- The default model of an entity type. Only records have one. -/
def ofEntity (T : EntityType) : Except Error Model :=
  if T.shape = .record then do
    let fields ← defaultFields 0 T.fields
    return ofFields (T.tableName.getD (underscoreName T.name)) fields T
  else .error (.notARecord T.name)

/-- The model with a field stored in another column. The index forgets the previous column,
whichever field it led to. -/
def renameColumn (m : Model) (name column : String) : Except Error Model :=
  match m.byName.find? name with
  | none => .error (.unknownField name)
  | some i => match m.fields[i]? with
    | none => .error (.unknownField name)
    | some f =>
      .ok { m with
        fields := m.fields.set i { f with column }
        byColumn := (m.byColumn.erase f.column).insert column i }

end Model

/-- A change to a model that is being registered. -/
inductive ModelOption where
  | tableName (name : String)
  | columnName (field column : String)
  | fail (e : Error)
  deriving DecidableEq

namespace ModelOption

/-- The model after a change. -/
def apply (m : Model) : ModelOption → Except Error Model
  | tableName name => .ok { m with tableName := name }
  | columnName field column => m.renameColumn field column
  | fail e => .error e

/-- The model after changes in order. -/
def applyAll (m : Model) : List ModelOption → Except Error Model
  | [] => .ok m
  | o :: os => do applyAll (← apply m o) os

end ModelOption

end RowMapper
