import RowMapper.Sql.Outline

/-!
# Statements

Statements that change rows, statements by the caller, and the sum of all kinds of statement. Every
statement carries the name of the session it was made on and the entity type it is about.
-/

namespace RowMapper

/-- An entry of a list of assignments: a column that takes the value of the record being written, a
field that takes the value of an expression, or a fragment by the caller. -/
inductive Assignment where
  | column (c : Column)
  | value (field : String) (e : Expr)
  | fragment (f : Fragment)

namespace Assignment

/-- The text of an assignment in messages. -/
def outline : Assignment → String
  | column c => Outline.tagged "Column" c.outline
  | value field e => Outline.tagged "Assignment"
      (Outline.record "Assignment" [("column", Text.quoted field), ("value", e.outline)])
  | fragment f => Outline.tagged "Raw" f.outline

/-- Assigns their own values to those fields of a record that a filter on name and value accepts. -/
def ofRecord (T : EntityType) (r : T.Record) (accepts : String → Value → Bool) :
    List Assignment :=
  (T.values r).filterMap fun (name, v?) => match v? with
    | some v => if accepts name v then some (.value name (.value v)) else none
    | none => none

/-- Assigns the fields of a record that are not null. -/
def ofNonNull (T : EntityType) (r : T.Record) : List Assignment :=
  ofRecord T r fun _ v => !v.isNull

/-- Assigns the fields of a record that do not hold the zero of their storage class. -/
def ofNonZero (T : EntityType) (r : T.Record) : List Assignment :=
  ofRecord T r fun _ v => !v.isZero

end Assignment

/-- What an insert does with a row that is there already: the fields whose equality makes the
conflict, and the assignments that are made instead. -/
structure Upsert where
  conflict : List String
  assignments : List Assignment

/-- A statement that inserts rows. Without listed fields, every field of the model is inserted. -/
structure Insert where
  session : String
  entity : EntityType
  rows : List entity.Record
  fields : List String
  upsert? : Option Upsert

namespace Insert

/-- The statement that inserts nothing yet. -/
def into (session : String) (T : EntityType) : Insert := ⟨session, T, [], [], none⟩

/-- The statement with other fields listed. -/
def listing (s : Insert) (fields : List String) : Insert := { s with fields }

/-- The statement with another clause for conflicts. -/
def onConflict (s : Insert) (u : Upsert) : Insert := { s with upsert? := some u }

end Insert

/-- A statement that updates rows. The record is where plain columns take their values from. -/
structure Update where
  session : String
  entity : EntityType
  record : entity.Record
  assignments : List Assignment
  filters : List Predicate
  table? : Option Table

namespace Update

/-- The statement that assigns nothing yet, with the initial record. -/
def of (session : String) (T : EntityType) : Update := ⟨session, T, T.initial, [], [], none⟩

/-- The statement with more assignments. -/
def assigning (s : Update) (as : List Assignment) : Update :=
  { s with assignments := s.assignments ++ as }

/-- The statement with one more condition on rows. -/
def filteredBy (s : Update) (p : Predicate) : Update := { s with filters := s.filters ++ [p] }

/-- The statement on another table. -/
def on (s : Update) (t : Table) : Update := { s with table? := some t }

end Update

/-- A statement that deletes rows. -/
structure Delete where
  session : String
  entity : EntityType
  table? : Option Table
  filters : List Predicate

namespace Delete

/-- The statement that deletes every row of an entity's table. -/
def all (session : String) (T : EntityType) : Delete := ⟨session, T, none, []⟩

/-- The statement with one more condition on rows. -/
def filteredBy (s : Delete) (p : Predicate) : Delete := { s with filters := s.filters ++ [p] }

/-- The statement on another table. -/
def on (s : Delete) (t : Table) : Delete := { s with table? := some t }

end Delete

/-- A statement by the caller, sent as it is. -/
structure RawStatement where
  session : String
  entity : EntityType
  sql : String
  args : List Value

namespace RawStatement

/-- The statement with more values for its placeholders. -/
def bind (s : RawStatement) (args : List Value) : RawStatement := { s with args := s.args ++ args }

end RawStatement

/-- The kinds of statement. -/
inductive StatementKind where
  | select
  | insert
  | update
  | delete
  | raw
  deriving DecidableEq, Repr

namespace StatementKind

/-- The text of a kind on its own. -/
def name : StatementKind → String
  | select => "SELECT"
  | insert => "INSERT"
  | update => "UPDATE"
  | delete => "DELETE"
  | raw => "RAW"

/-- The text of a kind within the text of a structure. -/
def outline : StatementKind → String
  | select => "Select"
  | insert => "Insert"
  | update => "Update"
  | delete => "Delete"
  | raw => "Raw"

end StatementKind

/-- A statement of any kind. -/
inductive Statement where
  | select (s : Select)
  | insert (s : Insert)
  | update (s : Update)
  | delete (s : Delete)
  | raw (s : RawStatement)

namespace Statement

/-- The kind of a statement. -/
def kind : Statement → StatementKind
  | select _ => .select
  | insert _ => .insert
  | update _ => .update
  | delete _ => .delete
  | raw _ => .raw

/-- The name of the session a statement was made on. -/
def session : Statement → String
  | select s => s.session
  | insert s => s.session
  | update s => s.session
  | delete s => s.session
  | raw s => s.session

/-- The entity type a statement is about. -/
def entity : Statement → EntityType
  | select s => s.entity
  | insert s => s.entity
  | update s => s.entity
  | delete s => s.entity
  | raw s => s.entity

end Statement

end RowMapper
