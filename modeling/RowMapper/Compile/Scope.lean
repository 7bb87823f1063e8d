import RowMapper.Compile.Compiled
import RowMapper.Sql.Outline

/-!
# Names in scope

A statement is compiled in the scope of its session and of the model of its own entity. A field
without a qualifier is one of that model. A field of a table is one of the model of the table's
entity. A field of a subquery is one that its projection exposes: an item under that alias, or a
plain column of that name under no alias; a subquery without a projection exposes the fields of its
entity's model. Models of tables and subqueries come from the registry of the session whose
statement refers to them.
-/

namespace RowMapper

/-- Where a statement is compiled: its session, and the model of its own entity. -/
structure Scope where
  session : String
  model : Model

mutual

/-- The alias to write before a field of a table or subquery, and the stored name of the field.
`own` is the model that plain fields belong to. -/
def Qualifier.resolve (cores : Cores) (session : String) (own : Model) (field : String) :
    Qualifier → Compiled (Option String × String)
  | .own => do
    let column ← Compiled.ofExcept (own.columnOf field)
    return (none, column)
  | .table t => do
    let m ← Compiled.model cores session t.entity
    let column ← Compiled.ofExcept (m.columnOf field)
    return (t.alias?, column)
  | .subquery s => s.resolve cores session field

/-- The alias of a subquery, and the name under which it exposes a field. -/
def Subquery.resolve (cores : Cores) (session : String) (field : String) :
    Subquery → Compiled (Option String × String)
  | .mk (.mk _ T projection _ _ _ _ _ _ _) alias? => do
    let inner ← Compiled.model cores session T
    match projection with
    | [] =>
      let column ← Compiled.ofExcept (inner.columnOf field)
      return (alias?, column)
    | item :: items =>
      let column ← exposedName cores session inner field (item :: items)
      return (alias?, column)

/-- The name under which a projection exposes a field: that of the first item that does. -/
def exposedName (cores : Cores) (session : String) (inner : Model) (field : String) :
    List Selectable → Compiled String
  | [] => Compiled.fail (.unknownField field)
  | item :: items => match item with
    | .column (.mk q name alias?) =>
      if alias? = some field then return field
      else if alias? = none ∧ name = field then
        return (← q.resolve cores session inner field).2
      else exposedName cores session inner field items
    | .aggregate a =>
      if a.alias? = some field then return field
      else exposedName cores session inner field items
    | .fragment _ => exposedName cores session inner field items

end

end RowMapper
