import RowMapper.Compile.Select
import RowMapper.Sql.Statement

/-!
# Compiled statements

`Statement.tokens` compiles a statement of any kind and `Statement.compile` makes the query of it.
All statements end in a semicolon, except those by the caller. A statement that would insert no rows
or assign nothing fails before any model is asked for.
-/

namespace RowMapper

open Token (word sign bound)

namespace Assignment

/-- An assignment of an update. A plain column is bound to the value of the record. -/
def updateTokens (cores : Cores) (scope : Scope) {T : EntityType} (r : T.Record) :
    Assignment → Compiled (List Token)
  | column c => do
    let name ← scope.column cores c.field
    let v ← Compiled.ofExcept (Binding.field (cores scope.session).strategy scope.model r c.field)
    return [name, Token.sign .eq, bound v]
  | value field e => do
    let name ← scope.column cores field
    let ts ← e.tokens cores scope
    return name :: Token.sign .eq :: ts
  | fragment f => return f.tokens

/-- An assignment of a conflict clause. What a plain column is set to depends on the dialect. -/
def upsertTokens (cores : Cores) (scope : Scope) (proposed : Token → List Token) :
    Assignment → Compiled (List Token)
  | column c => do
    let name ← scope.column cores c.field
    return name :: Token.sign .eq :: proposed name
  | value field e => do
    let name ← scope.column cores field
    let ts ← e.tokens cores scope
    return name :: Token.sign .eq :: ts
  | fragment f => Compiled.fail (.unsupportedAssignment (fragment f).outline)

/-- The assignments of a list, each on its own. -/
def listTokens (compile : Assignment → Compiled (List Token)) :
    List Assignment → Compiled (List (List Token))
  | [] => return []
  | a :: as => do
    let ts ← compile a
    let rest ← listTokens compile as
    return ts :: rest

end Assignment

namespace ConflictStyle

/-- The value that the insert proposed for a column, in SQLite's words. -/
def excludedTokens (name : Token) : List Token := [Token.word .excluded, Token.sign .dot, name]

/-- The value that the insert proposed for a column, in MySQL's words. -/
def valuesTokens (name : Token) : List Token := Token.word .values :: parenthesized [name]

/-- The clause of an insert for conflicts. -/
def tokens (cores : Cores) (scope : Scope) (u : Upsert) : ConflictStyle → Compiled (List Token)
  | onConflict =>
    if u.assignments.isEmpty then Compiled.fail .nothingToUpdate
    else do
      let names ← scope.columns cores u.conflict
      let target := if u.conflict.isEmpty then []
        else parenthesized (commaSeparated (names.map ([·])))
      let items ← Assignment.listTokens
        (Assignment.upsertTokens cores scope excludedTokens) u.assignments
      return blank :: Token.word .onConflict ::
        (target ++ clause .doUpdateSet (commaSeparated items))
  | onDuplicateKey =>
    if u.assignments.isEmpty then Compiled.fail .nothingToUpdate
    else do
      let items ← Assignment.listTokens
        (Assignment.upsertTokens cores scope valuesTokens) u.assignments
      return clause .onDuplicateKeyUpdate (commaSeparated items)
  | counted => do
    let names ← scope.columns cores u.conflict
    return clause .upsert [scope.name cores scope.model.tableName] ++
      names.flatMap (fun name => [blank, name]) ++
      clause .set [bound (.integer (Int64.ofNat u.assignments.length))] ++
      clause .when [bound (.text "x")]
  | omitted => return []

end ConflictStyle

namespace Insert

/-- The fields that are inserted, in order. -/
def listedFields (s : Insert) (m : Model) : List String :=
  if s.fields.isEmpty then m.fields.map (·.name) else s.fields

/-- The values of a row in the order of fields. -/
def rowValues (strategy : Strategy) (m : Model) {T : EntityType} (r : T.Record) :
    List String → Except Error (List Value)
  | [] => .ok []
  | field :: fields => do
    let v ← Binding.field strategy m r field
    let vs ← rowValues strategy m r fields
    return v :: vs

/-- The values of rows, each in the order of fields. -/
def cells (strategy : Strategy) (m : Model) {T : EntityType} (fields : List String) :
    List T.Record → Except Error (List (List Value))
  | [] => .ok []
  | r :: rs => do
    let vs ← rowValues strategy m r fields
    let rest ← cells strategy m fields rs
    return vs :: rest

/-- The placeholders of a row. -/
def rowTokens (values : List Value) : List Token :=
  parenthesized (commaSeparated (values.map fun v => [bound v]))

/-- An insert without its semicolon. -/
def tokens (cores : Cores) (s : Insert) : Compiled (List Token) :=
  if s.rows.isEmpty then Compiled.fail .noRowsToInsert
  else do
    let m ← Compiled.model cores s.session s.entity
    let scope : Scope := ⟨s.session, m⟩
    let fields := s.listedFields m
    let names ← scope.columns cores fields
    let rows ← Compiled.ofExcept (cells (cores s.session).strategy m fields s.rows)
    let conflict ← match s.upsert? with
      | none => pure []
      | some u => (cores s.session).dialect.conflict.tokens cores scope u
    return Token.word .insertInto :: blank :: scope.name cores m.tableName ::
      (parenthesized (commaSeparated (names.map ([·]))) ++ blank :: Token.word .values ::
        (commaSeparated (rows.map rowTokens) ++ conflict))

end Insert

/-- The table that rows are changed in: the statement's own where no other is named. -/
def targetTokens (cores : Cores) (scope : Scope) : Option Table → Compiled (List Token)
  | none => return [scope.name cores scope.model.tableName]
  | some t => t.tokens cores scope

namespace Update

/-- An update without its semicolon. -/
def tokens (cores : Cores) (s : Update) : Compiled (List Token) :=
  if s.assignments.isEmpty then Compiled.fail .nothingToUpdate
  else do
    let m ← Compiled.model cores s.session s.entity
    let scope : Scope := ⟨s.session, m⟩
    let target ← targetTokens cores scope s.table?
    let items ← Assignment.listTokens
      (Assignment.updateTokens cores scope s.record) s.assignments
    let filter ← conditionTokens cores scope .where s.filters
    return Token.word .update :: blank ::
      (target ++ clause .set (commaSeparated items) ++ filter)

end Update

namespace Delete

/-- A delete without its semicolon. -/
def tokens (cores : Cores) (s : Delete) : Compiled (List Token) := do
  let m ← Compiled.model cores s.session s.entity
  let scope : Scope := ⟨s.session, m⟩
  let target ← targetTokens cores scope s.table?
  let filter ← conditionTokens cores scope .where s.filters
  return Token.word .deleteFrom :: blank :: (target ++ filter)

end Delete

namespace Statement

/-- The tokens of a statement, with its semicolon. -/
def tokens (cores : Cores) : Statement → Compiled (List Token)
  | select s => do return (← s.tokens cores) ++ [Token.sign .semicolon]
  | insert s => do return (← s.tokens cores) ++ [Token.sign .semicolon]
  | update s => do return (← s.tokens cores) ++ [Token.sign .semicolon]
  | delete s => do return (← s.tokens cores) ++ [Token.sign .semicolon]
  | raw s => return [.fragment s.sql s.args]

/-- The query of a statement. -/
def compile (cores : Cores) (s : Statement) : Compiled Query := do
  return Query.ofTokens (← s.tokens cores)

end Statement

end RowMapper
