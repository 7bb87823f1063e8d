import RowMapper.Session.Transaction

/-!
# Middlewares

A middleware wraps the handler that runs a statement. `Middleware.chain` nests a list of them, the
first one outermost. The statement reaches the handlers unbuilt, in a context that says how to build
it, which model its entity had when the run began, and which token cancels it.
-/

namespace RowMapper

/-- What the run of a statement gives: the outcome of a change, one record, or a list of records. -/
inductive Output where
  | exec (r : ExecResult)
  | one (T : EntityType) (r : T.Record)
  | many (T : EntityType) (rs : List T.Record)

namespace Output

/-- The text of the kind of an output. -/
def kind : Output → String
  | exec _ => "exec result"
  | one _ _ => "single row"
  | many _ _ => "row list"

/-- The text of an output in messages. -/
def outline : Output → String
  | exec r => Outline.tagged "Exec" r.outline
  | o => o.kind

/-- The failure of an output that is not of the kind it should be. -/
def mismatch (o : Output) (expected : String) : Error :=
  .unknown ("handler returned a " ++ o.kind ++ " where a " ++ expected ++ " was expected")

/-- The failure of an output of another entity type. -/
def foreign (path : String) : Error := .unknown ("handler returned a value that is not " ++ path)

/-- The outcome of a change that an output is. -/
def toExec : Output → Except Error ExecResult
  | exec r => .ok r
  | o => .error (o.mismatch "exec result")

/-- The record that an output is. -/
def toOne (T : EntityType) : Output → Except Error T.Record
  | one S r => if h : S = T then .ok (h ▸ r) else .error (foreign T.path)
  | o => .error (o.mismatch "single row")

/-- The list of records that an output is. -/
def toMany (T : EntityType) : Output → Except Error (List T.Record)
  | many S rs => if h : S = T then .ok (h ▸ rs) else .error (foreign T.listPath)
  | o => .error (o.mismatch "row list")

end Output

/-- What handlers know of the statement that is run. -/
structure Context where
  kind : StatementKind
  compile : Cores → Compiled Query
  model : Model
  token : CancelToken

namespace Context

/-- Builds the statement. -/
def build (c : Context) : Run Query := Run.build c.compile

/-- The text of a context in messages. -/
def outline (c : Context) (b : Backend) : String :=
  Outline.record "QueryContext" [("query_type", c.kind.outline),
    ("table", Text.quoted c.model.tableName), ("cancelled", Outline.flag (b.isCancelled c.token))]

end Context

/-- What runs a statement. -/
abbrev Handler : Type := Context → Run Output

/-- What makes a handler of the handler that is next. -/
abbrev Middleware : Type := Handler → Handler

namespace Middleware

/-- The handler of a list of middlewares around another; the first one is outermost. -/
def chain (ms : List Middleware) (terminal : Handler) : Handler :=
  ms.foldr (fun m next => m next) terminal

/-- Builds the statement and passes the query to a log before the statement runs. A statement that
cannot be built is not run. -/
def queryLog (log : Query → Run Unit) : Middleware := fun next c => do
  let q ← c.build
  log q
  next c

/-- Notes the query of every statement. -/
def noted : Middleware := queryLog fun q => Run.note (.logged q)

/-- Builds every statement first, and notes nothing. -/
def unnoted : Middleware := queryLog fun _ => pure ()

/-- Notes the context before and the result after. -/
def record (name : String) : Middleware := fun next c => do
  let text ← Run.look c.outline
  Run.note (.entered name c.kind text)
  let result ← Run.attempt (next c)
  Run.note (.left name (result.map Output.outline))
  Run.ofExcept result

/-- Builds the statement and notes the result, also a failure. -/
def prebuild : Middleware := fun next c => do
  let result ← Run.attempt c.build
  Run.note (.built result)
  next c

/-- Fails. -/
def refuse (e : Error) : Middleware := fun _ _ => Run.fail e

/-- Answers by itself. -/
def answer (output : Except Error Output) : Middleware := fun _ _ => Run.ofExcept output

/-- Cancels the token of the statement first. -/
def cancelling : Middleware := fun next c => do
  Run.modify (·.cancel c.token)
  next c

/-- Runs the statement twice and keeps the second result. -/
def twice : Middleware := fun next c => do
  let _ ← Run.attempt (next c)
  next c

/-- Answers with an output of its own after a failure. -/
def recover (output : Except Error Output) : Middleware := fun next c => do
  match ← Run.attempt (next c) with
  | .ok o => return o
  | .error _ => Run.ofExcept output

/-- Runs a fixed query instead. -/
def swap (q : Query) : Middleware := fun next c => next { c with compile := fun _ => pure q }

end Middleware

/-- The middlewares of every database session, the outermost first. -/
abbrev Middlewares : Type := String → List Middleware

end RowMapper
