import RowMapper.Session.Middleware

/-!
# Running statements

A job is a statement with the sessions that its names stand for and the token that cancels it. A run
first takes the model of the entity, then goes through the middlewares of the session, builds the
statement and sends it, and binds the rows to records with the model it took. Every call to the
session, the reading of each row among them, is made only if the token is not cancelled by then.
-/

namespace RowMapper

namespace Compiled

/-- The step with the sessions it asked under other names. -/
def onSessions {α : Type} (base : String → String) (x : Compiled α) : Compiled α :=
  ⟨x.consulted.map fun e => (base e.1, e.2), x.result⟩

end Compiled

/-- The sessions that names stand for. -/
abbrev Directory : Type := List (String × Session)

namespace Directory

/-- The session of a name; a name without one is that of a database. -/
def find (d : Directory) (name : String) : Session := (d.lookup name).getD (.database name)

/-- The name of the database behind the session of a name. -/
def base (d : Directory) (name : String) : String := (d.find name).base

/-- The sessions with a name that stands for another session from now on. -/
def bind (d : Directory) (name : String) (s : Session) : Directory := (name, s) :: d

end Directory

/-- A statement to run, the sessions that its names stand for, and the name of the token that
cancels it, if it does not have its own. -/
structure Job where
  statement : Statement
  directory : Directory
  cancel : Option String

namespace Job

/-- The session that a job runs on. -/
def session (j : Job) : Session := j.directory.find j.statement.session

/-- The entity type that a job is about. -/
def entity (j : Job) : EntityType := j.statement.entity

/-- The compilation of a job's statement. A transaction has the core of its database. -/
def compile (j : Job) (cores : Cores) : Compiled Query :=
  (j.statement.compile fun name => cores (j.directory.base name)).onSessions j.directory.base

/-- Builds a job's statement without running it. -/
def build (j : Job) : Run Query := Run.build j.compile

/-- The model of a job's entity; an entity without one gets its default model. -/
def takeModel (j : Job) : Run Model := fun b =>
  let (shared, r) := (b.registry j.session.base).get j.entity
  (shared.map (·.model), b.setRegistry j.session.base r)

/-- The token of a job. -/
def takeToken (j : Job) : Run CancelToken := fun b => match j.cancel with
  | some name => (.ok (.named name), b)
  | none => (.ok (.own b.tokens), { b with tokens := b.tokens + 1 })

/-- The context that a job runs in. -/
def context (j : Job) : Run Context := do
  let m ← j.takeModel
  let t ← j.takeToken
  return ⟨j.statement.kind, j.compile, m, t⟩

end Job

namespace Session

/-- The strategy that a session binds rows with. -/
def strategy (s : Session) : Run Strategy := Run.look fun b => (b.settings s.base).strategy

/-- Reads rows to the end and binds each to a record. -/
def bindAll (s : Session) (c : Context) (T : EntityType) (columns : List String) :
    List (Reply (List Value)) → Run (List T.Record)
  | [] => do
    Run.unlessCancelled c.token s.readEnd
    return []
  | row :: rows => do
    let values ← Run.unlessCancelled c.token (s.read row)
    let strategy ← s.strategy
    let r ← Run.ofExcept (Binding.bindRow strategy c.model T columns values)
    let rs ← bindAll s c T columns rows
    return r :: rs

/-- Builds the statement of a context and sends it, for its rows. -/
def fetch (s : Session) (c : Context) : Run Cursor := do
  let q ← c.build
  Run.unlessCancelled c.token (s.query q)

/-- Runs the statement of a context and binds all rows. -/
def fetchAll (s : Session) (T : EntityType) (c : Context) : Run (List T.Record) := do
  let cursor ← s.fetch c
  s.bindAll c T cursor.columns cursor.rows

/-- Runs the statement of a context and binds the first row. -/
def fetchOne (s : Session) (T : EntityType) (c : Context) : Run T.Record := do
  let cursor ← s.fetch c
  match cursor.rows with
  | [] =>
    Run.unlessCancelled c.token s.readEnd
    Run.fail .noRows
  | row :: _ =>
    let values ← Run.unlessCancelled c.token (s.read row)
    let strategy ← s.strategy
    Run.ofExcept (Binding.bindRow strategy c.model T cursor.columns values)

/-- Runs the statement of a context for its outcome. -/
def execute (s : Session) (c : Context) : Run ExecResult := do
  let q ← c.build
  Run.unlessCancelled c.token (s.exec q)

end Session

namespace Job

/-- Runs a job through the middlewares of its session. -/
def through (ms : Middlewares) (j : Job) (terminal : Handler) : Run Output := do
  let c ← j.context
  Middleware.chain (ms j.session.base) terminal c

/-- Runs a job for its outcome. -/
def exec (ms : Middlewares) (j : Job) : Run ExecResult := do
  let o ← j.through ms fun c => do return .exec (← j.session.execute c)
  Run.ofExcept o.toExec

/-- Runs a job for its first record. -/
def get (ms : Middlewares) (j : Job) : Run j.entity.Record := do
  let o ← j.through ms fun c => do return .one j.entity (← j.session.fetchOne j.entity c)
  Run.ofExcept (o.toOne j.entity)

/-- Runs a job for all its records. -/
def getAll (ms : Middlewares) (j : Job) : Run (List j.entity.Record) := do
  let o ← j.through ms fun c => do return .many j.entity (← j.session.fetchAll j.entity c)
  Run.ofExcept (o.toMany j.entity)

end Job

end RowMapper
