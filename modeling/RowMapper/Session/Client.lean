import RowMapper.Session.Execution

/-!
# Clients

A client is a list of steps on sessions, which it knows by name. A step is answered by a report: its
result, what was noted in the log during it, and, for a callback in a transaction, the reports of
the callback's own steps. A callback is a tree: after each step it goes on as the result of that
step says, until it ends.
-/

namespace RowMapper

/-- What a step is answered with. Callbacks return values of the type `α`. -/
inductive Answer (α : Type) where
  | done
  | flag (b : Bool)
  | query (q : Query)
  | exec (r : ExecResult)
  | record (T : EntityType) (r : T.Record)
  | records (T : EntityType) (rs : List T.Record)
  | rows (columns : List String) (rows : List (List Value))
  | model (m : Model)
  | core (c : Core) (middlewares : Nat)
  | value (a : α)

/-- A statement as a client writes it: the statement, and the name of the token that cancels it. -/
structure Draft where
  statement : Statement
  cancel : Option String

mutual

/-- A step of a client. `on` names the session of a step that has no statement, `as` what the step
makes. A step that could not be written down fails with the cause. -/
inductive Step (α : Type) where
  | pushRows (on : String) (r : Reply Cursor)
  | pushExec (on : String) (r : Reply ExecResult)
  | failExec (on : String) (sql : String) (e : Error)
  | cancel (token : String)
  | register (on : String) (T : EntityType) (options : List ModelOption)
  | core (on : String)
  | build (d : Draft)
  | hold (as : String) (d : Draft)
  | buildHeld (name : String)
  | exec (d : Draft)
  | get (d : Draft)
  | getAll (d : Draft)
  | execSql (on : String) (q : Query)
  | querySql (on : String) (q : Query)
  | begin (on as : String)
  | commit (on : String)
  | rollback (on : String)
  | isFinished (on : String)
  | transact (on as : String) (callback : Callback α)
  | unwritten (e : Error)

/-- A callback: an ending, or a step and what follows its result. -/
inductive Callback (α : Type) where
  | finish (ending : Ending α)
  | step (s : Step α) (next : Except Error (Answer α) → Callback α)

end

namespace Callback

variable {α : Type}

/-- The callback that makes steps in order and then ends. A step that is tried ends the callback at
once with its error, if it fails; the errors of other steps are ignored. -/
def ofSteps (ending : Ending α) : List (Bool × Step α) → Callback α
  | [] => .finish ending
  | (tried, s) :: rest => .step s fun r => match tried, r with
    | true, .error e => .finish (.error e)
    | _, _ => ofSteps ending rest

end Callback

/-- The report of a step: its result, the events during it, and the reports of the steps of its
callback. -/
inductive Report (α : Type) where
  | mk (result : Except Error (Answer α)) (events : List Event) (inner? : Option (List (Report α)))

namespace Report

variable {α : Type}

def result : Report α → Except Error (Answer α)
  | mk r _ _ => r

def events : Report α → List Event
  | mk _ es _ => es

def inner? : Report α → Option (List (Report α))
  | mk _ _ i => i

end Report

/-- What a client keeps: the sessions it has names for, and the statements it holds. -/
structure Client where
  directory : Directory
  held : List (String × Job)

namespace Client

/-- The client that knows databases only and holds nothing. -/
def initial : Client := ⟨[], []⟩

/-- The client with a name for a session. -/
def bind (c : Client) (name : String) (s : Session) : Client :=
  { c with directory := c.directory.bind name s }

/-- The client that holds a job under a name. -/
def hold (c : Client) (name : String) (j : Job) : Client := { c with held := (name, j) :: c.held }

/-- The job of a draft: names stand for the sessions they stand for now. -/
def job (c : Client) (d : Draft) : Job := ⟨d.statement, c.directory, d.cancel⟩

/-- Ends the transaction of a name. A name of no transaction counts as that of an ended one. -/
def endWith (c : Client) (name : String) (f : Transaction → Run Unit) : Run Unit :=
  match (c.directory.find name).transaction? with
  | some t => f t
  | none => Run.fail .transactionFinished

/-- Whether the transaction of a name has ended. -/
def isFinished (c : Client) (name : String) (b : Backend) : Bool :=
  match (c.directory.find name).transaction? with
  | some t => t.isFinished b
  | none => true

/-- Registers the model of an entity type anew, with options. -/
def register (c : Client) (name : String) (T : EntityType) (options : List ModelOption) :
    Run Model := fun b =>
  let database := c.directory.base name
  let (shared, r) := (b.registry database).register T options
  (shared.map (·.model), b.setRegistry database r)

/-- Sends a query and reads all its rows. -/
def readSql (s : Session) (q : Query) : Run (List String × List (List Value)) := do
  let cursor ← s.query q
  let rows ← s.readAll cursor.rows
  return (cursor.columns, rows)

/-- Changes the script of a database. -/
def prepare (c : Client) (name : String) (f : Script → Script) : Run Unit :=
  let database := c.directory.base name
  Run.modify fun b => b.setScript database (f (b.scripts database))

end Client

/-- What a step leaves: the report, the client and the state after it. -/
structure Made (α : Type) where
  report : Report α
  client : Client
  backend : Backend

namespace Made

variable {α β : Type}

/-- A step that a run makes and that changes the client on success. -/
def ofRunWith (b : Backend) (c : Client) (x : Run β) (answer : β → Answer α)
    (change : β → Client → Client) : Made α :=
  match x b with
  | (.ok r, b') => ⟨.mk (.ok (answer r)) (b'.log.drop b.log.length) none, change r c, b'⟩
  | (.error e, b') => ⟨.mk (.error e) (b'.log.drop b.log.length) none, c, b'⟩

/-- A step that a run makes. -/
def ofRun (b : Backend) (c : Client) (x : Run β) (answer : β → Answer α) : Made α :=
  ofRunWith b c x answer fun _ c => c

/-- A step that only changes the client. -/
def ofChange (b : Backend) (c : Client) : Made α := ⟨.mk (.ok .done) [] none, c, b⟩

end Made

/-- What a callback has come to: its ending, the reports of its steps, the client and the state. -/
structure Finished (α : Type) where
  ending : Ending α
  reports : List (Report α)
  client : Client
  backend : Backend

/-- What a client carries through a transaction: itself, the reports of the callback's steps, and
the lengths that the log had before and after the callback, if it ran. -/
structure Passage (α : Type) where
  client : Client
  reports : List (Report α)
  span? : Option (Nat × Nat)

namespace Passage

variable {α : Type}

/-- The events after a place in the log without those of the callback. -/
def ownEvents (p : Passage α) (start : Nat) (log : List Event) : List Event :=
  match p.span? with
  | none => log.drop start
  | some (first, last) => (log.take first).drop start ++ log.drop last

end Passage

mutual

/-- Makes a step. -/
def Step.make {α : Type} (ms : Middlewares) : Step α → Client → Backend → Made α
  | .pushRows on r, c, b => .ofRun b c (c.prepare on (·.pushCursor r)) fun _ => .done
  | .pushExec on r, c, b => .ofRun b c (c.prepare on (·.pushOutcome r)) fun _ => .done
  | .failExec on sql e, c, b => .ofRun b c (c.prepare on (·.failOn sql e)) fun _ => .done
  | .cancel token, c, b => .ofRun b c (Run.modify (·.cancel (.named token))) fun _ => .done
  | .register on T options, c, b => .ofRun b c (c.register on T options) .model
  | .core on, c, b =>
    let database := c.directory.base on
    .ofRun b c (Run.look (·.cores database)) fun core => .core core (ms database).length
  | .build d, c, b => .ofRun b c (c.job d).build .query
  | .hold as d, c, b => .ofChange b (c.hold as (c.job d))
  | .buildHeld name, c, b => match c.held.lookup name with
    | some j => .ofRun b c j.build .query
    | none => .ofChange b c
  | .exec d, c, b => .ofRun b c ((c.job d).exec ms) .exec
  | .get d, c, b => .ofRun b c ((c.job d).get ms) (.record _)
  | .getAll d, c, b => .ofRun b c ((c.job d).getAll ms) (.records _)
  | .execSql on q, c, b => .ofRun b c ((c.directory.find on).exec q) .exec
  | .querySql on q, c, b =>
    .ofRun b c (Client.readSql (c.directory.find on) q) fun (columns, rows) => .rows columns rows
  | .begin on as, c, b =>
    .ofRunWith b c (Transaction.begin (c.directory.find on)) (fun _ => .done)
      fun t c => c.bind as t.session
  | .commit on, c, b => .ofRun b c (c.endWith on Transaction.commit) fun _ => .done
  | .rollback on, c, b => .ofRun b c (c.endWith on Transaction.rollback) fun _ => .done
  | .isFinished on, c, b => .ofRun b c (Run.look (c.isFinished on)) .flag
  | .transact on as callback, c, b =>
    let (result, p, b') := Transaction.transact (c.directory.find on)
      (fun t (p : Passage α) b₁ =>
        let f := Callback.make ms callback (p.client.bind as t.session) b₁
        (f.ending, ⟨f.client, f.reports, some (b₁.log.length, f.backend.log.length)⟩, f.backend))
      ⟨c, [], none⟩ b
    ⟨.mk (result.map .value) (p.ownEvents b.log.length b'.log) (some p.reports), p.client, b'⟩
  | .unwritten e, c, b => .ofRun b c (Run.fail e) fun (_ : Unit) => .done

/-- Makes the steps of a callback up to its end. -/
def Callback.make {α : Type} (ms : Middlewares) : Callback α → Client → Backend → Finished α
  | .finish ending, c, b => ⟨ending, [], c, b⟩
  | .step s next, c, b =>
    let m := Step.make ms s c b
    let f := Callback.make ms (next m.report.result) m.client m.backend
    { f with reports := m.report :: f.reports }

end

namespace Client

/-- Makes steps in order. -/
def makeAll {α : Type} (ms : Middlewares) : List (Step α) → Client → Backend → List (Report α)
  | [], _, _ => []
  | s :: rest, c, b =>
    let m := s.make ms c b
    m.report :: makeAll ms rest m.client m.backend

end Client

end RowMapper
