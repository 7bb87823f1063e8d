import RowMapper.Compile.Statement
import RowMapper.Session.Script

/-!
# The backend of sessions

`Backend` is all that sessions change: the scripts of the databases, the registries of models, the
transactions, the tokens that are cancelled, and the log of what happened. `Run` is a step on it
that may fail; what a step did before it failed stays done.

The log holds what reached the databases. What a transaction asked of the session it was begun on is
kept apart, with the transaction: that session may be a transaction itself, and refuse.
-/

namespace RowMapper

/-- A session: a database under its name, or a transaction begun on another session. -/
inductive Session where
  | database (name : String)
  | transaction (id : Nat) (inner : Session)
  deriving DecidableEq

namespace Session

/-- The name of the database behind a session. -/
def base : Session → String
  | database name => name
  | transaction _ inner => inner.base

end Session

/-- What a database is asked to do. The first three are the requests of a transaction itself. -/
inductive Request where
  | begin
  | commit
  | rollback
  | exec (q : Query)
  | query (q : Query)
  deriving DecidableEq

namespace Request

/-- The text and arguments that a request sends. -/
def sent : Request → Query
  | begin => ⟨"BEGIN", []⟩
  | commit => ⟨"COMMIT", []⟩
  | rollback => ⟨"ROLLBACK", []⟩
  | exec q => q
  | query q => q

/-- Whether a request asks for rows. -/
def asksForRows : Request → Bool
  | query _ => true
  | _ => false

end Request

/-- What a statement is run for: its outcome, or its rows. -/
inductive Purpose where
  | outcome
  | rows

namespace Purpose

/-- What a statement gives. -/
def Answer : Purpose → Type
  | outcome => ExecResult
  | rows => Cursor

/-- The request to run a statement. -/
def request : Purpose → Query → Request
  | outcome => .exec
  | rows => .query

/-- The prepared reply to a statement, and the script after it. -/
def reply : (p : Purpose) → Script → String → Reply p.Answer × Script
  | outcome, s, sql => s.exec sql
  | rows, s, _ => s.query

end Purpose

/-- A request that a transaction sent to the session it was begun on, and the error that was the
answer, if it failed. -/
structure Message where
  request : Request
  failure? : Option Error
  deriving DecidableEq

namespace Message

/-- The message of a request that was answered. -/
def answered {α : Type} (r : Request) : Except Error α → Message
  | .ok _ => ⟨r, none⟩
  | .error e => ⟨r, some e⟩

end Message

/-- What there is to know of a transaction: whether it has ended, and what it has sent. -/
structure TransactionState where
  finished : Bool
  messages : List Message
  deriving DecidableEq

namespace TransactionState

/-- A transaction that has not sent anything yet. -/
def fresh : TransactionState := ⟨false, []⟩

end TransactionState

/-- A cancellation token: one that callers share under a name, or the own token of one run. -/
inductive CancelToken where
  | named (name : String)
  | own (n : Nat)
  deriving DecidableEq

/-- What happens in a run: a request that a session sent and whether it was accepted, the reading of
a row or of the end of the rows, and what middlewares note. -/
inductive Event where
  | sent (sender : Session) (r : Request) (accepted : Bool)
  | read (reader : Session)
  | logged (q : Query)
  | entered (name : String) (kind : StatementKind) (context : String)
  | left (name : String) (result : Except Error String)
  | built (result : Except Error Query)

/-- The settings of a database session that never change. The registry is known by the name of the
session it was made for. -/
structure Settings where
  dialect : Dialect
  strategy : Strategy
  registry : String

/-- The state of all sessions. A transaction's number is its place among the transactions. -/
structure Backend where
  settings : String → Settings
  registries : String → Registry
  scripts : String → Script
  transactions : List TransactionState
  tokens : Nat
  cancelled : List CancelToken
  log : List Event

namespace Backend

/-- The state before anything happened. -/
def initial (settings : String → Settings) (registries : String → Registry) : Backend :=
  ⟨settings, registries, fun _ => .empty, [], 0, [], []⟩

/-- The registry that a session uses. -/
def registry (b : Backend) (session : String) : Registry :=
  b.registries (b.settings session).registry

/-- The state with another registry in the place of the one that a session uses. -/
def setRegistry (b : Backend) (session : String) (r : Registry) : Backend :=
  { b with registries := fun name =>
      if name = (b.settings session).registry then r else b.registries name }

/-- The state with another script for a database. -/
def setScript (b : Backend) (database : String) (s : Script) : Backend :=
  { b with scripts := fun name => if name = database then s else b.scripts name }

/-- The core of every session. -/
def cores (b : Backend) : Cores := fun session =>
  ⟨(b.settings session).dialect, (b.settings session).strategy, b.registry session⟩

/-- Takes the model of an entity type into the registry of a session, if it has one. -/
def takeIn (b : Backend) (e : String × EntityType) : Backend :=
  b.setRegistry e.1 ((b.registry e.1).get e.2).2

/-- The state with a token cancelled. -/
def cancel (b : Backend) (t : CancelToken) : Backend := { b with cancelled := t :: b.cancelled }

/-- The state after what giving an answer cancels. -/
def cancelFor (b : Backend) : Option String → Backend
  | none => b
  | some name => b.cancel (.named name)

/-- Whether a token is cancelled. -/
def isCancelled (b : Backend) (t : CancelToken) : Bool := b.cancelled.contains t

/-- Whether a transaction has ended. -/
def isFinished (b : Backend) (id : Nat) : Bool := b.transactions[id]?.any (·.finished)

/-- The state with one more transaction. -/
def addTransaction (b : Backend) : Backend :=
  { b with transactions := b.transactions ++ [.fresh] }

/-- The state in which a transaction has ended. -/
def finish (b : Backend) (id : Nat) : Backend :=
  { b with transactions := b.transactions.modify id ({ · with finished := true }) }

/-- The state in which a transaction has sent one more message. -/
def keep (b : Backend) (id : Nat) (m : Message) : Backend :=
  { b with transactions := b.transactions.modify id fun s =>
      { s with messages := s.messages ++ [m] } }

/-- The state with one more event in the log. -/
def note (b : Backend) (e : Event) : Backend := { b with log := b.log ++ [e] }

/-- The answer of a database to a request that a session sent. -/
def ask (b : Backend) (p : Purpose) (database : String) (sender : Session) (r : Request) :
    Except Error p.Answer × Backend :=
  let (reply, script) := p.reply (b.scripts database) r.sent.sql
  (reply.outcome, ((b.setScript database script).note (.sent sender r reply.accepted)).cancelFor
    reply.cancels)

/-- The answer to the reading of a row. -/
def read (b : Backend) (reader : Session) (row : Reply (List Value)) :
    Except Error (List Value) × Backend :=
  (row.outcome, (b.note (.read reader)).cancelFor row.cancels)

end Backend

/-- A step on the backend that may fail. What it did before it failed stays done. -/
def Run (α : Type) : Type := Backend → Except Error α × Backend

namespace Run

variable {α β : Type}

/-- The step that does nothing. -/
protected def pure (a : α) : Run α := fun b => (.ok a, b)

/-- One step after another, up to the first failure. -/
protected def bind (x : Run α) (f : α → Run β) : Run β := fun b => match x b with
  | (.ok a, b) => f a b
  | (.error e, b) => (.error e, b)

instance : Monad Run where
  pure := Run.pure
  bind := Run.bind

/-- A step that fails or not without doing anything. -/
def ofExcept (r : Except Error α) : Run α := fun b => (r, b)

/-- The step that fails. -/
def fail (e : Error) : Run α := fun b => (.error e, b)

/-- The step that changes the state. -/
def modify (f : Backend → Backend) : Run Unit := fun b => (.ok (), f b)

/-- The step that looks at the state. -/
def look (f : Backend → α) : Run α := fun b => (.ok (f b), b)

/-- The step that notes an event. -/
def note (e : Event) : Run Unit := modify (·.note e)

/-- The result of a step, also of one that fails. -/
def attempt (x : Run α) : Run (Except Error α) := fun b => match x b with
  | (r, b) => (.ok r, b)

theorem bind_apply (x : Run α) (f : α → Run β) (b : Backend) :
    (x >>= f) b = match x b with
      | (.ok a, b) => f a b
      | (.error e, b) => (.error e, b) := rfl

/-- The query that a compilation gives. The models it asked for are taken into the registries,
whether it fails or not. -/
def build (compile : Cores → Compiled Query) : Run Query := fun b =>
  let c := compile b.cores
  (c.result, c.consulted.foldl Backend.takeIn b)

/-- A step that is not made once a token is cancelled. -/
def unlessCancelled (t : CancelToken) (x : Run α) : Run α := fun b =>
  if b.isCancelled t then (.error .cancelled, b) else x b

end Run

end RowMapper
