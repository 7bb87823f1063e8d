import RowMapper.Session.Backend

/-!
# Sessions and transactions

A session sends requests to its database. A transaction passes them on as long as it has not ended;
it ends with the first commit or rollback that is called on it, whether the database accepts that or
not. `Transaction.transact` runs a callback inside a transaction and ends the transaction as the
callback ended: with a commit after success, with a rollback after a failure, and not at all if the
callback ended it itself.
-/

namespace RowMapper

/-- A transaction: its number, and the session it was begun on. -/
structure Transaction where
  id : Nat
  inner : Session
  deriving DecidableEq

namespace Transaction

/-- The session of a transaction. -/
def session (t : Transaction) : Session := .transaction t.id t.inner

/-- Whether a transaction has ended. -/
def isFinished (t : Transaction) (b : Backend) : Bool := b.isFinished t.id

/-- Fails if a transaction has ended. -/
def ensureActive (t : Transaction) : Run Unit := fun b =>
  if t.isFinished b then (.error .transactionFinished, b) else (.ok (), b)

/-- Ends a transaction, and fails if it has ended before. -/
def finish (t : Transaction) : Run Unit := fun b =>
  if t.isFinished b then (.error .transactionFinished, b)
  else (.ok (), b.finish t.id)

/-- Sends a request to the session that a transaction was begun on, as that session answers it. -/
def sending {α : Type} (t : Transaction) (r : Request) (answer : Run α) : Run α := fun b =>
  let (result, b) := answer b
  (result, b.keep t.id (.answered r result))

end Transaction

namespace Session

/-- The transaction that a session is, if it is one. -/
def transaction? : Session → Option Transaction
  | database _ => none
  | transaction id inner => some ⟨id, inner⟩

/-- Passes a request of a sender on to the database behind a session. -/
def deliver (p : Purpose) : Session → Session → Request → Run p.Answer
  | database name, sender, r => fun b => b.ask p name sender r
  | transaction id inner, sender, r => do
    Transaction.ensureActive ⟨id, inner⟩
    Transaction.sending ⟨id, inner⟩ (p.request r.sent) (deliver p inner sender r)

/-- Runs a statement that changes rows. -/
def exec (s : Session) (q : Query) : Run ExecResult := s.deliver .outcome s (.exec q)

/-- Runs a statement that gives rows. -/
def query (s : Session) (q : Query) : Run Cursor := s.deliver .rows s (.query q)

/-- Reads a row. -/
def read (s : Session) (row : Reply (List Value)) : Run (List Value) := fun b => b.read s row

/-- Finds that there is no further row. -/
def readEnd (s : Session) : Run Unit := Run.note (.read s)

/-- Reads rows to the end. -/
def readAll (s : Session) : List (Reply (List Value)) → Run (List (List Value))
  | [] => do
    s.readEnd
    return []
  | row :: rows => do
    let values ← s.read row
    let rest ← readAll s rows
    return values :: rest

end Session

/-- How a callback ends: with a value, with an error, or abruptly, with a message or without. -/
inductive Ending (α : Type) where
  | value (a : α)
  | error (e : Error)
  | abrupt (message? : Option String)

namespace Transaction

variable {α σ : Type}

/-- Begins a transaction on a session. -/
def begin (s : Session) : Run Transaction := do
  let id ← Run.look (·.transactions.length)
  Run.modify Backend.addTransaction
  let t : Transaction := ⟨id, s⟩
  let _ ← t.sending .begin (s.deliver .outcome t.session .begin)
  return t

/-- Sends the request that a transaction ends with. -/
def sendLast (t : Transaction) (r : Request) : Run Unit := do
  let _ ← t.sending r (t.inner.deliver .outcome t.session r)

/-- Ends a transaction with a request. It has ended even if the request fails. -/
def close (t : Transaction) (r : Request) : Run Unit := do
  t.finish
  t.sendLast r

/-- Commits a transaction. -/
def commit (t : Transaction) : Run Unit := t.close .commit

/-- Rolls a transaction back. -/
def rollback (t : Transaction) : Run Unit := t.close .rollback

/-- Rolls a transaction back after a failure, unless it has ended; the failure stays the result. -/
def rollbackFor (t : Transaction) (cause : Error) : Run α := fun b =>
  if t.isFinished b then (.error cause, b)
  else match t.rollback b with
    | (.ok _, b) => (.error cause, b)
    | (.error e, b) => (.error (.rollbackFailed e cause), b)

/-- Commits a transaction after a success, unless it has ended; the value stays the result. -/
def commitFor (t : Transaction) (a : α) : Run α := fun b =>
  if t.isFinished b then (.ok a, b)
  else match t.commit b with
    | (.ok _, b) => (.ok a, b)
    | (.error e, b) => (.error (.commitFailed e), b)

/-- The message of an abrupt ending. -/
def abruptMessage (message? : Option String) : String :=
  message?.getD "panic with non-string payload"

/-- Ends a transaction as its callback ended. -/
def conclude (t : Transaction) : Ending α → Run α
  | .value a => t.commitFor a
  | .error e => t.rollbackFor e
  | .abrupt message? => t.rollbackFor (.callbackFailed (.unknown (abruptMessage message?)))

/-- Runs a callback inside a transaction on a session. Beside the backend, callbacks may carry a
state of their own along. -/
def transact (s : Session) (callback : Transaction → σ → Backend → Ending α × σ × Backend)
    (st : σ) (b : Backend) : Except Error α × σ × Backend :=
  match begin s b with
  | (.error e, b) => (.error e, st, b)
  | (.ok t, b) =>
    let (ending, st, b) := callback t st b
    let (result, b) := t.conclude ending b
    (result, st, b)

end Transaction

end RowMapper
