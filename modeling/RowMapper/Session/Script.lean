import RowMapper.Value
import RowMapper.Error

/-!
# Scripted databases

A script says beforehand what a database answers. A query gets the next prepared cursor. An exec
gets the failure that is prepared for its very text, else success if it is one of the three words of
transactions, else the next prepared outcome. Without a prepared answer a query gives no rows and an
exec changes one row.
-/

namespace RowMapper

/-- The outcome of a statement that changes rows. -/
structure ExecResult where
  rowsAffected : UInt64
  lastInsertId : Int64
  deriving DecidableEq

namespace ExecResult

/-- One row changed. -/
def single : ExecResult := ⟨1, 0⟩

/-- The text of an outcome in messages. -/
def outline (r : ExecResult) : String :=
  Outline.record "ExecResult" [("rows_affected", toString r.rowsAffected.toNat),
    ("last_insert_id", toString r.lastInsertId.toInt)]

end ExecResult

/-- A prepared answer. Giving it may cancel a token first, and may then never come to an end. -/
structure Reply (α : Type) where
  answer : Except Error α
  cancels : Option String
  pends : Bool

namespace Reply

/-- An answer without side effects. -/
def plain {α : Type} (answer : Except Error α) : Reply α := ⟨answer, none, false⟩

/-- How waiting for an answer ends. Waiting for one that never comes ends by cancellation only. -/
def outcome {α : Type} (r : Reply α) : Except Error α :=
  if r.pends then .error .cancelled else r.answer

/-- Whether an answer comes and is a success. -/
def accepted {α : Type} (r : Reply α) : Bool := r.outcome.isOk

end Reply

/-- The rows of a query: their columns, and a prepared answer for each row. -/
structure Cursor where
  columns : List String
  rows : List (Reply (List Value))

/-- The prepared answers of a database. -/
structure Script where
  cursors : List (Reply Cursor)
  outcomes : List (Reply ExecResult)
  failures : List (String × Error)

namespace Script

/-- The script without prepared answers. -/
def empty : Script := ⟨[], [], []⟩

/-- The words that begin and end transactions. -/
def transactionWords : List String := ["BEGIN", "COMMIT", "ROLLBACK"]

/-- The answer to a query, and the script after it. -/
def query (s : Script) : Reply Cursor × Script :=
  match s.cursors with
  | [] => (.plain (.ok ⟨[], []⟩), s)
  | r :: rest => (r, { s with cursors := rest })

/-- The answer to an exec, and the script after it. -/
def exec (s : Script) (sql : String) : Reply ExecResult × Script :=
  match s.failures.lookup sql with
  | some e => (.plain (.error e), s)
  | none =>
    if sql ∈ transactionWords then (.plain (.ok .single), s)
    else match s.outcomes with
      | [] => (.plain (.ok .single), s)
      | r :: rest => (r, { s with outcomes := rest })

/-- The script with one more cursor prepared. -/
def pushCursor (s : Script) (r : Reply Cursor) : Script := { s with cursors := s.cursors ++ [r] }

/-- The script with one more outcome prepared. -/
def pushOutcome (s : Script) (r : Reply ExecResult) : Script :=
  { s with outcomes := s.outcomes ++ [r] }

/-- The script that from now on fails on a text. -/
def failOn (s : Script) (sql : String) (e : Error) : Script :=
  { s with failures := (sql, e) :: s.failures }

end Script

end RowMapper
