import RowMapper.Model.Registry
import RowMapper.Binding

/-!
# Settings of a session

A core holds what the statements of a session are compiled and bound with: the dialect of the
database, the binding strategy and the registry of models.
-/

namespace RowMapper

/-- How a dialect writes what an insert does with a row that is there already: SQLite's clause,
MySQL's clause, a clause with the numbers of assignments only, or nothing. -/
inductive ConflictStyle where
  | onConflict
  | onDuplicateKey
  | counted
  | omitted
  deriving DecidableEq, Repr

/-- The differences of a database: the character around names, and the conflict clause. -/
structure Dialect where
  name : String
  quote : Char
  conflict : ConflictStyle
  deriving DecidableEq, Repr

namespace Dialect

/-- The dialect of SQLite. -/
def sqlite : Dialect := ⟨"sqlite", '\x60', .onConflict⟩

/-- The dialect of MySQL. -/
def mysql : Dialect := ⟨"mysql", '\x60', .onDuplicateKey⟩

/-- A dialect of its own. -/
def custom (quote : Char) (conflict : ConflictStyle) : Dialect := ⟨"custom", quote, conflict⟩

end Dialect

/-- What the statements of a session are compiled and bound with. -/
structure Core where
  dialect : Dialect
  strategy : Strategy
  registry : Registry

namespace Core

/-- The settings of a session without any of its own. -/
def default : Core := ⟨.sqlite, .byName, .empty⟩

/-- The text of a core in messages. -/
def outline (dialect : Dialect) (strategy : Strategy) (middlewares : Nat) : String :=
  Outline.record "Core" [("dialect", Text.quoted dialect.name),
    ("value_strategy", strategy.outline), ("middlewares", toString middlewares)]

end Core

/-- The cores of sessions by the names of the sessions. -/
abbrev Cores := String → Core

end RowMapper
