import RowMapper.Session.Setup

/-!
# Connections

What a connection remembers of the way its database was opened, beside the core of its session.
-/

namespace RowMapper

/-- A connection to a database. -/
structure Connection where
  path : String
  versioned : Bool
  encrypted : Bool
  core : Core
  middlewares : Nat

namespace Connection

/-- The connection to a database that lives in memory. -/
def inMemory (c : Configuration) (versioned encrypted : Bool) : Except Error Connection := do
  return ⟨":memory:", versioned, encrypted, ← c.core, c.middlewares.length⟩

/-- The text of a connection in messages. -/
def outline (c : Connection) : String :=
  Outline.record "Connection" [("path", Text.quoted c.path),
    ("core", Core.outline c.core.dialect c.core.strategy c.middlewares)]

/-- The query of a statement on a connection. -/
def compile (c : Connection) (s : Statement) : Except Error Query :=
  (s.compile fun _ => c.core).result

end Connection

end RowMapper
