import RowMapper.Session.Client

/-!
# Setting sessions up

Sessions are set up from configurations, in the order of their names. A session has a registry of
its own or uses that of another session; the models of a configuration are registered in it as its
session is set up. A registration that fails makes the whole set-up fail.
-/

namespace RowMapper

/-- The models to register: each entity type with its options. -/
abbrev Registrations : Type := List (EntityType × List ModelOption)

namespace Registry

/-- Registers models in order. -/
def registerAll (r : Registry) : Registrations → Except Error Registry
  | [] => .ok r
  | (T, options) :: rest => match r.register T options with
    | (.ok _, r) => registerAll r rest
    | (.error e, _) => .error e

end Registry

/-- How a session is set up. -/
structure Configuration where
  dialect : Dialect
  strategy : Strategy
  registrations : Registrations
  sharedWith : Option String
  middlewares : List Middleware

namespace Configuration

/-- The configuration of a session without any settings of its own. -/
def default : Configuration := ⟨.sqlite, .byName, [], none, []⟩

/-- The core of a connection that is opened with a configuration. -/
def core (c : Configuration) : Except Error Core := do
  let r ← Registry.empty.registerAll c.registrations
  return ⟨c.dialect, c.strategy, r⟩

/-- The settings of a session of a name, after those of the sessions before it. -/
def settings (c : Configuration) (name : String) (before : String → Settings) : Settings :=
  ⟨c.dialect, c.strategy, match c.sharedWith with
    | some other => (before other).registry
    | none => name⟩

end Configuration

namespace Backend

/-- The state in which every session has the default settings and an empty registry. -/
def blank : Backend := initial (fun name => ⟨.sqlite, .byName, name⟩) fun _ => .empty

/-- The state after one more session is set up. -/
def setUp (b : Backend) (name : String) (c : Configuration) : Except Error Backend := do
  let settings := c.settings name b.settings
  let b := { b with settings := fun n => if n = name then settings else b.settings n }
  let r ← (b.registry name).registerAll c.registrations
  return b.setRegistry name r

/-- The state after sessions are set up in order. -/
def setUpAll (b : Backend) : List (String × Configuration) → Except Error Backend
  | [] => .ok b
  | (name, c) :: rest => do setUpAll (← b.setUp name c) rest

end Backend

/-- Sessions by their configurations. -/
abbrev Setup : Type := List (String × Configuration)

namespace Setup

/-- The state of sessions that are set up in the order of their names. -/
def backend (s : Setup) : Except Error Backend :=
  Backend.blank.setUpAll (s.mergeSort fun x y => x.1 ≤ y.1)

/-- The middlewares of every session. -/
def middlewares (s : Setup) : Middlewares := fun name =>
  match s.lookup name with
  | some c => c.middlewares
  | none => []

/-- The query of a statement in sessions that are set up. -/
def compile (s : Setup) (statement : Statement) : Except Error Query := do
  let b ← s.backend
  (statement.compile b.cores).result

/-- The reports of a client's steps on sessions that are set up. -/
def run {α : Type} (s : Setup) (steps : List (Step α)) : Except Error (List (Report α)) := do
  let b ← s.backend
  return Client.makeAll s.middlewares steps .initial b

end Setup

end RowMapper
