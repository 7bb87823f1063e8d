import RowMapper.Model.Basic

/-!
# The registry of models

A registry holds one shared model per entity type. Every model it takes in gets a serial number of
its own, so that two uses of one shared model can be told from two equal models.

There are three atomic steps on the map from types to models: `Registry.lookup?`,
`Registry.insertIfAbsent` and `Registry.replace`. `Registry.get` is a lookup and, after a miss, a
default model and an insertion; `Registry.register` is a model with options and a replacement.
An operation that fails leaves the registry as it is.
-/

namespace RowMapper

/-- A model as a registry shares it. -/
structure SharedModel where
  serial : Nat
  model : Model

/-- The shared models by entity type, and the number of serial numbers given out. -/
structure Registry where
  entries : List (EntityType × SharedModel)
  issued : Nat

namespace Registry

/-- The registry without models. -/
def empty : Registry := ⟨[], 0⟩

/-- The shared model of an entity type. -/
def lookup? (r : Registry) (T : EntityType) : Option SharedModel := List.lookup T r.entries

/-- Shares a model under a new serial number, in place of any other model of the type. -/
def replace (r : Registry) (T : EntityType) (m : Model) : SharedModel × Registry :=
  let shared := ⟨r.issued, m⟩
  (shared, ⟨(T, shared) :: r.entries.filter (fun e => e.1 ≠ T), r.issued + 1⟩)

/-- Shares a model unless the type has one already, and returns the model of the type. -/
def insertIfAbsent (r : Registry) (T : EntityType) (m : Model) : SharedModel × Registry :=
  match r.lookup? T with
  | some shared => (shared, r)
  | none => r.replace T m

/-- The shared model of a type; a type without one gets its default model. -/
def get (r : Registry) (T : EntityType) : Except Error SharedModel × Registry :=
  match r.lookup? T with
  | some shared => (.ok shared, r)
  | none => match Model.ofEntity T with
    | .ok m => let (shared, r) := r.insertIfAbsent T m; (.ok shared, r)
    | .error e => (.error e, r)

/-- Makes the model of a type anew, with options, and shares it in place of any other. -/
def register (r : Registry) (T : EntityType) (options : List ModelOption) :
    Except Error SharedModel × Registry :=
  match Model.ofEntity T >>= fun m => ModelOption.applyAll m options with
  | .ok m => let (shared, r) := r.replace T m; (.ok shared, r)
  | .error e => (.error e, r)

/-- The model that `get` returns, without taking a default model in. -/
def model (r : Registry) (T : EntityType) : Except Error Model :=
  match r.lookup? T with
  | some shared => .ok shared.model
  | none => Model.ofEntity T

end Registry

end RowMapper
