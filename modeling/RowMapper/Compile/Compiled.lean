import RowMapper.Core
import RowMapper.Sql.Token

/-!
# Compilation steps

A step of compilation consults the models of entities and may fail. It does not change a registry:
it reads each model as the registry would give it, and notes which ones it asked for, so that their
default models can be taken in afterwards.
-/

namespace RowMapper

/-- The outcome of a compilation step, and the models it asked for: the entity types, each with the
name of the session whose registry was asked. -/
structure Compiled (α : Type) where
  consulted : List (String × EntityType)
  result : Except Error α

namespace Compiled

variable {α β : Type}

/-- The step that asks for nothing. -/
protected def pure (a : α) : Compiled α := ⟨[], .ok a⟩

/-- One step after another; after a failure nothing is asked any more. -/
protected def bind (x : Compiled α) (f : α → Compiled β) : Compiled β :=
  match x.result with
  | .ok a => ⟨x.consulted ++ (f a).consulted, (f a).result⟩
  | .error e => ⟨x.consulted, .error e⟩

instance : Monad Compiled where
  pure := Compiled.pure
  bind := Compiled.bind

/-- A step that fails or not without asking for anything. -/
def ofExcept (r : Except Error α) : Compiled α := ⟨[], r⟩

/-- The step that fails. -/
def fail (e : Error) : Compiled α := ⟨[], .error e⟩

/-- Asks for the model of an entity type. -/
def model (cores : Cores) (session : String) (T : EntityType) : Compiled Model :=
  ⟨[(session, T)], (cores session).registry.model T⟩

@[simp]
theorem result_pure (a : α) : (pure a : Compiled α).result = .ok a := rfl

@[simp]
theorem result_bind (x : Compiled α) (f : α → Compiled β) :
    (x >>= f).result = x.result >>= fun a => (f a).result := by
  show (Compiled.bind x f).result = _
  unfold Compiled.bind
  cases x.result <;> rfl

@[simp]
theorem result_ofExcept (r : Except Error α) : (ofExcept r).result = r := rfl

@[simp]
theorem result_fail (e : Error) : (fail e : Compiled α).result = .error e := rfl

@[simp]
theorem result_model (cores : Cores) (session : String) (T : EntityType) :
    (model cores session T).result = (cores session).registry.model T := rfl

end Compiled

end RowMapper
