import RowMapper.Proofs.Compile.Agreement
import RowMapper.Proofs.Model.Growth
import RowMapper.Session.Execution

/-!
# Statements built one after the other

Building a statement leaves a trace: the registries take in the default models that it asked for,
also if it fails. `Backend.Grows` says that nothing else happens to them. Cores that have grown give
the models they gave before (`Backend.Grows.agree`), so that every statement compiles as before
(`Job.compile_of_grows`).

`Job.build_after_builds` puts it together: what is built before a statement, be it the statement
itself, does not show in what the statement is built to, and all that is left of it are default
models of types that had none.
-/

namespace RowMapper

variable {b b' b'' : Backend}

namespace Backend

/-- From one state to another, the registries only took in default models. -/
structure Grows (b b' : Backend) : Prop where
  settings : b'.settings = b.settings
  registries : ∀ name, (b.registries name).Grows (b'.registries name)

namespace Grows

protected theorem refl (b : Backend) : b.Grows b := ⟨rfl, fun name => .refl (b.registries name)⟩

/-- Registries that grow twice have grown. -/
theorem trans (h : b.Grows b') (h' : b'.Grows b'') : b.Grows b'' where
  settings := h'.settings.trans h.settings
  registries name := (h.registries name).trans (h'.registries name)

/-- The registry that a session uses is the same one, grown. -/
theorem registry (h : b.Grows b') (session : String) :
    (b.registry session).Grows (b'.registry session) := by
  rw [Backend.registry, Backend.registry, h.settings]
  exact h.registries _

/-- A registry that is asked for a model grows, and the others stay as they are. -/
theorem setRegistry_get (b : Backend) (session : String) (T : EntityType) :
    b.Grows (b.setRegistry session ((b.registry session).get T).2) := by
  refine ⟨rfl, fun name => ?_⟩
  unfold setRegistry
  dsimp only
  split
  · next heq => exact heq ▸ .get (b.registry session) T
  · exact .refl _

theorem takeIn (b : Backend) (e : String × EntityType) : b.Grows (b.takeIn e) :=
  setRegistry_get b e.1 e.2

/-- So it is with the types of a whole list. -/
theorem takeAll : ∀ (es : List (String × EntityType)) (b : Backend),
    b.Grows (es.foldl Backend.takeIn b)
  | [], b => .refl b
  | e :: es, b => (takeIn b e).trans (takeAll es (b.takeIn e))

/-- Cores that have grown have the same dialects and strategies, and give the same models. -/
theorem agree (h : b.Grows b') : b'.cores.Agree b.cores where
  dialect session := by rw [cores, cores, h.settings]
  model session T := (h.registry session).model T

end Grows

/-- To take in models changes nothing but registries. -/
theorem takeAll_eq : ∀ (es : List (String × EntityType)) (b : Backend),
    es.foldl takeIn b = { b with registries := (es.foldl takeIn b).registries }
  | [], _ => rfl
  | e :: es, b => takeAll_eq es (b.takeIn e)

/-- Among lookups there is one of a type in a registry. -/
def Asks (b : Backend) (name : String) (T : EntityType) (es : List (String × EntityType)) : Prop :=
  ∃ session, (b.settings session).registry = name ∧ (session, T) ∈ es

/-- A model is there if it was there before, or if it is the one that was asked for and its type has
a default model. -/
theorem isSome_lookup?_takeIn (name : String) (T : EntityType) (b : Backend)
    (e : String × EntityType) : (((b.takeIn e).registries name).lookup? T).isSome = true ↔
      ((b.registries name).lookup? T).isSome = true ∨
        ((b.settings e.1).registry = name ∧ e.2 = T) ∧ ∃ m, Model.ofEntity T = .ok m := by
  by_cases hname : name = (b.settings e.1).registry
  · subst hname
    have hget := (b.registry e.1).isSome_lookup?_get e.2 T
    simpa [takeIn, setRegistry, registry] using hget
  · simp [takeIn, setRegistry, hname, Ne.symm hname]

/-- A model is there if it was there before, or if it is among those that were asked for and its
type has a default model. -/
theorem isSome_lookup?_takeAll (name : String) (T : EntityType) :
    ∀ (es : List (String × EntityType)) (b : Backend),
      (((es.foldl takeIn b).registries name).lookup? T).isSome = true ↔
        ((b.registries name).lookup? T).isSome = true ∨
          b.Asks name T es ∧ ∃ m, Model.ofEntity T = .ok m
  | [], b => by simp [Asks]
  | e :: es, b => by
    -- taking a model in changes no settings, so later sessions ask the same registries
    have hsettings : (b.takeIn e).Asks name T es ↔ b.Asks name T es := Iff.rfl
    have hcons : b.Asks name T (e :: es) ↔
        (b.settings e.1).registry = name ∧ e.2 = T ∨ b.Asks name T es := by
      constructor
      · rintro ⟨session, hname, hmem⟩
        rcases List.mem_cons.mp hmem with rfl | hmem
        · exact .inl ⟨hname, rfl⟩
        · exact .inr ⟨session, hname, hmem⟩
      · rintro (⟨hname, rfl⟩ | ⟨session, hname, hmem⟩)
        · exact ⟨e.1, hname, .head _⟩
        · exact ⟨session, hname, .tail _ hmem⟩
    rw [List.foldl_cons, isSome_lookup?_takeAll name T es, isSome_lookup?_takeIn, hsettings, hcons,
      or_and_right, or_assoc]

end Backend

namespace Job

/-- A statement compiles as before when the registries have grown. -/
theorem compile_of_grows (h : b.Grows b') (j : Job) : j.compile b'.cores = j.compile b.cores := by
  have hagree := h.agree
  rw [compile, compile]
  refine congrArg _
    (Statement.compile_congr ⟨fun _ => hagree.dialect _, fun _ => hagree.model _⟩ _ ?_)
  intro m _ r field
  simp only [Backend.cores, h.settings]

/-- What a job builds does not depend on what was taken in before. -/
theorem build_of_grows (h : b.Grows b') (j : Job) : (j.build b').1 = (j.build b).1 :=
  congrArg Compiled.result (compile_of_grows h j)

/-- The state after statements are built in order, whether they fail or not. -/
def buildAll (js : List Job) (b : Backend) : Backend := js.foldl (fun b j => (j.build b).2) b

theorem grows_buildAll : ∀ (js : List Job) (b : Backend), b.Grows (buildAll js b)
  | [], b => .refl b
  | j :: js, b => (Backend.Grows.takeAll _ b).trans (grows_buildAll js (j.build b).2)

/-- Statements that are built change nothing but registries. -/
theorem buildAll_eq : ∀ (js : List Job) (b : Backend),
    buildAll js b = { b with registries := (buildAll js b).registries }
  | [], _ => rfl
  | j :: js, b => by
    have hbuilt : (j.build b).2 = { b with registries := (j.build b).2.registries } :=
      Backend.takeAll_eq _ b
    have hrest := buildAll_eq js (j.build b).2
    rw [hbuilt] at hrest
    rw [buildAll, List.foldl_cons, hbuilt]
    exact hrest

/-- A registry has taken in a model of a type exactly if a statement asked for it. -/
theorem isSome_lookup?_buildAll (name : String) (T : EntityType) : ∀ (js : List Job) (b : Backend),
    (((buildAll js b).registries name).lookup? T).isSome = true ↔
      ((b.registries name).lookup? T).isSome = true ∨
        (∃ j ∈ js, b.Asks name T (j.compile b.cores).consulted) ∧ ∃ m, Model.ofEntity T = .ok m
  | [], b => by simp [buildAll]
  | j :: js, b => by
    have hgrown : b.Grows (j.build b).2 := Backend.Grows.takeAll _ b
    -- a statement asks for the same models after the first one was built
    have hasks (k : Job) : (j.build b).2.Asks name T (k.compile (j.build b).2.cores).consulted ↔
        b.Asks name T (k.compile b.cores).consulted := by
      rw [compile_of_grows hgrown, Backend.Asks, Backend.Asks, hgrown.settings]
    have hfirst := Backend.isSome_lookup?_takeAll name T (j.compile b.cores).consulted b
    have hrest := isSome_lookup?_buildAll name T js (j.build b).2
    simp only [hasks] at hrest
    rw [buildAll, List.foldl_cons, ← buildAll, hrest, build, Run.build, hfirst,
      List.exists_mem_cons_iff, or_and_right, or_assoc]

/-- What was built before does not show. After any statements were built, whether that failed or
not, a statement is built to the query or error that it is built to at first, and so it is if it was
built before itself. All that the builds changed are the registries. These still share every model
that they shared; what they share beyond that are new default models, of the types that the builds
asked for and that had none. Nor does it show within one build: a lookup gives the same model
whichever lookups came before it. -/
theorem build_after_builds (b : Backend) (js : List Job) (j : Job) :
    (j.build (buildAll js b)).1 = (j.build b).1 ∧ (j.build (j.build b).2).1 = (j.build b).1 ∧
    buildAll js b = { b with registries := (buildAll js b).registries } ∧
    (∀ name, (b.registries name).Grows ((buildAll js b).registries name) ∧
      ∀ T, (((buildAll js b).registries name).lookup? T).isSome = true ↔
        ((b.registries name).lookup? T).isSome = true ∨
          (∃ k ∈ js, b.Asks name T (k.compile b.cores).consulted) ∧
            ∃ m, Model.ofEntity T = .ok m) ∧
    ∀ (es : List (String × EntityType)) session T,
      (((es.foldl Backend.takeIn b).registry session).get T).1.map (·.model) =
        (b.registry session).model T := by
  refine ⟨build_of_grows (grows_buildAll js b) j, build_of_grows (.takeAll _ b) j, buildAll_eq js b,
    fun name => ?_, fun es session T => ?_⟩
  · exact ⟨(grows_buildAll js b).registries name, fun T => isSome_lookup?_buildAll name T js b⟩
  · rw [Registry.get_eq_model]
    exact ((Backend.Grows.takeAll es b).registry session).model T

end Job

end RowMapper
