import RowMapper.Proofs.Model.Growth

/-!
# Models of a declaration

A model is made from a declaration, and options only change names in it. So every model of an entity
type has the declared fields in the declared order, each with its place (`Model.Describes`),
whatever the options were.

A registry takes in nothing else: `Registry.Sound` holds of the empty registry, and every operation
keeps it.
-/

namespace RowMapper

/-- The fields of a declaration have different names, and all of them can be reached by name. -/
structure EntityType.WellFormed (T : EntityType) : Prop where
  distinct : (T.fields.map (·.name)).Nodup
  visible : ∀ f ∈ T.fields, f.hidden = false

/-- A model has the fields of a declaration in their order, each with its place. -/
structure Model.Describes (m : Model) (T : EntityType) : Prop where
  owner : m.owner = T
  names : m.fields.map (·.name) = T.fields.map (·.name)
  place : ∀ {i : ℕ} {f : ModelField}, m.fields[i]? = some f → f.index = i

/-- A model is made from a declaration, with some options. -/
def Model.MadeFrom (m : Model) (T : EntityType) : Prop :=
  ∃ options, (Model.ofEntity T >>= (ModelOption.applyAll · options)) = .ok m

namespace Model

/-- Fields are numbered on from where the numbering starts. -/
theorem place_defaultFields : ∀ {decls : List FieldDecl} {start : ℕ} {fields : List ModelField},
    defaultFields start decls = .ok fields →
      ∀ {i : ℕ} {f : ModelField}, fields[i]? = some f → f.index = start + i
  | [], start, fields, h, i, f, hf => by
    obtain rfl : [] = fields := by simpa [defaultFields] using h
    simp at hf
  | decl :: decls, start, fields, h, i, f, hf => by
    obtain ⟨column, -, h⟩ := Results.bind_eq_ok.mp h
    -- the column and the remaining fields were made before the field itself was put in front
    obtain ⟨rest, hrest, h⟩ := Results.bind_eq_ok.mp h
    obtain rfl := Except.ok.inj h
    cases i with
    | zero =>
      obtain rfl := Option.some.inj hf
      rfl
    | succ i =>
      have := place_defaultFields hrest (i := i) hf
      omega

/-- A default model has a field for each declared one. -/
theorem describes_ofEntity {m : Model} {T : EntityType} (h : ofEntity T = .ok m) :
    m.Describes T := by
  obtain ⟨-, fields, hfields, rfl⟩ := ofEntity_eq_ok h
  refine ⟨rfl, defaultFields_names hfields, fun hf => ?_⟩
  simpa using place_defaultFields hfields hf

namespace Describes

variable {m m' : Model} {T : EntityType}

/-- The field at a place is the declared one at that place, by its name. -/
theorem field? (hm : m.Describes T) {i : ℕ} {f : ModelField} (hf : m.fields[i]? = some f) :
    f.index = i ∧ ∃ d, T.fields[i]? = some d ∧ d.name = f.name := by
  refine ⟨hm.place hf, ?_⟩
  have hname : T.fields[i]?.map (·.name) = some f.name := by
    rw [← List.getElem?_map, ← hm.names, List.getElem?_map, hf, Option.map_some]
  exact Option.map_eq_some_iff.mp hname

/-- Different fields have different places. -/
theorem index_inj (hm : m.Describes T) {f g : ModelField} (hf : f ∈ m.fields) (hg : g ∈ m.fields)
    (h : f.index = g.index) : f = g := by
  obtain ⟨i, hi⟩ := List.mem_iff_getElem?.mp hf
  obtain ⟨j, hj⟩ := List.mem_iff_getElem?.mp hg
  rw [hm.place hi, hm.place hj] at h
  subst h
  simpa [hi] using hj

/-- No field is missing, and none was added. -/
theorem length_eq (hm : m.Describes T) : m.fields.length = T.fields.length := by
  simpa using congrArg List.length hm.names

/-- A field in another column is still the field of its name at its place. -/
theorem renameColumn (hm : m.Describes T) {name column : String}
    (h : m.renameColumn name column = .ok m') : m'.Describes T := by
  obtain ⟨i, f, -, hrenamed⟩ := renamed_of_renameColumn h
  refine ⟨?_, hrenamed.names_eq.trans hm.names, fun {j g} hg => ?_⟩
  · unfold Model.renameColumn at h
    split at h
    · simp at h
    · split at h
      · simp at h
      · obtain rfl := Except.ok.inj h
        exact hm.owner
  · rw [hrenamed.fields] at hg
    split at hg
    · next hj =>
      obtain rfl := Option.some.inj hg
      exact (hm.place hrenamed.field).trans hj.symm
    · exact hm.place hg

/-- Options only change names of tables and columns. -/
theorem apply (hm : m.Describes T) {o : ModelOption} (h : o.apply m = .ok m') :
    m'.Describes T := by
  cases o with
  | tableName name =>
    obtain rfl := Except.ok.inj h
    exact ⟨hm.owner, hm.names, hm.place⟩
  | columnName name column => exact hm.renameColumn h
  | fail e => simp [ModelOption.apply] at h

/-- Any number of options, up to one that fails. -/
theorem applyAll (hm : m.Describes T) {os : List ModelOption}
    (h : ModelOption.applyAll m os = .ok m') : m'.Describes T := by
  induction os generalizing m with
  | nil => exact Except.ok.inj h ▸ hm
  | cons o os ih =>
    obtain ⟨m₁, ho, hos⟩ := Results.bind_eq_ok.mp h
    exact ih (hm.apply ho) hos

end Describes

/-- So every model that is made from a declaration describes it, whatever the options were. -/
theorem MadeFrom.describes {m : Model} {T : EntityType} (h : m.MadeFrom T) : m.Describes T := by
  obtain ⟨options, h⟩ := h
  obtain ⟨m₀, hT, hrun⟩ := Results.bind_eq_ok.mp h
  exact (describes_ofEntity hT).applyAll hrun

/-- If the declared names are different, the fields of such a model are found by name. -/
theorem MadeFrom.indexed {m : Model} {T : EntityType} (h : m.MadeFrom T)
    (hnames : (T.fields.map (·.name)).Nodup) : m.Indexed := by
  obtain ⟨options, h⟩ := h
  obtain ⟨m₀, hT, hrun⟩ := Results.bind_eq_ok.mp h
  exact ModelOption.indexed_applyAll (indexed_ofEntity hnames hT) hrun

/-- A default model is made without options. -/
theorem madeFrom_ofEntity {m : Model} {T : EntityType} (h : ofEntity T = .ok m) : m.MadeFrom T :=
  ⟨[], by rw [h]; rfl⟩

end Model

/-! ## Registries -/

namespace Registry

/-- Every model of a registry is made from the declaration of the type that it is shared under. -/
def Sound (r : Registry) : Prop := ∀ e ∈ r.entries, e.2.model.MadeFrom e.1

variable {r : Registry} {T : EntityType}

theorem sound_empty : empty.Sound := by simp [Sound, empty]

/-- The model that is found under a type was made from its declaration. -/
theorem Sound.lookup? (hr : r.Sound) {shared : SharedModel} (h : r.lookup? T = some shared) :
    shared.model.MadeFrom T := by
  obtain ⟨l, l', hentries, -⟩ := List.lookup_eq_some_iff.mp h
  exact hr (T, shared) (by simp [hentries])

/-- So is the model that a type has, found or made. -/
theorem Sound.model (hr : r.Sound) {m : Model} (h : r.model T = .ok m) : m.MadeFrom T := by
  unfold Registry.model at h
  split at h
  · next shared hshared =>
    obtain rfl := Except.ok.inj h
    exact hr.lookup? hshared
  · exact Model.madeFrom_ofEntity h

/-- A model may be put in the place of another of the same type. -/
theorem Sound.replace (hr : r.Sound) {m : Model} (hm : m.MadeFrom T) :
    (r.replace T m).2.Sound := by
  intro e he
  rcases List.mem_cons.mp he with rfl | he
  · exact hm
  · exact hr e (List.mem_of_mem_filter he)

/-- To get a model puts in a default one at most. -/
theorem Sound.get (hr : r.Sound) : (r.get T).2.Sound := by
  cases h : r.lookup? T with
  | some shared => rwa [get_of_lookup? h]
  | none => cases hm : Model.ofEntity T with
    | ok m =>
      rw [get_of_absent h hm]
      exact hr.replace (Model.madeFrom_ofEntity hm)
    | error e => rwa [get_of_error h hm]

/-- To register puts in a model with options, or fails and leaves the registry as it was. -/
theorem Sound.register (hr : r.Sound) (options : List ModelOption) :
    (r.register T options).2.Sound := by
  cases hm : Model.ofEntity T >>= (ModelOption.applyAll · options) with
  | ok m =>
    rw [register_of_ok hm]
    exact hr.replace ⟨options, hm⟩
  | error e => rwa [register_of_error hm]

/-- What `get` gives is the model of the type, made from its declaration. -/
theorem Sound.get_model (hr : r.Sound) {shared : SharedModel} (h : (r.get T).1 = .ok shared) :
    shared.model.MadeFrom T := by
  have hmodel := r.get_eq_model T
  rw [h] at hmodel
  exact hr.model hmodel.symm

end Registry

end RowMapper
