import Mathlib.Data.List.Induction
import Mathlib.Data.List.Nodup
import RowMapper.Model.Registry
import RowMapper.Proofs.Results

/-!
# Indexes of a model

A model finds its fields through two indexes from names to places. `NameIndex.find?_insert`,
`NameIndex.find?_erase` and `NameIndex.find?_ofNames` say what a lookup gives; nothing later opens
the lists behind them.

`Model.Indexed` is the invariant of every model that is made from a declaration with distinct names:
the name index finds each field at its place, and whatever the column index finds is stored in the
column that was asked for. It does not say that the column index finds every field.
-/

namespace RowMapper

/-- A lookup among the entries of some keys finds what it found before, or nothing. -/
theorem lookup_filter {α β : Type} [BEq α] [LawfulBEq α] (p : α → Bool) (key : α) :
    ∀ entries : List (α × β), (entries.filter fun e => p e.1).lookup key =
      if p key then entries.lookup key else none
  | [] => by simp
  | (k, v) :: entries => by
    have ih := lookup_filter p key entries
    rw [List.filter_cons, List.lookup_cons]
    by_cases hkey : key = k
    · subst hkey
      cases hp : p key <;> simp [hp, ih]
    · have hbeq : (key == k) = false := beq_false_of_ne hkey
      cases hp : p k <;> simp [ih, List.lookup_cons, hbeq]

namespace NameIndex

/-- A name that is erased is not found, whatever it was found at. -/
@[simp]
theorem find?_erase (index : NameIndex) (name key : String) :
    (index.erase name).find? key = if key = name then none else index.find? key := by
  rw [find?, erase, lookup_filter (· != name)]
  by_cases hkey : key = name <;> simp [hkey, find?]

/-- A name that is inserted is found at its new place only. -/
@[simp]
theorem find?_insert (index : NameIndex) (name : String) (place : ℕ) (key : String) :
    (index.insert name place).find? key = if key = name then some place else index.find? key := by
  have herase := find?_erase index name key
  unfold find? at herase ⊢
  rw [insert, List.lookup_cons]
  by_cases hkey : key = name
  · simp [hkey]
  · simpa [hkey, beq_false_of_ne hkey] using herase

/-- An index is made by inserting name after name. -/
theorem ofNames_append (names : List String) (name : String) :
    ofNames (names ++ [name]) = (ofNames names).insert name names.length := by
  simp [ofNames, List.zipIdx_append]

/-- The index of a list of names finds the last place of a name. -/
theorem find?_ofNames {names : List String} {key : String} {i : ℕ} :
    (ofNames names).find? key = some i ↔
      names[i]? = some key ∧ ∀ j, names[j]? = some key → j ≤ i := by
  induction names using List.reverseRecOn with
  | nil => simp [ofNames, find?]
  | append_singleton names name ih =>
    rw [ofNames_append, find?_insert]
    split
    · next hkey =>
      subst hkey
      -- the last name replaces an earlier one, and its place is the last
      constructor
      · intro h
        obtain rfl : names.length = i := by simpa using h
        refine ⟨by simp, fun j hj => ?_⟩
        have := (List.getElem?_eq_some_iff.mp hj).1
        rw [List.length_append, List.length_singleton] at this
        omega
      · rintro ⟨hi, hlast⟩
        have hle := hlast names.length (by simp)
        have hlt := (List.getElem?_eq_some_iff.mp hi).1
        rw [List.length_append, List.length_singleton] at hlt
        exact congrArg some (by omega)
    · next hkey =>
      have hplaces : ∀ j : ℕ, (names ++ [name])[j]? = some key ↔ names[j]? = some key := by
        intro j
        rw [List.getElem?_append]
        split
        · rfl
        · next hj =>
          have hnone : names[j]? = none := List.getElem?_eq_none (by omega)
          rw [hnone]
          simp only [reduceCtorEq, iff_false]
          intro h
          have hmem : key ∈ [name] := List.mem_of_getElem? h
          exact hkey (by simpa using hmem)
      simp only [ih, hplaces]

end NameIndex

namespace Model

/-- Fields are found by their names, and what is found by a column is stored there. -/
structure Indexed (m : Model) : Prop where
  byName : ∀ {name : String} {i : ℕ},
    m.byName.find? name = some i ↔ ∃ f, m.fields[i]? = some f ∧ f.name = name
  byColumn : ∀ {column : String} {i : ℕ},
    m.byColumn.find? column = some i → ∃ f, m.fields[i]? = some f ∧ f.column = column

/-- A field that is found by name is a field of the model. -/
theorem field?_mem {m : Model} {name : String} {f : ModelField} (h : m.field? name = some f) :
    f ∈ m.fields := by
  simp only [field?, Option.bind_eq_bind, Option.bind_eq_some_iff] at h
  obtain ⟨i, -, hf⟩ := h
  exact List.mem_of_getElem? hf

/-- The name of a field leads to its place. -/
theorem Indexed.find?_self {m : Model} (hm : m.Indexed) {i : ℕ} {f : ModelField}
    (hf : m.fields[i]? = some f) : m.byName.find? f.name = some i :=
  hm.byName.mpr ⟨f, hf, rfl⟩

/-- A field is found by its own name. -/
theorem Indexed.field?_self {m : Model} (hm : m.Indexed) {i : ℕ} {f : ModelField}
    (hf : m.fields[i]? = some f) : m.field? f.name = some f := by
  simp [field?, hm.find?_self hf, hf]

/-- A name finds the fields that have it. -/
theorem Indexed.field?_eq_some {m : Model} (hm : m.Indexed) {name : String} {f : ModelField} :
    m.field? name = some f ↔ ∃ i : ℕ, m.fields[i]? = some f ∧ f.name = name := by
  constructor
  · intro h
    simp only [field?, Option.bind_eq_bind, Option.bind_eq_some_iff] at h
    obtain ⟨i, hi, hf⟩ := h
    obtain ⟨g, hg, hname⟩ := hm.byName.mp hi
    obtain rfl : g = f := by simpa [hf, eq_comm] using hg
    exact ⟨i, hf, hname⟩
  · rintro ⟨i, hf, rfl⟩
    exact hm.field?_self hf

/-- A field that is found by column is a field of the model. -/
theorem fieldByColumn?_mem {m : Model} {column : String} {f : ModelField}
    (h : m.fieldByColumn? column = some f) : f ∈ m.fields := by
  simp only [fieldByColumn?, Option.bind_eq_bind, Option.bind_eq_some_iff] at h
  obtain ⟨i, -, hf⟩ := h
  exact List.mem_of_getElem? hf

/-- What is found by a column is stored there. -/
theorem Indexed.column_eq {m : Model} (hm : m.Indexed) {column : String} {f : ModelField}
    (h : m.fieldByColumn? column = some f) : f.column = column := by
  simp only [fieldByColumn?, Option.bind_eq_bind, Option.bind_eq_some_iff] at h
  obtain ⟨i, hi, hf⟩ := h
  obtain ⟨g, hg, hcolumn⟩ := hm.byColumn hi
  obtain rfl : g = f := by simpa [hf, eq_comm] using hg
  exact hcolumn

/-- What storing the field at a place in another column does to a model. Whatever the column index
found under the previous column is forgotten, even if it was another field. -/
structure Renamed (m m' : Model) (i : ℕ) (f : ModelField) (column : String) : Prop where
  field : m.fields[i]? = some f
  fields : ∀ j : ℕ, m'.fields[j]? = if j = i then some { f with column } else m.fields[j]?
  byName : m'.byName = m.byName
  byColumn : ∀ key, m'.byColumn.find? key =
    if key = column then some i else if key = f.column then none else m.byColumn.find? key

/-- A column can only be changed for a field that is found by name. -/
theorem renamed_of_renameColumn {m m' : Model} {name column : String}
    (h : m.renameColumn name column = .ok m') :
    ∃ i f, m.byName.find? name = some i ∧ m.Renamed m' i f column := by
  unfold renameColumn at h
  split at h
  · simp at h
  · next i hi =>
    split at h
    · simp at h
    · next f hf =>
      obtain rfl := Except.ok.inj h
      have hlt := (List.getElem?_eq_some_iff.mp hf).1
      refine ⟨i, f, hi, hf, fun j => ?_, rfl, by simp⟩
      rw [List.getElem?_set]
      by_cases hj : i = j
      · simp [hj, hj ▸ hlt]
      · simp [hj, Ne.symm hj]

/-! ## Models of declarations -/

/-- Default fields have the declared names, in the declared order. -/
theorem defaultFields_names : ∀ {decls : List FieldDecl} {place : ℕ} {fields : List ModelField},
    defaultFields place decls = .ok fields → fields.map (·.name) = decls.map (·.name)
  | [], place, fields, h => by
    obtain rfl : [] = fields := by simpa [defaultFields] using h
    rfl
  | decl :: decls, place, fields, h => by
    obtain ⟨column, -, h⟩ := Results.bind_eq_ok.mp h
    obtain ⟨rest, hrest, h⟩ := Results.bind_eq_ok.mp h
    obtain rfl := Except.ok.inj h
    simpa using defaultFields_names hrest

/-- A default model is made of records only, under the declared table name or that of the type. -/
theorem ofEntity_eq_ok {T : EntityType} {m : Model} (h : ofEntity T = .ok m) :
    T.shape = .record ∧ ∃ fields, defaultFields 0 T.fields = .ok fields ∧
      m = ofFields (T.tableName.getD (underscoreName T.name)) fields T := by
  unfold ofEntity at h
  split at h
  · next hshape =>
    obtain ⟨fields, hfields, h⟩ := Results.bind_eq_ok.mp h
    exact ⟨hshape, fields, hfields, (Except.ok.inj h).symm⟩
  · simp at h

/-- In a list with distinct names a field is at one place only. -/
theorem place_unique {fields : List ModelField} (hnames : (fields.map (·.name)).Nodup)
    {i j : ℕ} {f g : ModelField} (hf : fields[i]? = some f) (hg : fields[j]? = some g)
    (hname : f.name = g.name) : i = j := by
  refine (List.getElem?_inj ?_ hnames).mp ?_
  · simpa using (List.getElem?_eq_some_iff.mp hf).1
  · simp [hf, hg, hname]

/-- A model is indexed when it is made, as each name leads to one place. -/
theorem indexed_ofFields {tableName : String} {fields : List ModelField} {owner : EntityType}
    (hnames : (fields.map (·.name)).Nodup) : (ofFields tableName fields owner).Indexed where
  byName {name i} := by
    simp only [ofFields, NameIndex.find?_ofNames, List.getElem?_map, Option.map_eq_some_iff]
    refine ⟨fun h => h.1, fun h => ⟨h, fun j hj => ?_⟩⟩
    obtain ⟨f, hf, rfl⟩ := h
    obtain ⟨g, hg, hname⟩ := hj
    exact Nat.le_of_eq (place_unique hnames hg hf hname)
  byColumn {column i} h := by
    simp only [ofFields, NameIndex.find?_ofNames, List.getElem?_map, Option.map_eq_some_iff] at h
    exact h.1

/-- So is every default model of a type with different field names. -/
theorem indexed_ofEntity {T : EntityType} {m : Model} (hnames : (T.fields.map (·.name)).Nodup)
    (h : ofEntity T = .ok m) : m.Indexed := by
  obtain ⟨-, fields, hfields, rfl⟩ := ofEntity_eq_ok h
  rw [← defaultFields_names hfields] at hnames
  exact indexed_ofFields hnames

/-! ## Changes keep the invariant -/

/-- Fields keep their names. -/
theorem Renamed.names_eq {m m' : Model} {i : ℕ} {f : ModelField} {column : String}
    (h : m.Renamed m' i f column) : m'.fields.map (·.name) = m.fields.map (·.name) := by
  refine List.ext_getElem? fun j => ?_
  rw [List.getElem?_map, List.getElem?_map, h.fields]
  split
  · next hj => simp [hj, h.field]
  · rfl

/-- To store a field in another column keeps the invariant: what is found by column is stored there,
as the previous column finds nothing any more. -/
theorem Renamed.indexed {m m' : Model} {i : ℕ} {f : ModelField} {column : String}
    (h : m.Renamed m' i f column) (hm : m.Indexed) : m'.Indexed where
  byName {name j} := by
    rw [h.byName, hm.byName, h.fields]
    split
    · next hj => simp [hj, h.field]
    · rfl
  byColumn {key j} hj := by
    rw [h.byColumn] at hj
    split at hj
    · next hkey =>
      obtain rfl := Option.some.inj hj
      exact ⟨{ f with column }, by simp [h.fields], hkey.symm⟩
    · next hkey =>
      split at hj
      · simp at hj
      · next hprevious =>
        obtain ⟨g, hg, rfl⟩ := hm.byColumn hj
        refine ⟨g, ?_, rfl⟩
        rw [h.fields, if_neg, hg]
        -- the renamed field itself was found under its previous column only
        rintro rfl
        obtain rfl : f = g := by simpa [h.field] using hg
        exact hprevious rfl

end Model

namespace ModelOption

/-- What a change can do to a model: it leaves the fields and indexes alone, or it stores the field
of a name in another column. -/
theorem apply_cases {m m' : Model} {o : ModelOption} (hm : m.Indexed) (h : o.apply m = .ok m') :
    (∃ name, o = .tableName name ∧ m' = { m with tableName := name }) ∨
      ∃ i f column, o = .columnName f.name column ∧ m.Renamed m' i f column := by
  cases o with
  | tableName name => exact .inl ⟨name, rfl, (Except.ok.inj h).symm⟩
  | columnName name column =>
    obtain ⟨i, f, hi, hf⟩ := Model.renamed_of_renameColumn h
    obtain ⟨g, hg, rfl⟩ := hm.byName.mp hi
    obtain rfl : g = f := by simpa [hf.field, eq_comm] using hg
    exact .inr ⟨i, g, column, rfl, hf⟩
  | fail e => simp [apply] at h

theorem indexed_apply {m m' : Model} {o : ModelOption} (hm : m.Indexed) (h : o.apply m = .ok m') :
    m'.Indexed := by
  obtain ⟨name, -, rfl⟩ | ⟨i, f, column, -, hrenamed⟩ := apply_cases hm h
  · exact ⟨hm.byName, hm.byColumn⟩
  · exact hrenamed.indexed hm

theorem applyAll_append {m : Model} {os os' : List ModelOption} :
    applyAll m (os ++ os') = applyAll m os >>= (applyAll · os') := by
  induction os generalizing m with
  | nil => rfl
  | cons o os ih =>
    rw [List.cons_append, applyAll, applyAll, bind_assoc]
    exact congrArg _ (funext fun m => ih)

theorem indexed_applyAll {m m' : Model} {os : List ModelOption} (hm : m.Indexed)
    (h : applyAll m os = .ok m') : m'.Indexed := by
  induction os generalizing m with
  | nil => exact Except.ok.inj h ▸ hm
  | cons o os ih =>
    obtain ⟨m₁, ho, hos⟩ := Results.bind_eq_ok.mp h
    exact ih (indexed_apply hm ho) hos

end ModelOption

/-! ## Plain declarations -/

/-- The declaration of a field of integers without a tag. -/
def FieldDecl.int64 (name : String) : FieldDecl :=
  { name, tag := none, typeName := "i64", columnType := .integer, type := .integer .int64
    initial := .zero .int64, hidden := false }

/-- The declaration of a record of integers. -/
def EntityType.integers (name : String) (fields : List String) : EntityType :=
  { path := name, name, shape := .record, fields := fields.map .int64, tableName := none }

end RowMapper
