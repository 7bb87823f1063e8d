import Mathlib.Data.List.Nodup
import RowMapper.Proofs.Model.Indexes

/-!
# Fields found by their columns

A change of a field's column forgets the previous column, whichever field it led to. So a field is
lost when another one that shares its column moves on: the column of the first is then unknown,
although nothing shares it any more.

`Registry.register_fieldByColumn?` says exactly which fields of a registered model are found by
their columns: those that shared their column with no other field at any time since they were stored
there. The induction is on the list of changes, from the last one;
`ModelOption.found_and_alone_apply` is one step of it.
-/

namespace RowMapper

namespace Model

/-- The column of a field leads to the field. -/
def Found (m : Model) (name : String) : Prop :=
  ∃ f, m.field? name = some f ∧ m.fieldByColumn? f.column = some f

/-- No other field is stored in the column of a field. -/
def Alone (m : Model) (name : String) : Prop :=
  ∀ f ∈ m.fields, ∀ g ∈ m.fields, f.name = name → g.column = f.column → g.name = name

namespace Indexed

variable {m : Model} (hm : m.Indexed) {name : String} {i : ℕ} (hi : m.byName.find? name = some i)
include hm hi

theorem found_iff : m.Found name ↔
    ∃ f, m.fields[i]? = some f ∧ m.byColumn.find? f.column = some i := by
  have hfield : m.field? name = m.fields[i]? := by simp [field?, hi]
  unfold Found
  rw [hfield]
  refine exists_congr fun f => and_congr_right fun hf => ?_
  constructor
  · intro h
    simp only [fieldByColumn?, Option.bind_eq_bind, Option.bind_eq_some_iff] at h
    obtain ⟨j, hj, hfj⟩ := h
    -- the place that the column leads to holds a field of this name, and only `i` does
    obtain ⟨g, hg, hname⟩ := hm.byName.mp hi
    obtain rfl : g = f := by simpa [hf, eq_comm] using hg
    have hj' : m.byName.find? name = some j := hm.byName.mpr ⟨g, hfj, hname⟩
    rw [hj, ← hj', hi]
  · intro h
    simp [fieldByColumn?, h, hf]

theorem alone_iff : m.Alone name ↔ ∀ f j g, m.fields[i]? = some f → m.fields[j]? = some g →
    g.column = f.column → j = i := by
  obtain ⟨f, hf, hname⟩ := hm.byName.mp hi
  constructor
  · intro h f' j g hf' hg hcolumn
    obtain rfl : f = f' := by simpa [hf] using hf'
    have hgname := h f (List.mem_of_getElem? hf) g (List.mem_of_getElem? hg) hname hcolumn
    have hj : m.byName.find? name = some j := hm.byName.mpr ⟨g, hg, hgname⟩
    rw [hi] at hj
    exact (Option.some.inj hj).symm
  · intro h f' hf' g hg hname' hcolumn
    obtain ⟨k, hk⟩ := List.mem_iff_getElem?.mp hf'
    obtain ⟨j, hj⟩ := List.mem_iff_getElem?.mp hg
    have hplace : m.byName.find? name = some k := hm.byName.mpr ⟨f', hk, hname'⟩
    obtain rfl : i = k := by simpa [hi] using hplace
    obtain rfl : j = i := h f' j g hk hj hcolumn
    obtain rfl : f' = g := by simpa [hk] using hj
    exact hname'

end Indexed

/-- When a field moves, another field that is alone afterwards is found exactly if it was found and
alone before: what it might lose is the entry that both shared. -/
theorem Renamed.found_iff_of_alone {m m' : Model} {i : ℕ} {f : ModelField} {column name : String}
    (hm : m.Indexed) (h : m.Renamed m' i f column) {k : ℕ} (hk : m.byName.find? name = some k)
    (hne : k ≠ i) (halone : m'.Alone name) : m'.Found name ↔ m.Found name ∧ m.Alone name := by
  have hm' := h.indexed hm
  have hk' : m'.byName.find? name = some k := h.byName ▸ hk
  obtain ⟨g, hg, -⟩ := hm.byName.mp hk
  have hg' : m'.fields[k]? = some g := by rw [h.fields, if_neg hne, hg]
  have hmoved : m'.fields[i]? = some { f with column } := by simp [h.fields]
  rw [hm'.alone_iff hk'] at halone
  -- being alone afterwards, it is not stored where the other one moved to
  have hcolumn : g.column ≠ column := fun heq => hne (halone g i _ hg' hmoved heq.symm).symm
  have hindex : m'.byColumn.find? g.column =
      if g.column = f.column then none else m.byColumn.find? g.column := by
    rw [h.byColumn, if_neg hcolumn]
  have hbefore : m.Alone name ↔ g.column ≠ f.column := by
    rw [hm.alone_iff hk]
    constructor
    · intro hall heq
      exact hne (hall g i f hg h.field heq.symm).symm
    · intro hprevious g₀ j g₁ hg₀ hg₁ hshared
      obtain rfl : g = g₀ := by simpa [hg] using hg₀
      by_cases hj : j = i
      · subst hj
        obtain rfl : f = g₁ := by simpa [h.field] using hg₁
        exact absurd hshared.symm hprevious
      · exact halone g j g₁ hg' (by rw [h.fields, if_neg hj, hg₁]) hshared
  rw [hm'.found_iff hk', hm.found_iff hk, hbefore]
  simp only [hg, hg', Option.some.injEq, exists_eq_left', hindex]
  split
  · next heq => simp [heq]
  · next hprevious => simp [hprevious]

/-- In a default model a field that shares its column with no other is found. -/
theorem found_of_alone_ofEntity {T : EntityType} {m : Model} {name : String}
    (hnames : (T.fields.map (·.name)).Nodup) (h : ofEntity T = .ok m)
    (hname : name ∈ m.fields.map (·.name)) (halone : m.Alone name) : m.Found name := by
  have hm := indexed_ofEntity hnames h
  obtain ⟨f, hf, rfl⟩ := List.mem_map.mp hname
  obtain ⟨i, hi⟩ := List.mem_iff_getElem?.mp hf
  have hplace := hm.find?_self hi
  rw [hm.alone_iff hplace] at halone
  refine (hm.found_iff hplace).mpr ⟨f, hi, ?_⟩
  obtain ⟨-, fields, -, rfl⟩ := ofEntity_eq_ok h
  simp only [ofFields, NameIndex.find?_ofNames, List.getElem?_map, Option.map_eq_some_iff]
  refine ⟨⟨f, hi, rfl⟩, fun j hj => ?_⟩
  obtain ⟨g, hg, hcolumn⟩ := hj
  exact Nat.le_of_eq (halone f j g hi hg hcolumn)

end Model

namespace ModelOption

/-- No option changes under which names fields are found. -/
theorem byName_apply {m m' : Model} {o : ModelOption} (hm : m.Indexed) (h : o.apply m = .ok m') :
    m'.byName = m.byName := by
  obtain ⟨name, -, rfl⟩ | ⟨i, f, column, -, hrenamed⟩ := apply_cases hm h
  · rfl
  · exact hrenamed.byName

theorem byName_applyAll {m m' : Model} {os : List ModelOption} (hm : m.Indexed)
    (h : applyAll m os = .ok m') : m'.byName = m.byName := by
  induction os generalizing m with
  | nil => exact Except.ok.inj h ▸ rfl
  | cons o os ih =>
    obtain ⟨m₁, ho, hos⟩ := Results.bind_eq_ok.mp h
    rw [ih (indexed_apply hm ho) hos, byName_apply hm ho]

/-- An option changes columns and tables, but no name of a field. -/
theorem names_apply {m m' : Model} {o : ModelOption} (hm : m.Indexed) (h : o.apply m = .ok m') :
    m'.fields.map (·.name) = m.fields.map (·.name) := by
  obtain ⟨name, -, rfl⟩ | ⟨i, f, column, -, hrenamed⟩ := apply_cases hm h
  · rfl
  · exact hrenamed.names_eq

theorem names_applyAll {m m' : Model} {os : List ModelOption} (hm : m.Indexed)
    (h : applyAll m os = .ok m') : m'.fields.map (·.name) = m.fields.map (·.name) := by
  induction os generalizing m with
  | nil => exact Except.ok.inj h ▸ rfl
  | cons o os ih =>
    obtain ⟨m₁, ho, hos⟩ := Results.bind_eq_ok.mp h
    rw [ih (indexed_apply hm ho) hos, names_apply hm ho]

/-- One step: a change that does not move a field keeps it found and alone, if it is alone after the
change, and does not make it so. -/
theorem found_and_alone_apply {m m' : Model} {o : ModelOption} {name : String} {k : ℕ}
    (hm : m.Indexed) (hk : m.byName.find? name = some k) (h : o.apply m = .ok m')
    (ho : ∀ column, o ≠ .columnName name column) :
    m'.Found name ∧ m'.Alone name ↔ (m.Found name ∧ m.Alone name) ∧ m'.Alone name := by
  obtain ⟨table, -, rfl⟩ | ⟨i, f, column, rfl, hrenamed⟩ := apply_cases hm h
  · exact ⟨fun h => ⟨h, h.2⟩, fun h => h.1⟩
  · have hne : k ≠ i := by
      rintro rfl
      obtain ⟨g, hg, hname⟩ := hm.byName.mp hk
      obtain rfl : g = f := by simpa [hrenamed.field, eq_comm] using hg
      exact ho column (hname ▸ rfl)
    exact and_congr_left fun halone => hrenamed.found_iff_of_alone hm hk hne halone

/-- A field that is moved to a column is what this column finds. -/
theorem fieldByColumn?_apply_columnName {m m' : Model} {name column : String}
    (h : (columnName name column).apply m = .ok m') :
    ∃ f, m'.field? name = some f ∧ f.column = column ∧ m'.fieldByColumn? column = some f := by
  obtain ⟨i, f, hi, hrenamed⟩ := Model.renamed_of_renameColumn h
  have hf : m'.fields[i]? = some { f with column } := by rw [hrenamed.fields, if_pos rfl]
  refine ⟨{ f with column }, ?_, rfl, ?_⟩
  · simp [Model.field?, hrenamed.byName, hi, hf]
  · simp [Model.fieldByColumn?, hrenamed.byColumn, hf]

/-- A change that moves a field makes it found. -/
theorem found_apply_columnName {m m' : Model} {name column : String}
    (h : (columnName name column).apply m = .ok m') : m'.Found name := by
  obtain ⟨f, hf, rfl, hcolumn⟩ := fieldByColumn?_apply_columnName h
  exact ⟨f, hf, hcolumn⟩

end ModelOption

/-- A field has shared its column with no other since it was stored there: not in the model before
any of the changes that come after its last move, nor in the last model. -/
def Model.AloneSince (m : Model) (options : List ModelOption) (name : String) : Prop :=
  ∀ before after m', options = before ++ after → (∀ column, .columnName name column ∉ after) →
    ModelOption.applyAll m before = .ok m' → m'.Alone name

namespace Model

variable {m : Model} {name : String}

theorem aloneSince_nil : m.AloneSince [] name ↔ m.Alone name := by
  constructor
  · intro h
    exact h [] [] m rfl (by simp) rfl
  · intro halone before after m' hsplit _ hm'
    obtain ⟨rfl, rfl⟩ := List.nil_eq_append_iff.mp hsplit
    exact Except.ok.inj hm' ▸ halone

/-- The models since the last move of a field, where the last change is not a move of it. -/
theorem aloneSince_append_singleton {os : List ModelOption} {o : ModelOption} {m' : Model}
    (h : ModelOption.applyAll m (os ++ [o]) = .ok m') :
    m.AloneSince (os ++ [o]) name ↔
      ((∀ column, o ≠ .columnName name column) → m.AloneSince os name) ∧ m'.Alone name := by
  constructor
  · refine fun hall => ⟨fun ho before after m₁ hsplit hafter hm₁ => ?_, ?_⟩
    · refine hall before (after ++ [o]) m₁ (by rw [hsplit, List.append_assoc]) ?_ hm₁
      intro column hmem
      rcases List.mem_append.mp hmem with hmem | hmem
      · exact hafter column hmem
      · exact ho column (List.mem_singleton.mp hmem).symm
    · exact hall (os ++ [o]) [] m' (by simp) (by simp) h
  · rintro ⟨hos, halone⟩ before after m₁ hsplit hafter hm₁
    rcases List.eq_nil_or_concat after with rfl | ⟨rest, o', rfl⟩
    · obtain rfl : os ++ [o] = before := by simpa using hsplit
      obtain rfl : m' = m₁ := Except.ok.inj (h.symm.trans hm₁)
      exact halone
    · simp only [List.concat_eq_append] at hsplit hafter
      rw [← List.append_assoc] at hsplit
      obtain ⟨rfl, ho⟩ := List.append_inj' hsplit rfl
      obtain rfl : o = o' := by simpa using ho
      refine hos (fun column ho => hafter column (by simp [ho])) before rest m₁ rfl ?_ hm₁
      exact fun column hmem => hafter column (by simp [hmem])

/-- In the model that changes lead to, a field is found and alone exactly if it has been alone since
it was stored in its column. -/
theorem found_and_alone_iff {T : EntityType} (hnames : (T.fields.map (·.name)).Nodup)
    (hT : ofEntity T = .ok m) (hname : name ∈ m.fields.map (·.name)) :
    ∀ {options : List ModelOption} {m' : Model}, ModelOption.applyAll m options = .ok m' →
      (m'.Found name ∧ m'.Alone name ↔ m.AloneSince options name) := by
  have hm := indexed_ofEntity hnames hT
  obtain ⟨i, hi⟩ : ∃ i, m.byName.find? name = some i := by
    obtain ⟨f, hf, rfl⟩ := List.mem_map.mp hname
    obtain ⟨i, hi⟩ := List.mem_iff_getElem?.mp hf
    exact ⟨i, hm.find?_self hi⟩
  intro options
  -- the last change decides: it moves the field, or the field is as it was before that change
  induction options using List.reverseRecOn with
  | nil =>
    intro m' h
    obtain rfl : m = m' := Except.ok.inj h
    rw [aloneSince_nil, and_iff_right_iff_imp]
    exact found_of_alone_ofEntity hnames hT hname
  | append_singleton os o ih =>
    intro m' h
    rw [aloneSince_append_singleton h]
    rw [ModelOption.applyAll_append] at h
    obtain ⟨m₁, hos, h⟩ := Results.bind_eq_ok.mp h
    obtain ⟨m₂, ho, h⟩ := Results.bind_eq_ok.mp h
    obtain rfl : m₂ = m' := Except.ok.inj h
    have hm₁ := ModelOption.indexed_applyAll hm hos
    have hi₁ : m₁.byName.find? name = some i := by rw [ModelOption.byName_applyAll hm hos, hi]
    by_cases hmove : ∃ column, o = .columnName name column
    · obtain ⟨column, rfl⟩ := hmove
      simp [ModelOption.found_apply_columnName ho]
    · have hother : ∀ column, o ≠ .columnName name column :=
        fun column heq => hmove ⟨column, heq⟩
      rw [ModelOption.found_and_alone_apply hm₁ hi₁ ho hother, ih hos]
      simp [hother]

/-- Where all columns are different, every field is alone. -/
theorem alone_of_nodup (hcolumns : (m.fields.map (·.column)).Nodup) : m.Alone name := by
  intro f hf g hg hname hcolumn
  rw [← hname, List.inj_on_of_nodup_map hcolumns hg hf hcolumn]

/-- In a model with correct indexes, a field is found by its column exactly if its column leads to
it. -/
theorem Indexed.found_name_iff (hm : m.Indexed) {f : ModelField} (hf : f ∈ m.fields) :
    m.Found f.name ↔ m.fieldByColumn? f.column = some f := by
  obtain ⟨i, hi⟩ := List.mem_iff_getElem?.mp hf
  simp [Found, hm.field?_self hi]

end Model

/-- The fields of a registered model that their columns lead to. In a registered model whose fields
all have different columns, a field is found by its column exactly if no other field shared that
column with it at any time since it was stored there. -/
theorem Registry.register_fieldByColumn? (r : Registry) (T : EntityType)
    (options : List ModelOption) (shared : SharedModel) (f : ModelField)
    (hnames : (T.fields.map (·.name)).Nodup) (hregister : (r.register T options).1 = .ok shared)
    (hcolumns : (shared.model.fields.map (·.column)).Nodup) (hf : f ∈ shared.model.fields) :
    shared.model.fieldByColumn? f.column = some f ↔
      ∀ m, Model.ofEntity T = .ok m → m.AloneSince options f.name := by
  -- only a new model is registered, so the registry as it was does not matter
  obtain ⟨m, hm⟩ : ∃ m, (Model.ofEntity T >>= (ModelOption.applyAll · options)) = .ok m := by
    unfold register at hregister
    split at hregister
    · next m hm => exact ⟨m, hm⟩
    · simp at hregister
  obtain rfl : m = shared.model := by
    rw [register, hm] at hregister
    rw [← Except.ok.inj hregister]
    rfl
  obtain ⟨m₀, hT, hrun⟩ := Results.bind_eq_ok.mp hm
  have hindexed := Model.indexed_ofEntity hnames hT
  have hname : f.name ∈ m₀.fields.map (·.name) := by
    rw [← ModelOption.names_applyAll hindexed hrun]
    exact List.mem_map_of_mem hf
  rw [← (ModelOption.indexed_applyAll hindexed hrun).found_name_iff hf]
  have hiff := Model.found_and_alone_iff hnames hT hname hrun
  have halone : shared.model.Alone f.name := Model.alone_of_nodup hcolumns
  constructor
  · intro hfound m' hm'
    obtain rfl : m₀ = m' := Except.ok.inj (hT.symm.trans hm')
    exact hiff.mp ⟨hfound, halone⟩
  · exact fun hsince => (hiff.mpr (hsince m₀ hT)).1

/-- The changes that let two fields swap their columns directly. -/
def swapOptions : List ModelOption := [.columnName "id" "name", .columnName "name" "id"]

/-- The changes that let two fields swap their columns by way of a third one. -/
def detourOptions : List ModelOption :=
  [.columnName "id" "spare", .columnName "name" "id", .columnName "id" "name"]

/-- The column of the field that moved first is unknown after a direct swap. -/
theorem Registry.register_swap_forgets :
    ∃ shared f, ((EntityType.integers "User" ["id", "name"]).fields.map (·.name)).Nodup ∧
      (Registry.empty.register (.integers "User" ["id", "name"]) swapOptions).1 = .ok shared ∧
      (shared.model.fields.map (·.column)).Nodup ∧ f ∈ shared.model.fields ∧
      shared.model.fieldByColumn? f.column = none :=
  ⟨_, ⟨"id", "name", "i64", .integer, 0⟩, by decide, rfl, by decide, by decide, by decide⟩

/-- After a swap by way of a third column the field that moved first is found, and was alone in its
column since. -/
theorem Registry.register_detour :
    ∃ shared f, (Registry.empty.register (.integers "User" ["id", "name"]) detourOptions).1 =
        .ok shared ∧ f.name = "name" ∧ shared.model.fieldByColumn? f.column = some f ∧
      ∀ m, Model.ofEntity (.integers "User" ["id", "name"]) = .ok m →
        m.AloneSince detourOptions f.name :=
  ⟨_, ⟨"name", "id", "i64", .integer, 1⟩, rfl, rfl, by decide,
    (register_fieldByColumn? .empty (.integers "User" ["id", "name"]) detourOptions _
      ⟨"name", "id", "i64", .integer, 1⟩ (by decide) rfl (by decide) (by decide)).mp (by decide)⟩

end RowMapper
