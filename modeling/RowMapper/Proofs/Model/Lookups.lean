import RowMapper.Proofs.Model.Precedence
import RowMapper.Proofs.Model.Sharing

/-!
# Lookups in a model

Options may move fields to columns that other fields have, and some of them may fail. On the way the
column index loses entries, so a column may find nothing although a field is stored in it. What a
lookup does find is never wrong (`Model.Truthful`).

Whoever goes on after an option that failed still has the model as it was before that option
(`ModelOption.leaveAll`). Whether an option fails depends on the names of the fields alone, and no
option changes those. So to pass over the options that fail is to leave them out from the start
(`ModelOption.applyAll_faultless`), and every model on the way is one that options without a failure
make from the declaration. `Registry.lookups_truthful` says this of such models, and of every model
that a registry hands out.
-/

namespace RowMapper

/-- The fields of a model are those of a declaration, and its lookups are true of them. -/
structure Model.Truthful (m : Model) (T : EntityType) : Prop where
  /-- At every place is the declared field of that place, with its name, its types and its place, in
  some column; there are no other fields. -/
  fields : ∀ i : ℕ, ∃ column, m.fields[i]? = T.fields[i]?.map (·.stored i column)
  /-- A declared name finds the field of this name, the one at the place of the declaration. -/
  declared : ∀ (i : ℕ) (d : FieldDecl), T.fields[i]? = some d →
    ∃ f, m.field? d.name = some f ∧ f.name = d.name ∧ m.fields[i]? = some f
  /-- Any other name finds nothing. -/
  undeclared : ∀ name, name ∉ T.fields.map (·.name) → m.field? name = none
  /-- What a column finds is a field that is stored in it. -/
  byColumn : ∀ column f, m.fieldByColumn? column = some f → f ∈ m.fields ∧ f.column = column
  /-- No index leads beyond the fields. -/
  within : ∀ (key : String) (i : ℕ),
    m.byName.find? key = some i ∨ m.byColumn.find? key = some i → i < m.fields.length
  /-- A declared field can be moved to any column, also to one of another field, and is what this
  column finds then. -/
  moved : ∀ name ∈ T.fields.map (·.name), ∀ column, ∃ m' f,
    (ModelOption.columnName name column).apply m = .ok m' ∧
      m'.field? name = some f ∧ f.column = column ∧ m'.fieldByColumn? column = some f

/-! ## Options that fail -/

namespace ModelOption

/-- The model that an option leaves. An option that fails has not touched it. -/
def leave (m : Model) (o : ModelOption) : Model :=
  match o.apply m with
  | .ok m' => m'
  | .error _ => m

/-- The model that options leave one after the other, whichever of them fail. -/
def leaveAll (m : Model) (options : List ModelOption) : Model := options.foldl leave m

variable {m m' : Model} {o : ModelOption} {options : List ModelOption}

theorem leave_of_ok (h : o.apply m = .ok m') : leave m o = m' := by
  rw [leave, h]

theorem leave_of_error {e : Error} (h : o.apply m = .error e) : leave m o = m := by
  rw [leave, h]

/-- Options of which none fails leave the model that they make. -/
theorem leaveAll_of_ok (h : applyAll m options = .ok m') : leaveAll m options = m' := by
  induction options generalizing m with
  | nil => exact Except.ok.inj h
  | cons o os ih =>
    obtain ⟨m₁, ho, hos⟩ := Results.bind_eq_ok.mp h
    rw [leaveAll, List.foldl_cons, leave_of_ok ho]
    exact ih hos

/-- The options without a failure make the model that all options leave. -/
theorem applyAll_faultless (hm : m.Indexed) (options : List ModelOption) :
    applyAll m (options.filter fun o => (o.fault? (m.fields.map (·.name))).isNone) =
      .ok (leaveAll m options) := by
  induction options generalizing m with
  | nil => rfl
  | cons o os ih =>
    have hfault := errorOf_apply hm o
    rw [List.filter_cons, leaveAll, List.foldl_cons, ← hfault]
    cases ho : o.apply m with
    | error e =>
      rw [leave_of_error ho]
      exact ih hm
    | ok m₁ =>
      -- the rest is filtered by the same names, since the option keeps them
      rw [leave_of_ok ho, ← names_apply hm ho]
      exact Results.bind_eq_ok.mpr ⟨m₁, ho, ih (indexed_apply hm ho)⟩

/-- Every model that options leave is made from the declaration. -/
theorem madeFrom_leaveAll {T : EntityType} (hnames : (T.fields.map (·.name)).Nodup)
    (hT : Model.ofEntity T = .ok m) (options : List ModelOption) :
    (leaveAll m options).MadeFrom T :=
  ⟨_, Results.bind_eq_ok.mpr
    ⟨m, hT, applyAll_faultless (Model.indexed_ofEntity hnames hT) options⟩⟩

end ModelOption

/-! ## Models of a declaration -/

theorem EntityType.getElem?_fieldsWith (T : EntityType) (options : List ModelOption) (i : ℕ) :
    (T.fieldsWith options)[i]? = T.fields[i]?.map fun d => d.stored i (d.columnWith options) := by
  simp [fieldsWith, List.getElem?_map, List.getElem?_zipIdx, Function.comp_def]

namespace Model

variable {m : Model} {T : EntityType} {options : List ModelOption}

/-- The lookups of a model with declared fields are true if its indexes are those of its fields. -/
theorem Indexed.truthful (hm : m.Indexed) (hfields : m.fields = T.fieldsWith options) :
    m.Truthful T where
  fields i := by
    rw [hfields, T.getElem?_fieldsWith]
    cases T.fields[i]? with
    | none => exact ⟨"", rfl⟩
    | some d => exact ⟨d.columnWith options, rfl⟩
  declared i d hd := by
    have hf : m.fields[i]? = some (d.stored i (d.columnWith options)) := by
      rw [hfields, T.getElem?_fieldsWith, hd, Option.map_some]
    exact ⟨_, hm.field?_self hf, rfl, hf⟩
  undeclared name hname := by
    rw [← T.names_fieldsWith options, ← hfields] at hname
    refine Option.eq_none_iff_forall_ne_some.mpr fun f hf => hname ?_
    obtain ⟨i, hi, rfl⟩ := hm.field?_eq_some.mp hf
    exact List.mem_map_of_mem (List.mem_of_getElem? hi)
  byColumn column f hf := ⟨fieldByColumn?_mem hf, hm.column_eq hf⟩
  within key i hi := by
    obtain ⟨f, hf⟩ : ∃ f, m.fields[i]? = some f := by
      -- either index leads to a place that there is
      obtain hname | hcolumn := hi
      · exact (hm.byName.mp hname).imp fun _ => And.left
      · exact (hm.byColumn hcolumn).imp fun _ => And.left
    exact (List.getElem?_eq_some_iff.mp hf).1
  moved name hname column := by
    rw [← T.names_fieldsWith options, ← hfields] at hname
    have hfault := ModelOption.errorOf_apply hm (.columnName name column)
    rw [ModelOption.fault?, if_pos hname, Results.errorOf_eq_none] at hfault
    obtain ⟨m', hm'⟩ := hfault
    obtain ⟨f, hf⟩ := ModelOption.fieldByColumn?_apply_columnName hm'
    exact ⟨m', f, hm', hf⟩

theorem MadeFrom.truthful (h : m.MadeFrom T) (hnames : (T.fields.map (·.name)).Nodup) :
    m.Truthful T := by
  have hm := h.indexed hnames
  obtain ⟨options, hmade⟩ := h
  exact hm.truthful ((EntityType.applyAll_ofEntity hnames options).2 m hmade).2

end Model

/-! ## Models that are handed out -/

namespace Registry

theorem Operation.madeFrom_of_made {o : Operation} {m : Model} (h : o.made = .ok m) :
    m.MadeFrom o.entity := by
  cases o with
  | get T => exact Model.madeFrom_ofEntity h
  | register T options => exact ⟨options, h⟩

/-- One step: where every shared model is made from the declaration of its type, an operation hands
out such a model, if any, and leaves it so. -/
theorem Sound.apply {r : Registry} (hr : r.Sound) (o : Operation) :
    (o.apply r).2.Sound ∧
      ∀ shared, (o.apply r).1 = .ok shared → shared.model.MadeFrom o.entity := by
  have ho := o.outcome r
  generalize o.apply r = p at ho ⊢
  cases ho with
  | found found hreuses hlookup =>
    refine ⟨hr, fun shared h => ?_⟩
    obtain rfl := Except.ok.inj h
    exact hr.lookup? hlookup
  | made m hnone hmade =>
    have hm := Operation.madeFrom_of_made hmade
    refine ⟨hr.replace hm, fun shared h => ?_⟩
    obtain rfl := Except.ok.inj h
    exact hm
  | failed e hnone hmade => exact ⟨hr, nofun⟩

/-- Every model that a run hands out is made from the declaration of its type. -/
theorem Sound.run {r : Registry} (hr : r.Sound) (os : List Operation) :
    ∀ h ∈ handed (r.run os).1, h.2.model.MadeFrom h.1 := by
  induction os generalizing r with
  | nil => simp [Registry.run, handed]
  | cons o os ih =>
    obtain ⟨hsound, hmade⟩ := hr.apply o
    intro h hmem
    rw [run_cons, handed, List.filterMap_cons] at hmem
    cases hanswer : (o.apply r).1 with
    | error e =>
      rw [hanswer] at hmem
      exact ih hsound h hmem
    | ok shared =>
      rw [hanswer] at hmem
      rcases List.mem_cons.mp hmem with rfl | hmem
      · exact hmade shared hanswer
      · exact ih hsound h hmem

/-- Lookups never give a wrong field. That is so of every model that options leave on their way from
the default model, to whichever columns they moved fields and whichever of them failed. A
registration shares the model that its options leave, or it fails and the registry is as it was. And
whatever a registry was asked for and was to register, lookups in the models that it hands out are
true. -/
theorem lookups_truthful (T : EntityType) (hnames : (T.fields.map (·.name)).Nodup) :
    (∀ (m : Model) (options : List ModelOption), Model.ofEntity T = .ok m →
      (ModelOption.leaveAll m options).Truthful T) ∧
    (∀ (r : Registry) (options : List ModelOption),
      (∃ m shared, Model.ofEntity T = .ok m ∧ (r.register T options).1 = .ok shared ∧
        shared.model = ModelOption.leaveAll m options) ∨
      ∃ e, r.register T options = (.error e, r)) ∧
    ∀ (operations : List Operation) (shared : SharedModel),
      (T, shared) ∈ handed (empty.run operations).1 → shared.model.Truthful T := by
  refine ⟨fun m options hT => ?_, fun r options => ?_, fun operations shared hmem => ?_⟩
  · exact (ModelOption.madeFrom_leaveAll hnames hT options).truthful hnames
  · cases hmade : Model.ofEntity T >>= (ModelOption.applyAll · options) with
    | error e => exact .inr ⟨e, register_of_error hmade⟩
    | ok m' =>
      obtain ⟨m, hT, happly⟩ := Results.bind_eq_ok.mp hmade
      rw [register_of_ok hmade]
      exact .inl ⟨m, _, hT, rfl, (ModelOption.leaveAll_of_ok happly).symm⟩
  · exact (sound_empty.run operations _ hmem).truthful hnames

/-- A receipt: two of its fields have one default column. -/
def receipt : EntityType := .integers "Receipt" ["id", "total", "Total"]

/-- Options that move a field to the column of two others and then one of these away, with two
failures in between. -/
def receiptOptions : List ModelOption :=
  [.columnName "id" "total", .columnName "sum" "total", .fail (.unknown "full"), .tableName "paid",
    .columnName "Total" "id"]

/-- Lookups in receipts. Under all of the options the field that moved last is found in its column,
and the column that the other two are stored in finds nothing. A registry that refused these options
hands out the model that it had. -/
theorem lookups_truthful_receipt :
    (receipt.fields.map (·.name)).Nodup ∧
    (∃ m, Model.ofEntity receipt = .ok m ∧
      (ModelOption.leaveAll m receiptOptions).Truthful receipt ∧
      (ModelOption.leaveAll m receiptOptions).fields.map (·.column) = ["total", "total", "id"] ∧
      (ModelOption.leaveAll m receiptOptions).fieldByColumn? "id" =
        some ⟨"Total", "id", "i64", .integer, 2⟩ ∧
      (ModelOption.leaveAll m receiptOptions).fieldByColumn? "total" = none) ∧
    ∃ shared, (receipt, shared) ∈ handed (empty.run [.register receipt [.columnName "id" "total"],
        .register receipt receiptOptions, .get receipt]).1 ∧
      shared.model.Truthful receipt ∧
      shared.model.fieldByColumn? "total" = some ⟨"id", "total", "i64", .integer, 0⟩ := by
  obtain ⟨hleft, -, hgiven⟩ := lookups_truthful receipt (by decide)
  have hmem : (receipt, _) ∈ handed (empty.run [.register receipt [.columnName "id" "total"],
      .register receipt receiptOptions, .get receipt]).1 := List.mem_cons_self
  refine ⟨by decide, ⟨_, rfl, hleft _ receiptOptions rfl, by decide, by decide, by decide⟩, ?_⟩
  exact ⟨_, hmem, hgiven _ _ hmem, by decide⟩

end Registry

end RowMapper
