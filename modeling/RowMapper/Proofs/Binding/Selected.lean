import RowMapper.Proofs.Binding.Strategies
import RowMapper.Proofs.Compile.Exposure

/-!
# Rows of selected columns

A row fails to bind with an unknown field for one reason only: it has a column under which the model
finds no field (`Binding.known_bindRow`). Values that cannot be read are failures of other kinds.

A plain select statement takes fields of its own entity under the names of their columns, or all
that the table of its entity has. The columns that it gives are columns of the model that it is
compiled with (`Select.Plain.mem_columns`), so its rows bind with that model.
-/

namespace RowMapper

variable {α β : Type}

/-! ## Failures to bind -/

namespace Results

/-- A result that is not the failure of an unknown field. -/
def Known (x : Except Error α) : Prop := ∀ field, x ≠ .error (.unknownField field)

theorem known_ok (a : α) : Known (.ok a) := nofun

/-- Whether an error is that of an unknown field does not depend on what there would be without
it. -/
theorem Known.error {e : Error} (h : Known (.error e : Except Error α)) :
    Known (.error e : Except Error β) :=
  fun field he => h field (congrArg Except.error (Except.error.inj he))

/-- A chain of steps does not fail with an unknown field if none of its steps does. -/
theorem Known.bind {x : Except Error α} {f : α → Except Error β} (hx : Known x)
    (hf : ∀ a, x = .ok a → Known (f a)) : Known (x >>= f) := by
  cases x with
  | ok a => exact hf a rfl
  | error e => exact hx.error

theorem Known.map {x : Except Error α} (hx : Known x) (f : α → β) : Known (x.map f) := by
  cases x with
  | ok a => exact known_ok (f a)
  | error e => exact hx.error

/-- Nor does a list of steps. -/
theorem known_mapM {f : α → Except Error β} : ∀ {as : List α}, (∀ a ∈ as, Known (f a)) →
    Known (as.mapM f)
  | [], _ => known_ok []
  | a :: as, h => by
    obtain ⟨ha, has⟩ := List.forall_mem_cons.mp h
    rw [List.mapM_cons]
    exact ha.bind fun b _ => (known_mapM has).bind fun bs _ => known_ok (b :: bs)

/-- A value of the wrong kind is reported with its kind, not as a field. -/
theorem known_mismatch (expected : String) (v : Value) :
    Known (.error (.mismatch expected v) : Except Error α) := by
  cases v <;> exact nofun

end Results

open Results (Known known_ok known_mismatch)

theorem known_decodeInteger (v : Value) : Known (decodeInteger v) := by
  cases v <;> first | exact known_ok _ | exact known_mismatch _ _

theorem known_decodeReal (v : Value) : Known (decodeReal v) := by
  cases v <;> first | exact known_ok _ | exact known_mismatch _ _

/-- An integer may be of the wrong kind or out of range. -/
theorem BoundedInt.known_decode (k : IntegerKind) (v : Value) : Known (decode k v) := by
  refine (known_decodeInteger v).bind fun wide _ => ?_
  split <;> exact nofun

/-- A text may be no timestamp. -/
theorem Timestamp.known_decode (v : Value) : Known (decode v) := by
  unfold decode
  split
  · split <;> exact nofun
  · exact known_mismatch _ _

/-- A text may be no date. -/
theorem Date.known_decode (v : Value) : Known (decode v) := by
  unfold decode
  split
  · split <;> exact nofun
  · exact known_mismatch _ _

/-- A text or a blob may be no identifier. -/
theorem Uuid.known_decode (v : Value) : Known (decode v) := by
  unfold decode
  split
  · split <;> exact nofun
  · split <;> exact nofun
  · exact known_mismatch _ _

/-- A text may be no such document. -/
theorem JsonShape.known_decode (shape : JsonShape) (v : Value) : Known (shape.decode v) := by
  unfold decode
  split
  · split <;> exact nofun
  · exact known_mismatch _ _

/-- A value that cannot be read is not an unknown field. -/
theorem FieldType.known_decode (t : FieldType) (v : Value) : Known (t.decode v) := by
  fun_induction FieldType.decode t v
  case case1 kind v => exact BoundedInt.known_decode kind v
  case case2 v => exact known_decodeReal v
  case case3 v => exact (known_decodeReal v).map _
  case case12 inner v _ ih => exact ih.map _
  case case13 v | case14 v => exact Timestamp.known_decode v
  case case15 v => exact Date.known_decode v
  case case16 v => exact Uuid.known_decode v
  case case17 shape v => exact shape.known_decode v
  -- the other types read values of one kind only
  case case5 | case7 | case9 => exact known_mismatch _ _
  all_goals exact known_ok _

namespace Fields

/-- A field that answers to a name can be written under it. -/
theorem known_write : ∀ {ds : List FieldDecl} (r : Fields ds) {name : String} (v : Value),
    (∃ d ∈ ds, d.answersTo name = true) → Known (r.write name v)
  | [], _, _, _, h => by simp at h
  | d :: ds, (x, xs), name, v, h => by
    rw [write]
    split
    · exact (d.type.known_decode v).map _
    · next hd =>
      obtain ⟨d', hmem, hanswers⟩ := h
      rcases List.mem_cons.mp hmem with rfl | hmem
      · exact absurd hanswers hd
      · exact (known_write xs v ⟨d', hmem, hanswers⟩).map _

end Fields

namespace Binding

variable {T : EntityType} {m : Model} (hT : T.WellFormed) (hm : m.Describes T)
include hT hm

/-- A field of the model is one of the record, under its name as at its place. -/
theorem known_assign (s : Strategy) (r : T.Record) {f : ModelField} (hf : f ∈ m.fields)
    (v : Value) : Known (assign s r f v) := by
  rw [assign_eq hT hm s r hf]
  have hname : f.name ∈ T.fields.map (·.name) := hm.names ▸ List.mem_map_of_mem hf
  obtain ⟨d, hd, hdname⟩ := List.mem_map.mp hname
  exact Fields.known_write r v ⟨d, hd, hdname ▸ Fields.answersTo_self (hT.visible d hd)⟩

/-- So it is with any number of them, up to the first that fails. -/
theorem known_assignAll (s : Strategy) : ∀ (r : T.Record) {cells : List (ModelField × Value)},
    (∀ cell ∈ cells, cell.1 ∈ m.fields) → Known (assignAll s r cells).1
  | _, [], _ => known_ok ()
  | r, (f, v) :: cells, hcells => by
    obtain ⟨hf, hcells⟩ := List.forall_mem_cons.mp hcells
    have hassign := known_assign hT hm s r hf v
    rw [assignAll]
    cases h : assign s r f v with
    | ok r' => exact known_assignAll s r' hcells
    | error e =>
      rw [h] at hassign
      exact hassign.error

/-- A row fails with an unknown field only if the model finds no field under one of its columns. -/
theorem known_bindRow (s : Strategy) {columns : List String} (values : List Value)
    (hcolumns : ∀ column ∈ columns, (m.fieldByColumn? column).isSome) :
    Known (bindRow s m T columns values) := by
  have hresolve : Known (resolveColumns m columns) := by
    unfold resolveColumns
    split
    · exact nofun
    · refine Results.known_mapM fun column hcolumn => ?_
      obtain ⟨f, hf⟩ := Option.isSome_iff_exists.mp (hcolumns column hcolumn)
      rw [hf]
      exact known_ok f
  have hset : Known (setColumns s m T.initial columns values).1 := by
    have hbind : (Except.ok () >>= fun _ => resolveColumns m columns) = resolveColumns m columns :=
      rfl
    rw [setColumns, check_eq_ok hm s, hbind]
    cases h : resolveColumns m columns with
    | error e => exact (h ▸ hresolve).error
    | ok fields =>
      refine known_assignAll hT hm s T.initial fun cell hcell => ?_
      exact resolveColumns_mem h _ (List.of_mem_zip hcell).1
  rw [bindRow]
  rcases h : setColumns s m T.initial columns values with ⟨e | _, r⟩
  · rw [h] at hset
    exact hset.error
  · exact known_ok r

end Binding

/-! ## Plain select statements -/

variable {cores : Cores} {T : EntityType} {column : String}

/-- An item that is a field of an entity, under the name of its column. -/
def Selectable.Plain (T : EntityType) : Selectable → Prop
  | .column (.mk .own _ none) => True
  | .column (.mk (.table t) _ none) => t.entity = T
  | _ => False

/-- A select statement that takes fields of its own entity under the names of their columns, or all
that the table of the entity has. -/
def Select.Plain : Select → Prop
  | .mk _ _ [] none _ _ _ _ _ _ => True
  | .mk _ T [] (some (.table t)) _ _ _ _ _ _ => t.entity = T
  | .mk _ _ [] (some _) _ _ _ _ _ _ => False
  | .mk _ T (item :: items) _ _ _ _ _ _ _ => ∀ i ∈ item :: items, i.Plain T

/-- The column of a field is one of the columns of the model. -/
theorem Model.mem_of_columnOf {m : Model} {field : String} (h : m.columnOf field = .ok column) :
    column ∈ m.fields.map (·.column) := by
  rw [columnOf] at h
  cases hf : m.field? field with
  | none => simp [hf] at h
  | some f =>
    rw [hf] at h
    exact List.mem_map.mpr ⟨f, field?_mem hf, Except.ok.inj h⟩

/-- A field under the name of its column is written as what it resolves to. -/
theorem Selectable.Outputs.resolve {scope : Scope} {q : Qualifier} {field : String}
    (h : (Selectable.column (.mk q field none)).Outputs cores scope column) :
    ∃ alias?, (q.resolve cores scope.session scope.model field).result = .ok (alias?, column) := by
  obtain ⟨ts, hts, hcolumn⟩ := h
  rw [tokens, Compiled.result_bind, Column.result_tokens] at hts
  obtain ⟨us, hus, hts⟩ := Results.bind_eq_ok.mp hts
  obtain rfl : us ++ [] = ts := Except.ok.inj hts
  rw [List.append_nil] at hcolumn
  cases hq : (q.resolve cores scope.session scope.model field).result with
  | error e => simp [Column.qualifier, Column.field, hq, Except.map] at hus
  | ok resolved =>
    simp only [Column.qualifier, Column.field, hq, Except.map, Except.ok.injEq] at hus
    rw [← hus, Scope.outputName?_qualified] at hcolumn
    exact ⟨resolved.1, by rw [← Option.some.inj hcolumn]⟩

/-- What a plain item outputs is a column of the model of its own entity. -/
theorem Selectable.Plain.mem_columns {session : String} {m : Model}
    (hm : (cores session).registry.model T = .ok m) : ∀ {i : Selectable}, i.Plain T →
      i.Outputs cores ⟨session, m⟩ column → column ∈ m.fields.map (·.column)
  | .column (.mk .own field none), _, h => by
    obtain ⟨alias?, hresolve⟩ := h.resolve
    simp only [Qualifier.resolve, Compiled.result_bind, Compiled.result_ofExcept] at hresolve
    obtain ⟨column', hcolumn, hresolve⟩ := Results.bind_eq_ok.mp hresolve
    obtain rfl : column' = column := (Prod.mk.inj (Except.ok.inj hresolve)).2
    exact Model.mem_of_columnOf hcolumn
  | .column (.mk (.table t) field none), hi, h => by
    obtain rfl : t.entity = T := hi
    obtain ⟨alias?, hresolve⟩ := h.resolve
    simp only [Qualifier.resolve, Compiled.result_bind, Compiled.result_ofExcept,
      Compiled.result_model] at hresolve
    obtain ⟨m', hm', hresolve⟩ := Results.bind_eq_ok.mp hresolve
    obtain rfl : m' = m := Except.ok.inj (hm'.symm.trans hm)
    obtain ⟨column', hcolumn, hresolve⟩ := Results.bind_eq_ok.mp hresolve
    obtain rfl : column' = column := (Prod.mk.inj (Except.ok.inj hresolve)).2
    exact Model.mem_of_columnOf hcolumn

/-- The columns of a plain select statement are those of its model. -/
theorem Select.Plain.mem_columns : ∀ {s : Select}, s.Plain → s.Outputs cores column →
    ∃ m, (cores s.session).registry.model s.entity = .ok m ∧ column ∈ m.fields.map (·.column)
  | .mk session T [] none _ _ _ _ _ _, _, h => h
  | .mk session T [] (some (.table t)) _ _ _ _ _ _, hs, h => by
    obtain rfl : t.entity = T := hs
    exact h
  | .mk session T (item :: items) _ _ _ _ _ _ _, hs, ⟨m, hm, i, hi, ts, hts, hcolumn⟩ => by
    exact ⟨m, hm, Selectable.Plain.mem_columns hm (hs i hi) ⟨ts, hts, hcolumn⟩⟩

/-- A model that finds some field under the column of each field. -/
def Model.FindsColumns (m : Model) : Prop := ∀ f ∈ m.fields, (m.fieldByColumn? f.column).isSome

/-- An index finds every name that it was made of. -/
theorem NameIndex.isSome_find?_ofNames {names : List String} {key : String} (h : key ∈ names) :
    ((ofNames names).find? key).isSome := by
  induction names using List.reverseRecOn with
  | nil => simp at h
  | append_singleton names name ih =>
    rw [ofNames_append, find?_insert]
    split
    · rfl
    · next hne => exact ih (by simpa [hne] using h)

/-- A default model finds a field under each of its columns. -/
theorem Model.findsColumns_ofFields (tableName : String) (fields : List ModelField)
    (owner : EntityType) : (ofFields tableName fields owner).FindsColumns := by
  intro f (hf : f ∈ fields)
  obtain ⟨i, hi⟩ := Option.isSome_iff_exists.mp
    (NameIndex.isSome_find?_ofNames (List.mem_map_of_mem (f := (·.column)) hf))
  have hplace := (NameIndex.find?_ofNames.mp hi).1
  rw [List.getElem?_map, Option.map_eq_some_iff] at hplace
  obtain ⟨g, hg, -⟩ := hplace
  have hfound : (ofFields tableName fields owner).fieldByColumn? f.column = some g := by
    show ((NameIndex.ofNames (fields.map (·.column))).find? f.column).bind (fields[·]?) = some g
    rw [hi, Option.bind_some, hg]
  rw [hfound]
  rfl

/-- Default models find all columns, also if fields share one. -/
theorem Model.findsColumns_ofEntity {m : Model} (h : ofEntity T = .ok m) : m.FindsColumns := by
  obtain ⟨-, fields, -, rfl⟩ := ofEntity_eq_ok h
  exact findsColumns_ofFields _ _ _

/-- A row whose columns a plain select statement gives does not fail with an unknown field, if it is
bound with the model that the statement is compiled with. -/
theorem Select.Plain.known_bindRow {s : Select} (hs : s.Plain) {m : Model}
    (hm : (cores s.session).registry.model s.entity = .ok m) (hT : s.entity.WellFormed)
    (hmade : m.MadeFrom s.entity) (hfinds : m.FindsColumns) (strategy : Strategy)
    {columns : List String} (hcolumns : ∀ column ∈ columns, s.Outputs cores column)
    (values : List Value) : Known (Binding.bindRow strategy m s.entity columns values) := by
  refine Binding.known_bindRow hT hmade.describes strategy values fun column hcolumn => ?_
  obtain ⟨m', hm', hmem⟩ := hs.mem_columns (hcolumns column hcolumn)
  obtain rfl : m' = m := Except.ok.inj (hm'.symm.trans hm)
  obtain ⟨f, hf, rfl⟩ := List.mem_map.mp hmem
  exact hfinds f hf

end RowMapper
