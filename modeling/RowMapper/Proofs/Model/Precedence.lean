import RowMapper.Proofs.Model.Declared
import RowMapper.Proofs.Model.Renaming
import RowMapper.Proofs.Model.Tags

/-!
# Precedence of names

The names of a model come from several places. A column is the one that the last option for its
field gives, else the last one that the tag of the field gives, if that is not empty, else the
default name of the field. A table is named by the last option for it, else by its entity type, else
by the default name of the entity type.

`Registry.register_namedBy` says that this is the model that a registration makes, and which failure
it makes otherwise. Of the failures the first one counts: the declaration may be no record, then
come the tags in the order of the fields, then the options in their order. The induction is on the
list of options; one step of it are `ModelOption.errorOf_apply` and `ModelOption.names_of_apply`.
-/

namespace RowMapper

/-! ## What the parts say -/

namespace FieldDecl

/-- The column of a field that no option moves. -/
def taggedColumn (f : FieldDecl) : String :=
  ((Tag.values Tag.columnKey f.tag).getLast?.filter (!·.isEmpty)).getD (underscoreName f.name)

/-- The field of a model that is stored in a column. -/
def stored (f : FieldDecl) (index : ℕ) (column : String) : ModelField :=
  ⟨f.name, column, f.typeName, f.columnType, index⟩

end FieldDecl

namespace ModelOption

/-- The table that an option names. -/
def table? : ModelOption → Option String
  | tableName name => some name
  | _ => none

/-- The column that an option gives a field. -/
def columnFor? (field : String) : ModelOption → Option String
  | columnName field' column => if field' = field then some column else none
  | _ => none

/-- The failure of an option for fields with some names. -/
def fault? (names : List String) : ModelOption → Option Error
  | tableName _ => none
  | columnName field _ => if field ∈ names then none else some (.unknownField field)
  | fail e => some e

end ModelOption

/-- The column of a field that is registered with options. -/
def FieldDecl.columnWith (f : FieldDecl) (options : List ModelOption) : String :=
  (options.filterMap (ModelOption.columnFor? f.name)).getLast?.getD f.taggedColumn

namespace EntityType

/-- The first failure of a registration: the declaration is no record, a tag cannot be read, or an
option fails. -/
def registrationFault? (T : EntityType) (options : List ModelOption) : Option Error :=
  if T.shape = .record then
    (T.fields.findSome? fun f => Tag.fault? f.tag).or
      (options.findSome? (·.fault? (T.fields.map (·.name))))
  else some (.notARecord T.name)

/-- The table of an entity type that is registered with options. -/
def tableWith (T : EntityType) (options : List ModelOption) : String :=
  (options.filterMap ModelOption.table?).getLast?.getD (T.tableName.getD (underscoreName T.name))

/-- The fields of an entity type that is registered with options. -/
def fieldsWith (T : EntityType) (options : List ModelOption) : List ModelField :=
  T.fields.zipIdx.map fun e => e.1.stored e.2 (e.1.columnWith options)

/-- A result of asking for the model of an entity type is the first failure, or has the names that
take precedence. -/
structure NamedBy (T : EntityType) (options : List ModelOption) (x : Except Error SharedModel) :
    Prop where
  succeeds : (∃ shared, x = .ok shared) ↔ T.shape = .record ∧
    (∀ f ∈ T.fields, ∀ piece ∈ Tag.pieces f.tag, piece.count '=' = 1) ∧
    ∀ o ∈ options, o.fault? (T.fields.map (·.name)) = none
  fails : ∀ e, x = .error e ↔ T.registrationFault? options = some e
  table : ∀ shared, x = .ok shared → shared.model.tableName = T.tableWith options
  fields : ∀ shared, x = .ok shared → shared.model.fields = T.fieldsWith options

end EntityType

/-! ## Default models -/

namespace Model

theorem defaultColumn_eq (f : FieldDecl) : defaultColumn f =
    match Tag.fault? f.tag with
    | some e => .error e
    | none => .ok f.taggedColumn := by
  rw [defaultColumn, Tag.pairs_eq]
  cases Tag.fault? f.tag with
  | some e => rfl
  | none =>
    simp only [bind, Except.bind, Tag.lookup?_eq, FieldDecl.taggedColumn]
    cases (Tag.values Tag.columnKey f.tag).getLast? with
    | none => rfl
    | some column => cases h : column.isEmpty <;> simp [h, Option.filter_some, pure, Except.pure]

theorem defaultFields_eq : ∀ (index : ℕ) (fs : List FieldDecl), defaultFields index fs =
    match fs.findSome? fun f => Tag.fault? f.tag with
    | some e => .error e
    | none => .ok ((fs.zipIdx index).map fun e => e.1.stored e.2 e.1.taggedColumn)
  | _, [] => rfl
  | index, f :: fs => by
    rw [defaultFields, defaultColumn_eq, List.findSome?_cons]
    cases Tag.fault? f.tag with
    | some e => rfl
    | none =>
      simp only [bind, Except.bind, defaultFields_eq (index + 1) fs]
      cases fs.findSome? fun f => Tag.fault? f.tag <;> rfl

/-- The default model of an entity type, or the first thing that is wrong with its declaration. -/
theorem ofEntity_eq (T : EntityType) : ofEntity T =
    match T.registrationFault? [] with
    | some e => .error e
    | none => .ok (ofFields (T.tableWith []) (T.fieldsWith []) T) := by
  rw [ofEntity, EntityType.registrationFault?]
  by_cases hshape : T.shape = .record
  · rw [if_pos hshape, if_pos hshape, defaultFields_eq]
    cases T.fields.findSome? fun f => Tag.fault? f.tag with
    | some e => rfl
    | none => rfl
  · rw [if_neg hshape, if_neg hshape]

end Model

/-! ## Options -/

namespace ModelOption

variable {m m' : Model} {o : ModelOption}

/-- An option fails on fields with some names, or it does not. -/
theorem errorOf_apply (hm : m.Indexed) (o : ModelOption) :
    Results.errorOf (o.apply m) = o.fault? (m.fields.map (·.name)) := by
  cases o with
  | tableName name => rfl
  | fail e => rfl
  | columnName name column =>
    rw [apply, Model.renameColumn, fault?]
    cases hi : m.byName.find? name with
    | none =>
      have hmem : name ∉ m.fields.map (·.name) := by
        rintro hmem
        obtain ⟨f, hf, rfl⟩ := List.mem_map.mp hmem
        obtain ⟨i, hf⟩ := List.mem_iff_getElem?.mp hf
        simp [hm.find?_self hf] at hi
      rw [if_neg hmem]
      rfl
    | some i =>
      obtain ⟨f, hf, rfl⟩ := hm.byName.mp hi
      rw [if_pos (List.mem_map_of_mem (List.mem_of_getElem? hf))]
      simp only [hf]
      rfl

theorem tableName_renameColumn {name column : String} (h : m.renameColumn name column = .ok m') :
    m'.tableName = m.tableName := by
  unfold Model.renameColumn at h
  split at h
  · simp at h
  · split at h
    · simp at h
    · rw [← Except.ok.inj h]

/-- One step: an option that does not fail changes the names that it is about, and no others. -/
theorem names_of_apply (hm : m.Indexed) (h : o.apply m = .ok m') :
    m'.tableName = o.table?.getD m.tableName ∧
      m'.fields = m.fields.map fun f =>
        { f with column := (o.columnFor? f.name).getD f.column } := by
  obtain ⟨name, rfl, rfl⟩ | ⟨i, f, column, rfl, hrenamed⟩ := apply_cases hm h
  · exact ⟨rfl, (List.map_id _).symm⟩
  · refine ⟨tableName_renameColumn h, List.ext_getElem? fun j => ?_⟩
    rw [hrenamed.fields, List.getElem?_map]
    split
    · next hj => simp [hj, hrenamed.field, columnFor?]
    · next hj =>
      cases hg : m.fields[j]? with
      | none => rfl
      | some g =>
        have hother : f.name ≠ g.name := by
          intro hname
          have hi := hm.find?_self hrenamed.field
          rw [hname, hm.find?_self hg] at hi
          exact hj (Option.some.inj hi)
        simp [columnFor?, hother]

/-- The first failure of options in order. -/
theorem errorOf_applyAll (hm : m.Indexed) (options : List ModelOption) :
    Results.errorOf (applyAll m options) =
      options.findSome? (·.fault? (m.fields.map (·.name))) := by
  induction options generalizing m with
  | nil => rfl
  | cons o os ih =>
    have hfault := errorOf_apply hm o
    rw [List.findSome?_cons, ← hfault, applyAll]
    cases ho : o.apply m with
    | error e => rfl
    | ok m₁ =>
      rw [← names_apply hm ho]
      exact ih (indexed_apply hm ho)

/-- After options in order, the last one about a name counts. -/
theorem names_of_applyAll (hm : m.Indexed) {options : List ModelOption}
    (h : applyAll m options = .ok m') :
    m'.tableName = (options.filterMap table?).getLast?.getD m.tableName ∧
      m'.fields = m.fields.map fun f =>
        { f with column := (options.filterMap (columnFor? f.name)).getLast?.getD f.column } := by
  induction options generalizing m with
  | nil =>
    obtain rfl := Except.ok.inj h
    exact ⟨rfl, (List.map_id _).symm⟩
  | cons o os ih =>
    obtain ⟨m₁, ho, hos⟩ := Results.bind_eq_ok.mp h
    -- a later option takes precedence, so the last one counts
    obtain ⟨htable, hfields⟩ := names_of_apply hm ho
    obtain ⟨htable', hfields'⟩ := ih (indexed_apply hm ho) hos
    refine ⟨?_, ?_⟩
    · rw [htable', htable, List.filterMap_cons]
      cases o.table? <;> simp [List.getLast?_cons]
    · rw [hfields', hfields, List.map_map]
      refine List.map_congr_left fun f _ => ?_
      rw [List.filterMap_cons]
      cases ho : o.columnFor? f.name <;> simp [ho, List.getLast?_cons]

end ModelOption

/-! ## Registrations -/

namespace EntityType

variable {T : EntityType} {options : List ModelOption}

/-- The failures of a declaration come before those of options. -/
theorem registrationFault?_eq (T : EntityType) (options : List ModelOption) :
    T.registrationFault? options = (T.registrationFault? []).or
      (options.findSome? (·.fault? (T.fields.map (·.name)))) := by
  unfold registrationFault?
  split
  · rw [List.findSome?_nil, Option.or_none]
  · rfl

theorem registrationFault?_eq_none : T.registrationFault? options = none ↔ T.shape = .record ∧
    (∀ f ∈ T.fields, ∀ piece ∈ Tag.pieces f.tag, piece.count '=' = 1) ∧
    ∀ o ∈ options, o.fault? (T.fields.map (·.name)) = none := by
  unfold registrationFault?
  split
  · next h => simp [h, Tag.fault?_eq_none]
  · next h => simp [h]

theorem names_fieldsWith (T : EntityType) (options : List ModelOption) :
    (T.fieldsWith options).map (·.name) = T.fields.map (·.name) := by
  calc (T.fieldsWith options).map (·.name)
      = (T.fields.zipIdx.map Prod.fst).map (·.name) := by
        rw [fieldsWith, List.map_map, List.map_map]
        rfl
    _ = T.fields.map (·.name) := by rw [List.zipIdx_map_fst]

/-- The model of an entity type with options has the names that take precedence, or there is a first
failure. -/
theorem applyAll_ofEntity (hnames : (T.fields.map (·.name)).Nodup) (options : List ModelOption) :
    Results.errorOf (Model.ofEntity T >>= (ModelOption.applyAll · options)) =
        T.registrationFault? options ∧
      ∀ m, (Model.ofEntity T >>= (ModelOption.applyAll · options)) = .ok m →
        m.tableName = T.tableWith options ∧ m.fields = T.fieldsWith options := by
  rw [registrationFault?_eq]
  have hT := Model.ofEntity_eq T
  cases hfault : T.registrationFault? [] with
  | some e =>
    rw [hfault] at hT
    rw [hT]
    exact ⟨rfl, nofun⟩
  | none =>
    rw [hfault] at hT
    have hm := Model.indexed_ofEntity hnames hT
    rw [hT, Option.none_or, ← T.names_fieldsWith []]
    refine ⟨ModelOption.errorOf_applyAll hm options, fun m h => ?_⟩
    -- the default columns are those that tags and names give, before any option
    obtain ⟨htable, hfields⟩ := ModelOption.names_of_applyAll hm h
    refine ⟨htable, hfields.trans ?_⟩
    show (T.fieldsWith []).map _ = _
    rw [fieldsWith, List.map_map]
    rfl

end EntityType

/-- The names of a model take precedence over one another: in a registration the last option counts,
then the tag of the field or the table of the entity type, then the default name. A registration
succeeds exactly if the declaration is a record, every tag can be read and every option names a
field, and otherwise fails with the first that is not so. To ask for the model of an entity type
that was not registered with options is to register it without. -/
theorem Registry.register_namedBy (r : Registry) (T : EntityType) (options : List ModelOption)
    (hnames : (T.fields.map (·.name)).Nodup) :
    T.NamedBy options (r.register T options).1 ∧
      ((∀ shared, r.lookup? T = some shared → Model.ofEntity T = .ok shared.model) →
        T.NamedBy [] (r.get T).1) := by
  -- a registration and a lookup both make a model with options, and differ in these only
  have hnamed : ∀ {options : List ModelOption} {x : Except Error SharedModel},
      x.map (·.model) = (Model.ofEntity T >>= (ModelOption.applyAll · options)) →
        T.NamedBy options x := by
    intro options x hx
    obtain ⟨hfault, hnames⟩ := EntityType.applyAll_ofEntity hnames options
    rw [← hx] at hfault hnames
    have herror : Results.errorOf x = T.registrationFault? options := by
      rw [← hfault]
      cases x <;> rfl
    refine ⟨?_, fun e => ?_, fun shared h => ?_, fun shared h => ?_⟩
    · rw [← Results.errorOf_eq_none, herror, EntityType.registrationFault?_eq_none]
    · rw [← Results.errorOf_eq_some, herror]
    · exact (hnames shared.model (by rw [h]; rfl)).1
    · exact (hnames shared.model (by rw [h]; rfl)).2
  refine ⟨hnamed ?_, fun hplain => hnamed ?_⟩
  · cases hm : Model.ofEntity T >>= (ModelOption.applyAll · options) with
    | ok m => rw [register_of_ok hm]; rfl
    | error e => rw [register_of_error hm]; rfl
  · have hnone : (Model.ofEntity T >>= (ModelOption.applyAll · [])) = Model.ofEntity T := by
      cases Model.ofEntity T <;> rfl
    rw [hnone, r.get_eq_model, model]
    cases h : r.lookup? T with
    | some shared => exact (hplain shared h).symm
    | none => rfl

/-- A guest book: one column has a name of its own in a tag, another one an empty name. -/
def guestBook : EntityType :=
  { path := "GuestBook", name := "GuestBook", shape := .record, tableName := some "guests"
    fields := [.int64 "id", .ofWritten "signedBy" (some "column=a,size=9, column = guest ")
        (.simple "String") .text,
      .ofWritten "homeTown" (some "column=") (.simple "String") .text] }

/-- Options that name a table and a column twice. -/
def guestBookOptions : List ModelOption :=
  [.columnName "id" "number", .tableName "visits", .columnName "id" "entry", .tableName "archive"]

/-- The guest book in a registration with options, and asked for without. -/
theorem Registry.register_namedBy_guestBook :
    (∃ shared, (empty.register guestBook guestBookOptions).1 = .ok shared ∧
      shared.model.tableName = "archive" ∧
      shared.model.fields.map (·.column) = ["entry", "guest", "home_town"]) ∧
    ∃ shared, (empty.get guestBook).1 = .ok shared ∧ shared.model.tableName = "guests" ∧
      shared.model.fields.map (·.column) = ["id", "guest", "home_town"] := by
  obtain ⟨hregistered, hgiven⟩ :=
    register_namedBy .empty guestBook guestBookOptions (by decide)
  have hgiven := hgiven nofun
  constructor
  · obtain ⟨shared, h⟩ := hregistered.succeeds.mpr ⟨rfl, by decide, by decide⟩
    exact ⟨shared, h, hregistered.table shared h, by rw [hregistered.fields shared h]; decide⟩
  · obtain ⟨shared, h⟩ := hgiven.succeeds.mpr ⟨rfl, by decide, by decide⟩
    exact ⟨shared, h, hgiven.table shared h, by rw [hgiven.fields shared h]; decide⟩

end RowMapper
