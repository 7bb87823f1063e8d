import RowMapper.Proofs.Binding.Selected
import RowMapper.Proofs.Sql.Assignments

/-!
# What binding a row changes

Writing a value to a field either fails and changes nothing, or replaces the entry of that field and
no other (`Fields.writeAt?_entries`). `Binding.Written` says what is left of this when the values of
a row are written one after the other: those before the first that cannot be decoded are in their
fields, of several for one field the last one, and all other fields hold what they held.

`Binding.setColumns_writes` says it of a whole row. Nothing is written at all if there are too many
columns, or one of them belongs to no field.
-/

namespace RowMapper

/-! ## One field -/

namespace Fields

@[simp]
theorem length_entries {fs : List FieldDecl} (r : Fields fs) : r.entries.length = fs.length := by
  simpa using congrArg List.length r.map_decl_entries

/-- A record is what its fields hold. -/
theorem entries_injective : ∀ {fs : List FieldDecl}, Function.Injective (@entries fs)
  | [], _, _, _ => rfl
  | f :: fs, (x, xs), (y, ys), h => by
    obtain ⟨hhead, hrest⟩ := List.cons.inj h
    obtain rfl : x = y := by simpa using hhead
    rw [entries_injective hrest]

/-- A value that cannot be decoded fails, and one that can replaces the entry at its place. -/
theorem writeAt?_entries : ∀ {fs : List FieldDecl} (r : Fields fs) {i : ℕ} {d : FieldDecl},
    fs[i]? = some d → ∀ v, (∃ e, d.type.decode v = .error e ∧ r.writeAt? i v = some (.error e)) ∨
      ∃ x r', d.type.decode v = .ok x ∧ r.writeAt? i v = some (.ok r') ∧
        r'.entries = r.entries.set i ⟨d, x⟩
  | [], _, i, d, hd, _ => by simp at hd
  | f :: fs, (y, ys), 0, d, hd, v => by
    obtain rfl : f = d := by simpa using hd
    rw [writeAt?]
    cases hv : f.type.decode v with
    | error e => exact .inl ⟨e, rfl, rfl⟩
    | ok x => exact .inr ⟨x, (x, ys), rfl, rfl, rfl⟩
  | f :: fs, (y, ys), i + 1, d, hd, v => by
    have hd : fs[i]? = some d := by simpa using hd
    rw [writeAt?]
    obtain ⟨e, he, hwrite⟩ | ⟨x, r', hx, hwrite, hentries⟩ := writeAt?_entries ys hd v <;>
      rw [hwrite]
    · exact .inl ⟨e, he, rfl⟩
    · exact .inr ⟨x, (y, r'), hx, rfl, congrArg (List.cons (⟨f, y⟩ : FieldValue)) hentries⟩

end Fields

/-! ## The values of a row -/

namespace Binding

/-- The value of a cell is decoded to what the field of the cell holds. -/
def Decodes (T : EntityType) (cell : ModelField × Value) (e : FieldValue) : Prop :=
  T.fields[cell.1.index]? = some e.decl ∧ e.decl.type.decode cell.2 = .ok e.held

/-- The value of a cell cannot be decoded for its field. -/
def Refuses (T : EntityType) (cell : ModelField × Value) (e : Error) : Prop :=
  ∃ d, T.fields[cell.1.index]? = some d ∧ d.type.decode cell.2 = .error e

/-- What writing cells one after the other leaves of a record, and with which result: the first
cells are decoded, up to the end or the first that cannot be, and every field holds the last value
that was decoded for it, or what it held before. -/
structure Written {T : EntityType} (r : T.Record) (cells : List (ModelField × Value))
    (decoded : List FieldValue) (result : Except Error Unit) (r' : T.Record) : Prop where
  decodes : List.Forall₂ (Decodes T) (cells.take decoded.length) decoded
  ends : decoded.length = cells.length ∧ result = .ok () ∨
    ∃ cell e, cells[decoded.length]? = some cell ∧ Refuses T cell e ∧ result = .error e
  holds : ∀ i, r'.entries[i]? =
    (((cells.zip decoded).filter (·.1.1.index = i)).getLast?.map Prod.snd).or r.entries[i]?

variable {T : EntityType} {m : Model}

/-- Cells of a model's fields are written by place, one after the other. -/
theorem written_assignAll : ∀ {cells : List (ModelField × Value)},
    (∀ cell ∈ cells, ∃ d, T.fields[cell.1.index]? = some d) → ∀ r : T.Record, ∃ decoded,
      Written r cells decoded (assignAll .byPlace r cells).1 (assignAll .byPlace r cells).2
  | [], _, r => ⟨[], .nil, .inl ⟨rfl, rfl⟩, fun _ => rfl⟩
  | (f, v) :: cells, hcells, r => by
    obtain ⟨⟨d, hd⟩, hcells⟩ := List.forall_mem_cons.mp hcells
    rw [assignAll, assign]
    obtain ⟨e, he, hwrite⟩ | ⟨x, r₁, hx, hwrite, hentries⟩ := r.writeAt?_entries hd v <;>
      rw [hwrite, Option.getD_some]
    -- a cell that cannot be decoded is the last one that is tried
    · exact ⟨[], .nil, .inr ⟨(f, v), e, rfl, ⟨d, hd, he⟩, rfl⟩, fun _ => rfl⟩
    · obtain ⟨decoded, hrest⟩ := written_assignAll hcells r₁
      refine ⟨⟨d, x⟩ :: decoded, .cons ⟨hd, hx⟩ hrest.decodes, ?_, fun i => ?_⟩
      · simpa using hrest.ends
      · dsimp only
        rw [hrest.holds i, hentries, List.zip_cons_cons, List.filter_cons]
        by_cases hi : f.index = i
        · have hlt : i < r.entries.length := by
            rw [Fields.length_entries, ← hi]
            exact (List.getElem?_eq_some_iff.mp hd).1
          rw [if_pos (decide_eq_true hi), List.getLast?_cons, hi, List.getElem?_set_self hlt]
          cases ((cells.zip decoded).filter (·.1.1.index = i)).getLast? <;> rfl
        · rw [if_neg (by simpa using hi), List.getElem?_set_ne hi]

theorem resolveColumns_of_many {columns : List String} (h : m.fields.length < columns.length) :
    resolveColumns m columns = .error (.tooManyColumns columns) := if_pos h

/-- The first column under which the model finds no field is the failure to resolve columns. -/
theorem resolveColumns_of_unknown {columns : List String} (h : columns.length ≤ m.fields.length)
    {column : String}
    (hunknown : columns.find? (fun column => (m.fieldByColumn? column).isNone) = some column) :
    resolveColumns m columns = .error (.unknownField column) := by
  rw [resolveColumns, if_neg (Nat.not_lt.mpr h)]
  clear h
  induction columns with
  | nil => simp at hunknown
  | cons first columns ih =>
    rw [List.find?_cons] at hunknown
    rw [List.mapM_cons]
    cases hf : m.fieldByColumn? first with
    | none =>
      rw [hf] at hunknown
      obtain rfl : first = column := by simpa using hunknown
      rfl
    | some f =>
      rw [hf] at hunknown
      simp only [bind, Except.bind]
      rw [ih hunknown]

/-- Columns resolve if there are not too many and each leads to a field. -/
theorem resolveColumns_of_known {columns : List String} (h : columns.length ≤ m.fields.length)
    (hknown : ∀ column ∈ columns, (m.fieldByColumn? column).isSome) :
    ∃ fields, resolveColumns m columns = .ok fields := by
  rw [resolveColumns, if_neg (Nat.not_lt.mpr h)]
  refine Results.exists_mapM_eq_ok fun column hcolumn => ?_
  obtain ⟨f, hf⟩ := Option.isSome_iff_exists.mp (hknown column hcolumn)
  exact ⟨f, by rw [hf]⟩

/-- A field that a column leads to is one of the declaration. -/
theorem exists_decl (hm : m.Describes T) {f : ModelField} (hf : f ∈ m.fields) :
    ∃ d, T.fields[f.index]? = some d := by
  obtain ⟨i, hi⟩ := List.mem_iff_getElem?.mp hf
  obtain ⟨hplace, d, hd, -⟩ := hm.field? hi
  exact ⟨d, hplace ▸ hd⟩

/-- The fields that columns lead to are stored in them. -/
theorem map_column_eq (hm : m.Indexed) {columns : List String} {fields : List ModelField}
    (h : resolveColumns m columns = .ok fields) : fields.map (·.column) = columns := by
  have hfound := (resolveColumns_eq_ok.mp h).2
  clear h
  induction hfound with
  | nil => rfl
  | cons hf _ ih => rw [List.map_cons, hm.column_eq hf, ih]

/-- Where the columns of a row resolve, its values are written to their fields. -/
theorem written_setColumns (hT : T.WellFormed) (hm : m.Describes T) (s : Strategy) (r : T.Record)
    {columns : List String} {fields : List ModelField}
    (hresolve : resolveColumns m columns = .ok fields) (values : List Value) :
    ∃ decoded, Written r (fields.zip values) decoded (setColumns s m r columns values).1
      (setColumns s m r columns values).2 := by
  have hcells : ∀ cell ∈ fields.zip values, ∃ d, T.fields[cell.1.index]? = some d :=
    fun cell hcell => exists_decl hm (resolveColumns_mem hresolve _ (List.of_mem_zip hcell).1)
  have hset : setColumns s m r columns values = assignAll .byPlace r (fields.zip values) := by
    rw [setColumns_eq hT hm s .byPlace, setColumns, check_eq_ok hm]
    simp only [bind, Except.bind, hresolve]
  rw [hset]
  exact written_assignAll hcells r

/-- Where the columns of a row do not resolve, nothing is written. -/
theorem setColumns_of_error (hm : m.Describes T) (s : Strategy) (r : T.Record)
    {columns : List String} {e : Error} (hresolve : resolveColumns m columns = .error e)
    (values : List Value) : setColumns s m r columns values = (.error e, r) := by
  rw [setColumns, check_eq_ok hm]
  simp only [bind, Except.bind, hresolve]

/-- A place that no cell is for keeps its entry. -/
theorem Written.keeps {r r' : T.Record} {cells : List (ModelField × Value)}
    {decoded : List FieldValue} {result : Except Error Unit}
    (h : Written r cells decoded result r') {i : ℕ} (hi : ∀ cell ∈ cells, cell.1.index ≠ i) :
    r'.entries[i]? = r.entries[i]? := by
  have hnone : (cells.zip decoded).filter (·.1.1.index = i) = [] := by
    rw [List.filter_eq_nil_iff]
    intro pair hpair
    simpa using hi pair.1 (List.of_mem_zip hpair).1
  rw [h.holds, hnone]
  rfl

/-- A row changes what it should of a record, with either strategy and any model of the entity. With
too many columns, or one that leads to no field, nothing is changed, and the error says which. Else
the values are written to the fields of their columns one after the other, up to the first that
cannot be decoded, which is the failure. A field whose column is not listed keeps what it holds. A
column leads to a field that is stored in it, and in a default model to none only if there is none.
-/
theorem setColumns_writes (T : EntityType) (hT : T.WellFormed) (m : Model) (hm : m.MadeFrom T)
    (s : Strategy) (r : T.Record) (columns : List String) (values : List Value) :
    let after := setColumns s m r columns values
    (m.fields.length < columns.length → after = (.error (.tooManyColumns columns), r)) ∧
    (columns.length ≤ m.fields.length → ∀ column,
      columns.find? (fun column => (m.fieldByColumn? column).isNone) = some column →
        after = (.error (.unknownField column), r)) ∧
    (columns.length ≤ m.fields.length → (∀ column ∈ columns, (m.fieldByColumn? column).isSome) →
      ∃ fields decoded,
        List.Forall₂ (fun column f => m.fieldByColumn? column = some f) columns fields ∧
        Written r (fields.zip values) decoded after.1 after.2) ∧
    (∀ f ∈ m.fields, f.column ∉ columns → after.2.entries[f.index]? = r.entries[f.index]?) ∧
    (∀ column f, m.fieldByColumn? column = some f → f ∈ m.fields ∧ f.column = column) ∧
    (Model.ofEntity T = .ok m → ∀ column,
      m.fieldByColumn? column = none ↔ ∀ f ∈ m.fields, f.column ≠ column) := by
  have hdescribes := hm.describes
  have hindexed := hm.indexed hT.distinct
  refine ⟨fun hmany => setColumns_of_error hdescribes s r (resolveColumns_of_many hmany) values,
    fun hfew column hunknown =>
      setColumns_of_error hdescribes s r (resolveColumns_of_unknown hfew hunknown) values,
    fun hfew hknown => ?_, fun f hf hcolumn => ?_,
    fun column f h => ⟨Model.fieldByColumn?_mem h, hindexed.column_eq h⟩, fun hdefault column => ?_⟩
  · obtain ⟨fields, hfields⟩ := resolveColumns_of_known hfew hknown
    obtain ⟨decoded, hwritten⟩ := written_setColumns hT hdescribes s r hfields values
    exact ⟨fields, decoded, (resolveColumns_eq_ok.mp hfields).2, hwritten⟩
  · cases hresolve : resolveColumns m columns with
    | error e => rw [setColumns_of_error hdescribes s r hresolve]
    | ok fields =>
      obtain ⟨decoded, hwritten⟩ := written_setColumns hT hdescribes s r hresolve values
      refine hwritten.keeps fun cell hcell heq => hcolumn ?_
      have hcell : cell.1 ∈ fields := (List.of_mem_zip hcell).1
      -- two fields do not share a place, so a written cell is that of a given column
      obtain rfl : cell.1 = f := hdescribes.index_inj (resolveColumns_mem hresolve _ hcell) hf heq
      rw [← map_column_eq hindexed hresolve]
      exact List.mem_map_of_mem hcell
  · constructor
    · rintro h f hf rfl
      have hfound := Model.findsColumns_ofEntity hdefault f hf
      rw [h] at hfound
      simp at hfound
    · intro h
      cases hf : m.fieldByColumn? column with
      | none => rfl
      | some f => exact absurd (hindexed.column_eq hf) (h f (Model.fieldByColumn?_mem hf))

/-- The declaration of a stay in a house. -/
def stay : EntityType := .integers "Stay" ["room", "nights"]

/-- The model of stays with the nights in a column of another name. -/
def renamedStay : Model :=
  { tableName := "stay"
    fields := [⟨"room", "room", "i64", .integer, 0⟩, ⟨"nights", "length", "i64", .integer, 1⟩]
    byName := [("nights", 1), ("room", 0)]
    byColumn := [("length", 1), ("room", 0)]
    owner := stay }

/-- Six nights in no room yet. -/
def shortStay : stay.Record :=
  let fields : BoundedInt .int64 × BoundedInt .int64 × Unit :=
    (.zero .int64, ⟨6, by decide, by decide⟩, ())
  fields

/-- A row is bound up to a text where a number should be. -/
theorem setColumns_writes_shortStay : ∃ fields decoded,
    List.Forall₂ (fun column f => renamedStay.fieldByColumn? column = some f)
      ["length", "room"] fields ∧
    Written stay.initial (fields.zip [.integer 6, .text "8", .integer 9])
      decoded (.error (.mismatch "Integer" (.text "8"))) shortStay :=
  (setColumns_writes stay ⟨by decide, by decide⟩ renamedStay ⟨[.columnName "nights" "length"], rfl⟩
    .byName stay.initial ["length", "room"]
    [.integer 6, .text "8", .integer 9]).2.2.1 (by decide) (by decide)

end Binding

end RowMapper
