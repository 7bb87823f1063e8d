import Mathlib.Data.List.Perm.Basic
import RowMapper.Proofs.Binding.Writes

/-!
# Rows with their columns in another order

Different columns lead to different fields, whatever options the model was made with: what the
column index finds is stored in the column that was asked for. So a row with different columns
writes every field at most once, and the record it leaves can be told from its cells without their
order (`Binding.Written.of_perm`). Hence the order of the columns does not matter
(`Binding.setColumns_perm`).
-/

namespace RowMapper.Binding

variable {T : EntityType} {m : Model} {r r₁ r₂ : T.Record}
  {cells cells' : List (ModelField × Value)} {decoded decoded' : List FieldValue}

/-! ## Cells of different fields -/

theorem Decodes.unique {cell : ModelField × Value} {e e' : FieldValue} (h : Decodes T cell e)
    (h' : Decodes T cell e') : e = e' := by
  obtain ⟨decl, held⟩ := e
  obtain ⟨decl', held'⟩ := e'
  obtain rfl : decl = decl' := Option.some.inj (h.1.symm.trans h'.1)
  obtain rfl : held = held' := Except.ok.inj (h.2.symm.trans h'.2)
  rfl

theorem Decodes.not_refuses {cell : ModelField × Value} {e : FieldValue} (h : Decodes T cell e)
    (error : Error) : ¬ Refuses T cell error := by
  rintro ⟨d, hd, hdecode⟩
  obtain rfl : e.decl = d := Option.some.inj (h.1.symm.trans hd)
  simp [h.2] at hdecode

/-- Where cells were written without a failure, each was decoded. -/
theorem Written.forall₂ (h : Written r cells decoded (.ok ()) r₁) :
    List.Forall₂ (Decodes T) cells decoded := by
  obtain ⟨hlength, -⟩ | ⟨_, _, _, _, herror⟩ := h.ends
  · have hdecodes := h.decodes
    rwa [hlength, List.take_length] at hdecodes
  · simp at herror

theorem Written.exists_decodes (h : Written r cells decoded (.ok ()) r₁)
    {cell : ModelField × Value} (hcell : cell ∈ cells) :
    ∃ e, (cell, e) ∈ cells.zip decoded ∧ Decodes T cell e := by
  obtain ⟨hlength, hzip⟩ := List.forall₂_iff_zip.mp h.forall₂
  obtain ⟨i, hi, rfl⟩ := List.mem_iff_getElem.mp hcell
  have hmem : (cells[i], decoded[i]) ∈ cells.zip decoded := by
    rw [← List.getElem_zip (h := by simpa [hlength] using hi)]
    exact List.getElem_mem _
  exact ⟨decoded[i], hmem, hzip hmem⟩

/-- Where cells are of different fields, each leaves its value. -/
theorem Written.holds_of_mem (h : Written r cells decoded (.ok ()) r₁)
    (hdistinct : (cells.map (·.1.index)).Nodup) {cell : ModelField × Value} (hcell : cell ∈ cells)
    {e : FieldValue} (he : Decodes T cell e) : r₁.entries[cell.1.index]? = some e := by
  obtain ⟨e', hmem, he'⟩ := h.exists_decodes hcell
  obtain rfl := he.unique he'
  let same := (cells.zip decoded).filter (·.1.1.index = cell.1.index)
  have hsame : (cell, e) ∈ same := List.mem_filter.mpr ⟨hmem, decide_eq_true rfl⟩
  -- no other cell is for this field, so the last one is the only one
  obtain ⟨last, hlast⟩ : ∃ last, same.getLast? = some last :=
    ⟨_, List.getLast?_eq_some_getLast (List.ne_nil_of_mem hsame)⟩
  obtain ⟨hlastmem, hindex⟩ := List.mem_filter.mp (List.mem_of_getLast? hlast)
  have hcell' : last.1 = cell := List.inj_on_of_nodup_map hdistinct
    (List.of_mem_zip hlastmem).1 hcell (of_decide_eq_true hindex)
  have hdecodes : Decodes T last.1 last.2 := (List.forall₂_iff_zip.mp h.forall₂).2 hlastmem
  rw [h.holds, hlast, he.unique (hcell' ▸ hdecodes)]
  rfl

/-- Cells of different fields can be written in any order. -/
theorem Written.of_perm {result : Except Error Unit} (h : Written r cells decoded (.ok ()) r₁)
    (h' : Written r cells' decoded' result r₂) (hperm : cells.Perm cells')
    (hdistinct : (cells.map (·.1.index)).Nodup) : result = .ok () ∧ r₂ = r₁ := by
  obtain rfl : result = .ok () := by
    obtain ⟨-, hresult⟩ | ⟨cell, e, hcell, hrefuses, -⟩ := h'.ends
    · exact hresult
    · obtain ⟨e', -, he'⟩ := h.exists_decodes (hperm.mem_iff.mpr (List.mem_of_getElem? hcell))
      exact absurd hrefuses (he'.not_refuses e)
  refine ⟨rfl, Fields.entries_injective (List.ext_getElem? fun i => ?_)⟩
  by_cases hi : ∃ cell ∈ cells, cell.1.index = i
  · obtain ⟨cell, hcell, rfl⟩ := hi
    obtain ⟨e, -, he⟩ := h.exists_decodes hcell
    rw [h.holds_of_mem hdistinct hcell he,
      h'.holds_of_mem ((hperm.map _).nodup_iff.mp hdistinct) (hperm.mem_iff.mp hcell) he]
  · have hnone : ∀ cell ∈ cells, cell.1.index ≠ i := fun cell hcell heq => hi ⟨cell, hcell, heq⟩
    rw [h.keeps hnone, h'.keeps fun cell hcell => hnone cell (hperm.mem_iff.mpr hcell)]

/-! ## Rows with different columns -/

/-- The cells of a row, from its columns and values. -/
theorem zip_eq_filterMap {columns : List String} {fields : List ModelField}
    (h : resolveColumns m columns = .ok fields) (values : List Value) :
    fields.zip values = (columns.zip values).filterMap fun pair =>
      (m.fieldByColumn? pair.1).map (·, pair.2) := by
  have hfound := (resolveColumns_eq_ok.mp h).2
  clear h
  induction hfound generalizing values with
  | nil => rfl
  | cons hf _ ih =>
    cases values with
    | nil => rfl
    | cons v values => simp [hf, ih]

/-- Cells of different columns are of different fields. -/
theorem nodup_index (hm : m.Describes T) (hindexed : m.Indexed) {columns : List String}
    (hcolumns : columns.Nodup) {values : List Value} (hlength : columns.length = values.length)
    {fields : List ModelField} (h : resolveColumns m columns = .ok fields) :
    ((fields.zip values).map (·.1.index)).Nodup := by
  have hfields : (fields.map (·.index)).Nodup := by
    rw [← map_column_eq hindexed h] at hcolumns
    refine hcolumns.of_map.map_on fun f hf g hg heq => ?_
    exact hm.index_inj (resolveColumns_mem h f hf) (resolveColumns_mem h g hg) heq
  have hlength' : fields.length = values.length :=
    (resolveColumns_eq_ok.mp h).2.length_eq.symm.trans hlength
  rw [← List.map_fst_zip (Nat.le_of_eq hlength'), List.map_map] at hfields
  exact hfields

theorem isSome_of_resolveColumns {columns : List String} {fields : List ModelField}
    (h : resolveColumns m columns = .ok fields) :
    ∀ column ∈ columns, (m.fieldByColumn? column).isSome := by
  have hfound := (resolveColumns_eq_ok.mp h).2
  clear h
  induction hfound with
  | nil => simp
  | cons hf _ ih => exact List.forall_mem_cons.mpr ⟨by rw [hf]; rfl, ih⟩

/-- The columns of a row resolve in any order. -/
theorem resolveColumns_perm {columns columns' : List String} (hperm : columns.Perm columns')
    {fields : List ModelField} (h : resolveColumns m columns = .ok fields) :
    ∃ fields', resolveColumns m columns' = .ok fields' := by
  have hfew := (resolveColumns_eq_ok.mp h).1
  exact resolveColumns_of_known (hperm.length_eq ▸ hfew) fun column hcolumn =>
    isSome_of_resolveColumns h column (hperm.mem_iff.mpr hcolumn)

/-- Rows with the same cells in another order have the same columns in another order. -/
theorem columns_perm {columns columns' : List String} {values values' : List Value}
    (hlength : columns.length = values.length) (hlength' : columns'.length = values'.length)
    (hperm : (columns.zip values).Perm (columns'.zip values')) : columns.Perm columns' := by
  have hfirst := hperm.map Prod.fst
  rw [List.map_fst_zip (Nat.le_of_eq hlength)] at hfirst
  rwa [List.map_fst_zip (Nat.le_of_eq hlength')] at hfirst

section

variable (hT : T.WellFormed) (hm : m.MadeFrom T) (s : Strategy) (r : T.Record)
  {columns columns' : List String} {values values' : List Value}
include hT hm

/-- A row that is bound without a failure is bound to the same record in another order. -/
theorem setColumns_of_perm (hcolumns : columns.Nodup) (hlength : columns.length = values.length)
    (hlength' : columns'.length = values'.length)
    (hperm : (columns.zip values).Perm (columns'.zip values'))
    (h : (setColumns s m r columns values).1 = .ok ()) :
    setColumns s m r columns' values' = setColumns s m r columns values := by
  have hdescribes := hm.describes
  have hnames := columns_perm hlength hlength' hperm
  obtain ⟨fields, hfields⟩ : ∃ fields, resolveColumns m columns = .ok fields := by
    cases hresolve : resolveColumns m columns with
    | ok fields => exact ⟨fields, rfl⟩
    | error e =>
      rw [setColumns_of_error hdescribes s r hresolve] at h
      simp at h
  obtain ⟨fields', hfields'⟩ := resolveColumns_perm hnames hfields
  obtain ⟨decoded, hwritten⟩ := written_setColumns hT hdescribes s r hfields values
  obtain ⟨decoded', hwritten'⟩ := written_setColumns hT hdescribes s r hfields' values'
  -- a column takes its value along, so the written cells are permuted as the columns are
  have hcells : (fields.zip values).Perm (fields'.zip values') := by
    rw [zip_eq_filterMap hfields, zip_eq_filterMap hfields']
    exact hperm.filterMap _
  rw [h] at hwritten
  obtain ⟨hresult, hrecord⟩ := hwritten.of_perm hwritten' hcells
    (nodup_index hdescribes (hm.indexed hT.distinct) hcolumns hlength hfields)
  exact Prod.ext (hresult.trans h.symm) hrecord

end

/-- The order of the columns of a row does not matter. With either strategy and a model that was
made with any options, a row of different columns is bound without a failure exactly if it is in any
other order, and then to the same record. -/
theorem setColumns_perm (T : EntityType) (hT : T.WellFormed) (m : Model) (hm : m.MadeFrom T)
    (s : Strategy) (r : T.Record) (columns columns' : List String) (values values' : List Value)
    (hcolumns : columns.Nodup) (hlength : columns.length = values.length)
    (hlength' : columns'.length = values'.length)
    (hperm : (columns.zip values).Perm (columns'.zip values')) :
    ((setColumns s m r columns values).1 = .ok () ↔
      (setColumns s m r columns' values').1 = .ok ()) ∧
    ((setColumns s m r columns values).1 = .ok () →
      (setColumns s m r columns' values').2 = (setColumns s m r columns values).2) := by
  have hcolumns' : columns'.Nodup :=
    (columns_perm hlength hlength' hperm).nodup_iff.mp hcolumns
  have hforth := setColumns_of_perm hT hm s r hcolumns hlength hlength' hperm
  have hback := setColumns_of_perm hT hm s r hcolumns' hlength' hlength hperm.symm
  exact ⟨⟨fun h => (hforth h).symm ▸ h, fun h => (hback h).symm ▸ h⟩, fun h => by rw [hforth h]⟩

/-- Twelve nights in the ninth room. -/
def longStay : stay.Record :=
  let fields : BoundedInt .int64 × BoundedInt .int64 × Unit :=
    (⟨9, by decide, by decide⟩, ⟨12, by decide, by decide⟩, ())
  fields

/-- A stay that is read with its room first is the one that is read with its room last. -/
theorem setColumns_perm_longStay :
    (setColumns .byName renamedStay stay.initial ["room", "length"] [.integer 9, .integer 12]).1 =
        .ok () ∧
      (setColumns .byName renamedStay stay.initial ["room", "length"] [.integer 9, .integer 12]).2 =
        longStay := by
  obtain ⟨hiff, hrecord⟩ := setColumns_perm stay ⟨by decide, by decide⟩ renamedStay
    ⟨[.columnName "nights" "length"], rfl⟩ .byName stay.initial ["length", "room"]
    ["room", "length"] [.integer 12, .integer 9] [.integer 9, .integer 12] (by decide) rfl rfl
    (.swap _ _ _)
  exact ⟨hiff.mp rfl, hrecord rfl⟩

end RowMapper.Binding
