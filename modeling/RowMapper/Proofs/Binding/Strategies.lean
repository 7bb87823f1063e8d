import RowMapper.Binding
import RowMapper.Proofs.Model.Declared

/-!
# Fields by name and by place

Where a declaration is well formed, the name of a field and its place lead to the same field:
reading and writing by one is reading and writing by the other (`Fields.read?_eq_readAt?`,
`Fields.writeAt?_eq_write`). A model that was made from the declaration gives every field its own
name and place, so the two strategies bind alike, failures and the fields written before them
included (`Binding.setColumns_eq`, `Binding.field_eq`).
-/

namespace RowMapper

/-! ## Records -/

namespace Fields

/-- A field further on has another name, so the first one does not answer to it. -/
theorem answersTo_eq_false {d : FieldDecl} {ds : List FieldDecl}
    (hdistinct : ((d :: ds).map (·.name)).Nodup) {i : ℕ} {d' : FieldDecl} (hd' : ds[i]? = some d') :
    d.answersTo d'.name = false := by
  have hmem : d'.name ∈ ds.map (·.name) := List.mem_map_of_mem (List.mem_of_getElem? hd')
  have hne : d.name ≠ d'.name := by
    rintro h
    rw [← h] at hmem
    exact (List.nodup_cons.mp hdistinct).1 hmem
  simp [FieldDecl.answersTo, hne]

theorem answersTo_self {d : FieldDecl} (hd : d.hidden = false) : d.answersTo d.name = true := by
  simp [FieldDecl.answersTo, hd]

/-- Nothing is read under a name that no field has. -/
theorem read?_eq_none {name : String} : ∀ {ds : List FieldDecl}, name ∉ ds.map (·.name) →
    ∀ r : Fields ds, r.read? name = none
  | [], _, _ => rfl
  | d :: ds, hname, (_, xs) => by
    obtain ⟨hd, hds⟩ := List.ne_and_not_mem_of_not_mem_cons hname
    have hanswer : d.answersTo name = false := by simp [FieldDecl.answersTo, Ne.symm hd]
    rw [read?, hanswer]
    exact read?_eq_none hds xs

/-- The name of a field leads to its place, unless the field is hidden. -/
theorem read?_eq_ite : ∀ {ds : List FieldDecl}, (ds.map (·.name)).Nodup → ∀ (r : Fields ds) {i : ℕ}
    {d : FieldDecl}, ds[i]? = some d → r.read? d.name = if d.hidden then none else r.readAt? i
  | [], _, _, i, d, hd => by simp at hd
  -- the first field is the one if the place is zero; otherwise its name is another one
  | d₀ :: ds, hdistinct, (x, xs), i, d, hd => by
    obtain ⟨hfirst, hrest⟩ := List.nodup_cons.mp hdistinct
    cases i with
    | zero =>
      obtain rfl : d₀ = d := by simpa using hd
      cases hhidden : d₀.hidden with
      | false => rw [read?, readAt?, if_pos (answersTo_self hhidden)]; rfl
      | true =>
        have hanswer : d₀.answersTo d₀.name = false := by simp [FieldDecl.answersTo, hhidden]
        rw [read?, hanswer]
        exact read?_eq_none hfirst xs
    | succ i =>
      have hd' : ds[i]? = some d := hd
      rw [read?, readAt?, answersTo_eq_false hdistinct hd']
      exact read?_eq_ite hrest xs hd'

/-- In a well formed record, what a field's name leads to is what stands at its place. -/
theorem read?_eq_readAt? {ds : List FieldDecl} (hdistinct : (ds.map (·.name)).Nodup)
    (hvisible : ∀ d ∈ ds, d.hidden = false) (r : Fields ds) {i : ℕ} {d : FieldDecl}
    (hd : ds[i]? = some d) : r.read? d.name = r.readAt? i := by
  rw [read?_eq_ite hdistinct r hd, hvisible d (List.mem_of_getElem? hd)]
  rfl

/-- To write at a field's place is to write under its name, and fails alike. -/
theorem writeAt?_eq_write : ∀ {ds : List FieldDecl}, (ds.map (·.name)).Nodup →
    (∀ d ∈ ds, d.hidden = false) → ∀ (r : Fields ds) (v : Value) {i : ℕ} {d : FieldDecl},
      ds[i]? = some d → r.writeAt? i v = some (r.write d.name v)
  | [], _, _, _, _, i, d, hd => by simp at hd
  | d₀ :: ds, hdistinct, hvisible, (x, xs), v, i, d, hd => by
    cases i with
    | zero =>
      obtain rfl : d₀ = d := by simpa using hd
      rw [write, writeAt?, if_pos (answersTo_self (hvisible _ (.head _)))]
    | succ i =>
      have hd' : ds[i]? = some d := hd
      rw [write, writeAt?, answersTo_eq_false hdistinct hd',
        writeAt?_eq_write (List.nodup_cons.mp hdistinct).2
          (fun d hd => hvisible d (.tail _ hd)) xs v hd']
      rfl

end Fields

/-! ## Binding -/

namespace Binding

variable {T : EntityType} {m : Model}

/-- A model that describes the record's type passes the check of either strategy. -/
theorem check_eq_ok (hm : m.Describes T) (s : Strategy) : check s m T = .ok () := by
  cases s with
  | byName => rfl
  | byPlace => exact if_pos hm.owner

/-- Columns resolve if there are not too many and each leads to a field. -/
theorem resolveColumns_eq_ok {columns : List String} {fields : List ModelField} :
    resolveColumns m columns = .ok fields ↔ columns.length ≤ m.fields.length ∧
      List.Forall₂ (fun column f => m.fieldByColumn? column = some f) columns fields := by
  unfold resolveColumns
  split
  · next hmany => simp [Nat.not_le.mpr hmany]
  · next hfew =>
    rw [Results.mapM_eq_ok, and_iff_right (Nat.le_of_not_lt hfew)]
    constructor
    · refine List.Forall₂.imp fun column f h => ?_
      split at h <;> simp_all
    · refine List.Forall₂.imp fun column f h => ?_
      rw [h]

/-- The fields that columns lead to are those of the model. -/
theorem resolveColumns_mem {columns : List String} {fields : List ModelField}
    (h : resolveColumns m columns = .ok fields) : ∀ f ∈ fields, f ∈ m.fields := by
  have hfound := (resolveColumns_eq_ok.mp h).2
  clear h
  induction hfound with
  | nil => simp
  | cons hf _ ih => exact List.forall_mem_cons.mpr ⟨Model.fieldByColumn?_mem hf, ih⟩

section

variable (hT : T.WellFormed) (hm : m.Describes T)
include hT hm

/-- To assign a field is to write under its name, whatever the strategy. -/
theorem assign_eq (s : Strategy) (r : T.Record) {f : ModelField} (hf : f ∈ m.fields) (v : Value) :
    assign s r f v = r.write f.name v := by
  cases s with
  | byName => rfl
  | byPlace =>
    obtain ⟨i, hi⟩ := List.mem_iff_getElem?.mp hf
    obtain ⟨hplace, d, hd, hname⟩ := hm.field? hi
    rw [assign, hplace, Fields.writeAt?_eq_write hT.distinct hT.visible r v hd, hname]
    rfl

/-- Fields are assigned one after the other, up to the first failure, which is the same for both
strategies. -/
theorem assignAll_eq (s s' : Strategy) (r : T.Record) : ∀ {cells : List (ModelField × Value)},
    (∀ cell ∈ cells, cell.1 ∈ m.fields) → assignAll s r cells = assignAll s' r cells := by
  intro cells
  induction cells generalizing r with
  | nil => intro _; rfl
  | cons cell cells ih =>
    intro hcells
    obtain ⟨f, v⟩ := cell
    have hf : f ∈ m.fields := hcells _ (.head _)
    rw [assignAll, assignAll, assign_eq hT hm s r hf, assign_eq hT hm s' r hf]
    split
    · exact ih _ fun cell hcell => hcells cell (.tail _ hcell)
    · rfl

/-- Both strategies bind a row to the same record, with the same result. -/
theorem setColumns_eq (s s' : Strategy) (r : T.Record) (columns : List String)
    (values : List Value) : setColumns s m r columns values = setColumns s' m r columns values := by
  unfold setColumns
  rw [check_eq_ok hm s, check_eq_ok hm s']
  split
  · rfl
  · next fields hfields =>
    refine assignAll_eq hT hm s s' r fun cell hcell => ?_
    exact resolveColumns_mem hfields _ (List.of_mem_zip hcell).1

/-- What a record holds under the name of a field is what it holds at the field's place. -/
theorem read?_eq (r : T.Record) {f : ModelField} (hf : f ∈ m.fields) :
    r.read? f.name = r.readAt? f.index := by
  obtain ⟨i, hi⟩ := List.mem_iff_getElem?.mp hf
  obtain ⟨hplace, d, hd, hname⟩ := hm.field? hi
  rw [← hname, hplace]
  exact Fields.read?_eq_readAt? hT.distinct hT.visible r hd

theorem field_byName_eq_byPlace (r : T.Record) (name : String) :
    field .byName m r name = field .byPlace m r name := by
  unfold field
  rw [check_eq_ok hm, check_eq_ok hm]
  cases hf : m.field? name with
  | none => rfl
  | some f => simp only [read?_eq hT hm r (Model.field?_mem hf)]

/-- Both strategies read the same value, or fail alike. -/
theorem field_eq (s s' : Strategy) (r : T.Record) (name : String) :
    field s m r name = field s' m r name := by
  have h := field_byName_eq_byPlace hT hm r name
  cases s <;> cases s'
  · rfl
  · exact h
  · exact h.symm
  · rfl

/-- Both strategies bind the same record from a row. -/
theorem bindRow_eq (s s' : Strategy) (columns : List String) (values : List Value) :
    bindRow s m T columns values = bindRow s' m T columns values := by
  rw [bindRow, bindRow, setColumns_eq hT hm s s']

end

end Binding

end RowMapper
