import RowMapper.Proofs.Binding.Strategies
import RowMapper.Proofs.Field.RoundTrip
import RowMapper.Proofs.Number.Widening
import RowMapper.Sql.Statement

/-!
# Assignments from a record

`Fields.entries` lists the fields of a record with the typed values they hold. The assignments from
a record are those entries that the filter accepts, in the order of their declaration
(`Assignment.ofRecord_eq`).

Which entries `Assignment.ofNonZero` leaves out can be told from the typed values, too: the defaults
of their types, and optional values that hold a default, however deep, as they are stored alike
(`Assignment.ofNonZero_eq`). An optional field that holds a zero is not its type's default, but is
left out nevertheless (`Assignment.ofNonZero_hollow`).
-/

namespace RowMapper

/-! ## Entries -/

/-- A field of a record, with the value that it holds. -/
structure FieldValue where
  decl : FieldDecl
  held : decl.type.Carrier

namespace FieldValue

def name (e : FieldValue) : String := e.decl.name

/-- What the field is stored as. -/
def stored (e : FieldValue) : Value := e.decl.type.encode e.held

/-- The assignment of the field to its own value. -/
def assignment (e : FieldValue) : Assignment := .value e.name (.value e.stored)

end FieldValue

namespace Fields

/-- The fields of a record in the order of their declaration. -/
def entries : {fs : List FieldDecl} → Fields fs → List FieldValue
  | [], _ => []
  | f :: _, (x, xs) => ⟨f, x⟩ :: entries xs

theorem map_decl_entries : ∀ {fs : List FieldDecl} (r : Fields fs), r.entries.map (·.decl) = fs
  | [], _ => rfl
  | f :: _, (_, xs) => congrArg (f :: ·) (map_decl_entries xs)

theorem map_stored_entries : ∀ {fs : List FieldDecl} (r : Fields fs),
    r.entries.map (·.stored) = r.cells
  | [], _ => rfl
  | f :: _, (x, xs) => congrArg (f.type.encode x :: ·) (map_stored_entries xs)

/-- Where the names are different and none is hidden, each reads what its field is stored as. -/
theorem map_read?_eq : ∀ {fs : List FieldDecl}, (fs.map (·.name)).Nodup →
    (∀ f ∈ fs, f.hidden = false) → ∀ r : Fields fs,
      fs.map (fun f => (f.name, r.read? f.name)) = r.entries.map fun e => (e.name, some e.stored)
  | [], _, _, _ => rfl
  | f :: fs, hdistinct, hvisible, (x, xs) => by
    have hself : @read? (f :: fs) (x, xs) f.name = some (f.type.encode x) := by
      rw [read?, if_pos (answersTo_self (hvisible f (.head _)))]
    have hrest : ∀ g ∈ fs, @read? (f :: fs) (x, xs) g.name = read? xs g.name := by
      intro g hg
      obtain ⟨i, hi⟩ := List.mem_iff_getElem?.mp hg
      rw [read?, answersTo_eq_false hdistinct hi]
      rfl
    have ih := map_read?_eq (List.nodup_cons.mp hdistinct).2
      (fun g hg => hvisible g (.tail _ hg)) xs
    rw [List.map_cons, hself, entries, List.map_cons, ← ih]
    exact congrArg _ (List.map_congr_left fun g hg => by rw [hrest g hg])

end Fields

/-- The assignments from a record are its fields that the filter accepts. -/
theorem Assignment.ofRecord_eq {T : EntityType} (hT : T.WellFormed) (r : T.Record)
    (accepts : String → Value → Bool) : ofRecord T r accepts =
      (r.entries.filter fun e => accepts e.name e.stored).map (·.assignment) := by
  rw [ofRecord, EntityType.values, Fields.map_read?_eq hT.distinct hT.visible, List.filterMap_map,
    ← List.filterMap_eq_map, List.filterMap_filter]
  rfl

/-! ## Zeros -/

theorem BoundedInt.ofInt_eq_zero {k : IntegerKind} (n : BoundedInt k) :
    Int64.ofInt n.val = 0 ↔ n = zero k := by
  constructor
  · intro h
    have hval : n.val = 0 := by rw [← n.toInt_ofInt, h]; rfl
    obtain ⟨val, _, _⟩ := n
    obtain rfl : val = 0 := hval
    rfl
  · rintro rfl
    rfl

namespace FieldType

/-- The types of integers, real numbers, booleans, texts and blobs, and optional values of these. -/
inductive Elementary : FieldType → Prop
  | integer (kind : IntegerKind) : Elementary (.integer kind)
  | float (precision : Precision) : Elementary (.float precision)
  | bool : Elementary .bool
  | text : Elementary .text
  | blob : Elementary .blob
  | optional {inner : FieldType} (h : Elementary inner) : Elementary (.optional inner)

/-- Whether a value is the default of its type. Both zeros of the real numbers are. -/
def isDefault : (t : FieldType) → t.Carrier → Bool
  | float _, x => x.isZero
  | t, x => decide (x = t.initial)

/-- Whether a value is an optional one that holds a default, or again such a value. -/
def isHollow : (t : FieldType) → t.Carrier → Bool
  | optional inner, some x => inner.isDefault x || inner.isHollow x
  | _, _ => false

/-- What is stored as a zero is a default or hollow. -/
theorem isZero_encode {t : FieldType} (ht : t.Elementary) (x : t.Carrier) :
    (t.encode x).isZero = (t.isDefault x || t.isHollow x) := by
  induction ht with
  | integer kind =>
    have hdefault : isDefault (.integer kind) x = true ↔ x = .zero kind := decide_eq_true_iff
    show (Int64.ofInt x.val == 0) = (isDefault (.integer kind) x || false)
    rw [Bool.or_false, Bool.eq_iff_iff, beq_iff_eq, hdefault, x.ofInt_eq_zero]
  | float precision =>
    -- a single is stored as a double, and widening keeps what is zero
    cases precision with
    | single => simp [encode, isDefault, isHollow, Value.isZero, Floating.isZero_convert]
    | double => simp [encode, isDefault, isHollow, Value.isZero]
  | bool => cases x <;> rfl
  | text =>
    have hdefault : isDefault .text x = true ↔ x = "" := decide_eq_true_iff
    show String.isEmpty x = (isDefault .text x || false)
    rw [Bool.or_false, Bool.eq_iff_iff, String.isEmpty_iff, hdefault]
  | blob =>
    have hdefault : isDefault .blob x = true ↔ x = [] := decide_eq_true_iff
    show List.isEmpty x = (isDefault .blob x || false)
    rw [Bool.or_false, Bool.eq_iff_iff, List.isEmpty_iff, hdefault]
  | @optional inner _ ih =>
    cases x with
    | none => rfl
    | some x => exact ih x

end FieldType

namespace FieldValue

/-- The field holds the default of its type. -/
def isDefault (e : FieldValue) : Bool := e.decl.type.isDefault e.held

/-- The field is an optional one that holds a default, however deep. -/
def isHollow (e : FieldValue) : Bool := e.decl.type.isHollow e.held

end FieldValue

namespace Assignment

/-- The assignments of the fields that are not zero are those of the fields that hold neither the
default of their type nor an optional value with a default in it. -/
theorem ofNonZero_eq {T : EntityType} (hT : T.WellFormed)
    (htypes : ∀ f ∈ T.fields, f.type.Elementary) (r : T.Record) :
    ofNonZero T r =
      (r.entries.filter fun e => !e.isDefault && !e.isHollow).map (·.assignment) := by
  rw [ofNonZero, ofRecord_eq hT]
  refine congrArg (List.map _) (List.filter_congr fun e he => ?_)
  have hdecl : e.decl ∈ T.fields := by
    rw [← r.map_decl_entries]
    exact List.mem_map_of_mem he
  rw [← Bool.not_or]
  exact congrArg not (FieldType.isZero_encode (htypes _ hdecl) e.held)

/-- The declaration of a visit to a guest book. -/
def visit : EntityType :=
  { path := "Visit", name := "Visit", shape := .record, tableName := none
    fields := [.int64 "id", .ofWritten "remark" none (.path [] "Option" [.simple "String"])
        (.optional .text), .ofWritten "rating" none (.simple "f32") (.float .single)] }

/-- A visit without a rating. -/
def visitWith (remark : Option String) : visit.Record :=
  let fields : BoundedInt .int64 × Option String × Floating .single × Unit :=
    (⟨1, by decide, by decide⟩, remark, .zero .single, ())
  fields

theorem visit_wellFormed : visit.WellFormed := ⟨by decide, by decide⟩

theorem visit_elementary : ∀ f ∈ visit.fields, f.type.Elementary := by
  simp only [visit, List.forall_mem_cons]
  exact ⟨.integer _, .optional .text, .float _, List.forall_mem_nil _⟩

/-- A remark that says something is assigned, a rating of zero is not. -/
theorem ofNonZero_eq_visit : visit.WellFormed ∧ (∀ f ∈ visit.fields, f.type.Elementary) ∧
    ofNonZero visit (visitWith (some "late")) =
      [.value "id" (.value (.integer 1)), .value "remark" (.value (.text "late"))] := by
  refine ⟨visit_wellFormed, visit_elementary, ?_⟩
  rw [ofNonZero_eq visit_wellFormed visit_elementary]
  rfl

/-- An empty remark is not the default of its field, which is none, but it is not assigned. -/
theorem ofNonZero_hollow :
    ((visitWith (some "")).entries.filter fun e => !e.isDefault).map (·.assignment) =
        [.value "id" (.value (.integer 1)), .value "remark" (.value (.text ""))] ∧
      ofNonZero visit (visitWith (some "")) = [.value "id" (.value (.integer 1))] :=
  ⟨rfl, rfl⟩

end Assignment

end RowMapper
