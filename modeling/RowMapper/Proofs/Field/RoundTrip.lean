import Mathlib.Tactic.Common
import RowMapper.Entity

/-!
# Values written and read back

Encoding a field value and decoding the result gives the value back (`FieldType.decode_encode`). The
one thing that is lost is an optional value that holds something which is itself stored as null: it
comes back as no value (`FieldType.settle`). A value that holds no such thing is `Faithful`, and
settles to itself.

`Fields.cells` is what a whole record is stored as. `Fields.blend` is the record in the middle of
being read back: its first fields are new, the others still old, and writing the next cell makes one
more field new (`Fields.writeAt?_blend`).
-/

namespace RowMapper

/-! ## Fields -/

/-- Every kind of integer fits into the 64 bits that are stored. -/
theorem BoundedInt.toInt_ofInt {k : IntegerKind} (n : BoundedInt k) :
    (Int64.ofInt n.val).toInt = n.val := by
  have hleast := n.least_le
  have hgreatest := n.le_greatest
  refine Int64.toInt_ofInt_of_le ?_ ?_ <;>
    cases k <;> simp only [IntegerKind.least, IntegerKind.greatest] at hleast hgreatest <;> omega

/-- A stored integer is in the range of its kind, so it is read back as it was. -/
theorem BoundedInt.decode_ofInt {k : IntegerKind} (n : BoundedInt k) :
    decode k (.integer (Int64.ofInt n.val)) = .ok n := by
  have hof : of? k (Int64.ofInt n.val).toInt = some n := by
    rw [n.toInt_ofInt, of?, dif_pos ⟨n.least_le, n.le_greatest⟩]
  simp only [decode, decodeInteger, bind, Except.bind, hof]
  rfl

namespace FieldType

/-- The types whose values are database values of one kind, and optional values of these. -/
inductive Basic : FieldType → Prop
  | integer (kind : IntegerKind) : Basic (.integer kind)
  | double : Basic (.float .double)
  | bool : Basic .bool
  | text : Basic .text
  | blob : Basic .blob
  | value : Basic .value
  | optional {inner : FieldType} (h : Basic inner) : Basic (.optional inner)

/-- What a value comes back as: an optional value that holds something stored as null comes back as
none. -/
def settle : (t : FieldType) → t.Carrier → t.Carrier
  | optional _, none => none
  | optional inner, some x => if inner.encode x = .null then none else some (inner.settle x)
  | _, x => x

/-- A value does not hold something that is stored as null. -/
def Faithful : (t : FieldType) → t.Carrier → Prop
  | optional inner, some x => inner.encode x ≠ .null
  | _, _ => True

/-- What is not stored as null settles to itself. -/
theorem settle_eq_self_of_encode_ne : ∀ {t : FieldType} {x : t.Carrier},
    t.encode x ≠ .null → t.settle x = x
  | optional _, none, h => absurd rfl h
  | optional inner, some x, h => by
    have hx : inner.encode x ≠ .null := h
    rw [settle, if_neg hx, settle_eq_self_of_encode_ne hx]
  | integer _, _, _ | float _, _, _ | bool, _, _ | text, _, _ | blob, _, _ | value, _, _
  | timestamp, _, _ | instant, _, _ | date, _, _ | uuid, _, _ | json _, _, _ => rfl

/-- What is faithful settles to itself: only what is stored as null may settle to something else. -/
theorem Faithful.settle_eq_self : ∀ {t : FieldType} {x : t.Carrier}, t.Faithful x → t.settle x = x
  | optional _, none, _ => rfl
  | optional inner, some _, h => settle_eq_self_of_encode_ne (t := optional inner) h
  | integer _, _, _ | float _, _, _ | bool, _, _ | text, _, _ | blob, _, _ | value, _, _
  | timestamp, _, _ | instant, _, _ | date, _, _ | uuid, _, _ | json _, _, _ => rfl

/-- A value other than null is read as what is inside of an optional field. -/
theorem decode_optional_of_ne {inner : FieldType} {v : Value} (hv : v ≠ .null) :
    (optional inner).decode v = (inner.decode v).map some := by
  cases v with
  | null => exact absurd rfl hv
  | _ => rfl

/-- An optional value comes back as it settles if what it holds does. -/
theorem decode_encode_optional {inner : FieldType}
    (h : ∀ x : inner.Carrier, inner.decode (inner.encode x) = .ok (inner.settle x))
    (x : (optional inner).Carrier) :
    (optional inner).decode ((optional inner).encode x) = .ok ((optional inner).settle x) := by
  cases x with
  | none => rfl
  | some x =>
    by_cases hx : inner.encode x = .null
    -- the layer of the optional type is lost: null is read as no value
    · simp only [encode, settle, hx, if_true]
      rfl
    · rw [settle, if_neg hx]
      exact (decode_optional_of_ne hx).trans (by rw [h]; rfl)

/-- A value of a basic type that is stored and read back is what it settles to. -/
theorem decode_encode {t : FieldType} (ht : t.Basic) (x : t.Carrier) :
    t.decode (t.encode x) = .ok (t.settle x) := by
  induction ht with
  | integer kind => exact x.decode_ofInt
  | bool => cases x <;> rfl
  | double | text | blob | value => rfl
  | optional _ ih => exact decode_encode_optional ih x

end FieldType

/-! ## Records -/

namespace Fields

/-- What the fields of a record are stored as, in order. -/
def cells : {fs : List FieldDecl} → Fields fs → List Value
  | [], _ => []
  | f :: _, (x, xs) => f.type.encode x :: cells xs

/-- No field holds something that is stored as null. -/
def Faithful : {fs : List FieldDecl} → Fields fs → Prop
  | [], _ => True
  | f :: _, (x, xs) => f.type.Faithful x ∧ Faithful xs

/-- The first fields of one record and the other fields of another one. -/
def blend : {fs : List FieldDecl} → ℕ → Fields fs → Fields fs → Fields fs
  | [], _, _, _ => ()
  | _ :: _, 0, _, old => old
  | _ :: _, n + 1, (x, xs), (_, ys) => (x, blend n xs ys)

@[simp]
theorem length_cells : ∀ {fs : List FieldDecl} (r : Fields fs), r.cells.length = fs.length
  | [], _ => rfl
  | _ :: _, (_, xs) => congrArg (· + 1) (length_cells xs)

/-- Reading a field by its index gives its cell. -/
theorem readAt?_eq : ∀ {fs : List FieldDecl} (r : Fields fs) (i : ℕ), r.readAt? i = r.cells[i]?
  | [], _, _ => rfl
  | _ :: _, (_, _), 0 => rfl
  | _ :: _, (_, xs), i + 1 => readAt?_eq xs i

@[simp]
theorem blend_zero : ∀ {fs : List FieldDecl} (r old : Fields fs), blend 0 r old = old
  | [], _, _ => rfl
  | _ :: _, _, _ => rfl

/-- Once all fields are new, nothing of the old record is left. -/
theorem blend_length : ∀ {fs : List FieldDecl} (r old : Fields fs), blend fs.length r old = r
  | [], _, _ => rfl
  | _ :: _, (x, xs), (_, ys) => congrArg (x, ·) (blend_length xs ys)

/-- Writing the cell after the new fields makes one more field new. -/
theorem writeAt?_blend : ∀ {fs : List FieldDecl}, (∀ f ∈ fs, f.type.Basic) →
    ∀ {r : Fields fs}, r.Faithful → ∀ (old : Fields fs) {n : ℕ} {v : Value},
      r.cells[n]? = some v → (blend n r old).writeAt? n v = some (.ok (blend (n + 1) r old))
  | [], _, _, _, _, _, _, hv => by simp [cells] at hv
  | f :: fs, hbasic, (x, xs), hr, (y, ys), 0, v, hv => by
    obtain rfl : f.type.encode x = v := Option.some.inj hv
    have hread : f.type.decode (f.type.encode x) = .ok x := by
      rw [FieldType.decode_encode (hbasic f (.head _)), hr.1.settle_eq_self]
    show some ((f.type.decode (f.type.encode x)).map (·, ys)) = some (.ok (x, blend 0 xs ys))
    rw [hread, blend_zero]
    rfl
  | f :: fs, hbasic, (x, xs), hr, (y, ys), n + 1, v, hv => by
    have hrest := writeAt?_blend (fun f hf => hbasic f (.tail _ hf)) hr.2 ys (n := n) hv
    rw [blend, writeAt?, hrest]
    rfl

end Fields

end RowMapper
