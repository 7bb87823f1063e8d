import Mathlib.Tactic.Common
import RowMapper.Entity

/-!
# Declared storage classes

The storage class of a field is declared by the names in its written type, and its values are stored
by the type that these names stand for. `FieldDecl.columnType_ofWritten` says when the two are the
same, for all types whose values have one storage class: if the type is optional once at most. Only
one layer of being optional is taken off a written type, so a field that is optional twice is
declared as text, whatever its values are (`FieldDecl.columnType_twiceOptional`).
-/

namespace RowMapper

namespace FieldType

/-- How many times a type is optional. -/
def layers : FieldType → ℕ
  | optional inner => inner.layers + 1
  | _ => 0

/-- The type under all layers of being optional. -/
def core : FieldType → FieldType
  | optional inner => inner.core
  | t => t

/-- The storage class of integers, truth values, numbers, texts and bytes. -/
def storage? : FieldType → Option ColumnType
  | integer _ | bool => some .integer
  | float _ => some .float
  | text => some .text
  | blob => some .blob
  | _ => none

theorem storage?_eq_text {t : FieldType} : t.storage? = some .text ↔ t = text := by
  cases t <;> simp [storage?]

/-- What is not null is stored in the class of the type under the layers. -/
theorem columnType_encode {k : ColumnType} : ∀ {t : FieldType}, t.core.storage? = some k →
    ∀ {x : t.Carrier}, t.encode x ≠ .null → (t.encode x).columnType = k
  | optional _, _, none, hx => absurd rfl hx
  | optional inner, hk, some x, hx => columnType_encode (t := inner) hk (x := x) hx
  | integer _, hk, _, _ | bool, hk, _, _ | text, hk, _, _ | blob, hk, _, _ =>
    Option.some.inj hk
  | float .single, hk, _, _ | float .double, hk, _, _ => Option.some.inj hk
  | value, hk, _, _ | timestamp, hk, _, _ | instant, hk, _, _ | date, hk, _, _ | uuid, hk, _, _
  | json _, hk, _, _ => nomatch hk

end FieldType

namespace TypeExpr

/-! ## Names of types -/

/-- A name that stands for a type with a storage class is declared with that class. -/
theorem columnType_of_basicType? {qualifiers : List String} {name : String} {t : FieldType}
    {k : ColumnType} (ht : basicType? name = some t) (hk : t.storage? = some k) :
    name ≠ "Option" ∧ columnType (path qualifiers name []) = k := by
  unfold basicType? at ht
  split at ht <;> cases ht <;> cases hk <;>
    simp [columnType, withoutOption, isByteVector, TypeExpr.name]

theorem basicType?_ne_optional {name : String} {inner : FieldType} :
    basicType? name ≠ some (.optional inner) := by
  unfold basicType?
  split <;> simp

/-- Only a written option is optional. -/
theorem eq_option_of_fieldType? {w : TypeExpr} {inner : FieldType}
    (h : w.fieldType? = some (.optional inner)) :
    ∃ qualifiers w', w = path qualifiers "Option" [w'] ∧ w'.fieldType? = some inner := by
  unfold fieldType? at h
  split at h
  · exact absurd h basicType?_ne_optional
  · next qualifiers w' =>
    obtain ⟨t, ht, heq⟩ := Option.map_eq_some_iff.mp h
    obtain rfl : t = inner := FieldType.optional.inj heq
    exact ⟨qualifiers, w', rfl, ht⟩
  all_goals simp at h

/-- A type that is not optional is declared with its storage class. -/
theorem columnType_of_storage? {w : TypeExpr} {t : FieldType} {k : ColumnType}
    (h : w.fieldType? = some t) (hk : t.storage? = some k) :
    w.name ≠ "Option" ∧ w.columnType = k := by
  unfold fieldType? at h
  split at h
  · exact columnType_of_basicType? h hk
  · obtain ⟨inner, -, rfl⟩ := Option.map_eq_some_iff.mp h
    cases hk
  · obtain rfl := Option.some.inj h
    obtain rfl : .blob = k := Option.some.inj hk
    simp [columnType, withoutOption, isByteVector, name, firstArgument?]
  -- times and documents have no storage class of their own
  · obtain rfl := Option.some.inj h
    cases hk
  · obtain rfl := Option.some.inj h
    cases hk
  · obtain rfl := Option.some.inj h
    cases hk
  · cases h

/-- One layer of being optional is taken off. -/
theorem columnType_option {qualifiers : List String} {w : TypeExpr} (h : w.name ≠ "Option") :
    columnType (path qualifiers "Option" [w]) = w.columnType := by
  have hoption : (path qualifiers "Option" [w]).withoutOption = w := rfl
  have hplain : w.withoutOption = w := if_neg h
  simp only [columnType, hoption, hplain]

/-- What is left of two layers has the name of an option. -/
theorem columnType_option_option {qualifiers qualifiers' : List String} {w : TypeExpr} :
    columnType (path qualifiers "Option" [path qualifiers' "Option" [w]]) = .text := by
  simp [columnType, withoutOption, isByteVector, name, firstArgument?]

/-- The declared storage class of a type: that under a layer of being optional, or text under
more. -/
theorem columnType_eq {w : TypeExpr} {t : FieldType} {k : ColumnType} (h : w.fieldType? = some t)
    (hk : t.core.storage? = some k) : w.columnType = if t.layers ≤ 1 then k else .text := by
  cases t with
  | optional inner =>
    obtain ⟨qualifiers, w', rfl, h'⟩ := eq_option_of_fieldType? h
    cases inner with
    | optional inner =>
      obtain ⟨qualifiers', w'', rfl, -⟩ := eq_option_of_fieldType? h'
      rw [columnType_option_option, if_neg (by simp [FieldType.layers])]
    | _ =>
      obtain ⟨hname, hclass⟩ := columnType_of_storage? h' hk
      rw [columnType_option hname, hclass, if_pos (by simp [FieldType.layers])]
  | _ => exact (columnType_of_storage? h hk).2

end TypeExpr

namespace FieldDecl

/-- For a written type whose values have one storage class, and for every value that is not stored
as null: the declared storage class is that of the stored value if the type is optional once at
most, and text if it is optional more often. So the two are the same unless something else than text
is optional more than once. -/
theorem columnType_ofWritten {w : TypeExpr} {t : FieldType} (h : w.fieldType? = some t)
    (hstored : t.core.storage? ≠ none) {x : t.Carrier} (hx : t.encode x ≠ .null) (name : String)
    (tag : Option String) :
    (ofWritten name tag w t).columnType =
        (if t.layers ≤ 1 then (t.encode x).columnType else .text) ∧
      ((ofWritten name tag w t).columnType = (t.encode x).columnType ↔
        t.layers ≤ 1 ∨ t.core = .text) := by
  obtain ⟨k, hk⟩ := Option.ne_none_iff_exists'.mp hstored
  have hdeclared : (ofWritten name tag w t).columnType = if t.layers ≤ 1 then k else .text :=
    TypeExpr.columnType_eq h hk
  have hvalue : (t.encode x).columnType = k := FieldType.columnType_encode hk hx
  rw [hdeclared, hvalue]
  refine ⟨rfl, ?_⟩
  by_cases hlayers : t.layers ≤ 1
  · simp [hlayers]
  · rw [if_neg hlayers, or_iff_right hlayers, ← FieldType.storage?_eq_text, hk, eq_comm,
      Option.some.injEq]

/-- Some bytes, of a type that is optional once. -/
theorem columnType_ofWritten_bytes :
    let w : TypeExpr := .path ["std", "option"] "Option" [.path ["std", "vec"] "Vec" [.simple "u8"]]
    let x : (FieldType.optional .blob).Carrier := some [0, 255]
    w.fieldType? = some (.optional .blob) ∧ FieldType.encode (.optional .blob) x ≠ .null ∧
      (ofWritten "photo" none w (.optional .blob)).columnType =
        (FieldType.encode (.optional .blob) x).columnType :=
  ⟨rfl, by decide, ((columnType_ofWritten rfl (by decide) (by decide) "photo" none).2).mpr
    (.inl (by decide))⟩

/-- An integer of a type that is optional twice is declared as text. -/
theorem columnType_twiceOptional :
    let w : TypeExpr := .path [] "Option" [.path [] "Option" [.simple "i64"]]
    let t : FieldType := .optional (.optional (.integer .int64))
    let x : t.Carrier := some (some (.zero .int64))
    w.fieldType? = some t ∧ t.encode x = .integer 0 ∧
      (ofWritten "n" none w t).columnType = .text ∧
      (ofWritten "n" none w t).columnType ≠ (t.encode x).columnType := by
  decide

end FieldDecl

end RowMapper
