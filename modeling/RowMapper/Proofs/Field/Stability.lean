import RowMapper.Proofs.Field.RoundTrip
import RowMapper.Proofs.Number.Narrowing

/-!
# Values read, written and read again

A value that was read from the database is written and read again without a change, and any other
value loses at most the optional layers around something that is stored as null
(`FieldType.decode_stable`). This holds for the types of integers, reals of both precisions,
booleans, texts, blobs and arbitrary values, and for any number of optional layers around them.

The two halves meet in one fact: what is read from anything but null is not stored as null
(`FieldType.encode_ne_null`), so it has no layer to lose.
-/

namespace RowMapper

/-- The only map with lists as keys that is read is the empty one. -/
theorem JsonShape.eq_nil_of_decode {v : Value} {x : integerMap.Carrier}
    (h : integerMap.decode v = .ok x) : x = [] := by
  unfold decode at h
  split at h
  · split at h
    · next j hj =>
      obtain ⟨document, -, hdocument⟩ := Option.bind_eq_some_iff.mp hj
      obtain rfl := Except.ok.inj h
      cases document with
      | object fields =>
        cases fields with
        | nil => exact (Option.some.inj hdocument).symm
        | cons => cases hdocument
      | _ => cases hdocument
    · cases h
  · cases h

namespace FieldType

/-- The types whose values are database values of one kind, reals in either precision, and optional
values of these. -/
inductive Storable : FieldType → Prop
  | basic {t : FieldType} (h : t.Basic) : Storable t
  | single : Storable (.float .single)
  | optional {inner : FieldType} (h : Storable inner) : Storable (.optional inner)

/-- A value is an optional one that holds something stored as null, or holds such a value at some
depth. -/
def HidesNull : (t : FieldType) → t.Carrier → Prop
  | optional inner, some x => inner.encode x = .null ∨ inner.HidesNull x
  | _, _ => False

variable {t : FieldType}

/-! ## What is lost -/

theorem HidesNull.encode_eq {x : t.Carrier} (h : t.HidesNull x) : t.encode x = .null := by
  induction t with
  | optional inner ih =>
    cases x with
    | none => rfl
    | some x => exact h.elim id ih
  | _ => exact h.elim

/-- The values that come back as they were are those without a hidden null. -/
theorem settle_eq_self_iff {x : t.Carrier} : t.settle x = x ↔ ¬t.HidesNull x := by
  cases t with
  | optional inner =>
    cases x with
    | none => simp [settle, HidesNull]
    | some x =>
      by_cases hx : inner.encode x = .null
      · simp [settle, HidesNull, hx]
      · have hinner : ¬inner.HidesNull x := fun h => hx h.encode_eq
        simp [settle, HidesNull, hx, hinner, settle_eq_self_of_encode_ne hx]
  | _ => simp [settle, HidesNull]

/-- A value that is stored and read back is what it settles to. -/
theorem decode_encode_settle (ht : t.Storable) (x : t.Carrier) :
    t.decode (t.encode x) = .ok (t.settle x) := by
  induction ht with
  | basic h => exact decode_encode h x
  | single => exact congrArg Except.ok (Floating.convert_convert x)
  | optional _ ih => exact decode_encode_optional ih x

/-! ## What was read before -/

/-- What is read from null is stored as null. -/
theorem encode_of_decode_null {x : t.Carrier} (h : t.decode .null = .ok x) :
    t.encode x = .null := by
  cases t with
  | optional inner =>
    obtain rfl : none = x := Except.ok.inj h
    rfl
  | value => exact (Except.ok.inj h).symm
  | float p => cases p <;> nomatch h
  | _ => nomatch h

/-- What is read from anything but null is not stored as null. -/
theorem encode_ne_null {v : Value} (hv : v ≠ .null) {x : t.Carrier} (h : t.decode v = .ok x) :
    t.encode x ≠ .null := by
  induction t with
  | optional inner ih =>
    rw [decode_optional_of_ne hv] at h
    cases hinner : inner.decode v with
    | error e => simp [hinner, Except.map] at h
    | ok y =>
      rw [hinner] at h
      obtain rfl := Except.ok.inj h
      exact ih hinner
  | value =>
    obtain rfl : v = x := Except.ok.inj h
    exact hv
  | float p => cases p <;> nofun
  | json shape =>
    cases shape with
    | integerMap =>
      obtain rfl := JsonShape.eq_nil_of_decode h
      nofun
    | _ => nofun
  | _ => nofun

/-- Reading what was written. A value of one of these types that is stored and read back is what it
settles to, that is, itself up to the outermost optional value that holds something stored as null,
which comes back as no value; it is itself exactly if there is no such optional value in it. Any
value that was read from the database is read back as it is once it is stored again. -/
theorem decode_stable (ht : t.Storable) :
    (∀ x : t.Carrier, t.decode (t.encode x) = .ok (t.settle x) ∧
      (t.settle x = x ↔ ¬t.HidesNull x)) ∧
    ∀ (v : Value) (x : t.Carrier), t.decode v = .ok x → t.decode (t.encode x) = .ok x := by
  refine ⟨fun x => ⟨decode_encode_settle ht x, settle_eq_self_iff⟩, fun v x h => ?_⟩
  by_cases hv : v = .null
  · subst hv
    rw [encode_of_decode_null h, h]
  · rw [decode_encode_settle ht, settle_eq_self_of_encode_ne (encode_ne_null hv h)]

/-- The number nearest to `0.1`. -/
def tenth : Floating .double := .ofBits .double 0x3FB999999999999A

/-- In two optional layers, the absent value in the inner one comes back as absent in the outer one.
A tenth with double precision that is read with single precision is another number, and stays that
number from then on. -/
theorem decode_stable_tenth :
    (optional (optional (float .single))).decode
        ((optional (optional (float .single))).encode (some none)) = .ok none ∧
      ∃ x, (optional (optional (float .single))).decode (.real tenth) = .ok x ∧
        (optional (optional (float .single))).encode x ≠ .real tenth ∧
        (optional (optional (float .single))).decode
          ((optional (optional (float .single))).encode x) = .ok x := by
  have htype : (optional (optional (float .single))).Storable := .optional (.optional .single)
  obtain ⟨hback, hagain⟩ := decode_stable htype
  refine ⟨(hback (some none)).1, some (some (tenth.convert .single)), rfl, ?_,
    hagain (.real tenth) _ rfl⟩
  decide

end FieldType

end RowMapper
