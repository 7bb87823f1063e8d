import RowMapper.Field.Type
import RowMapper.Error
import RowMapper.Calendar.Text
import RowMapper.Json.Reader
import RowMapper.Json.Writer

/-!
# Conversion between field values and database values

`FieldType.encode` gives the value that is bound for a field, `FieldType.decode` reads a value of a
row back into the field's type. Null decodes into optional fields and into fields of arbitrary value
only. Integers are read from reals too, without their fraction, and reals from integers.
-/

namespace RowMapper

namespace Error

/-- The error for a value of the wrong kind: null has one of its own. -/
def mismatch (expected : String) (v : Value) : Error :=
  match v with
  | .null => .unexpectedNull
  | v => .typeMismatch expected v.outline

end Error

/-- The integer of 64 bits that a value holds; a real number loses its fraction and is held within
the bounds. -/
def decodeInteger : Value → Except Error Int64
  | .integer n => .ok n
  | .real x => .ok (Int64.ofInt (x.truncate IntegerKind.int64.least IntegerKind.int64.greatest))
  | v => .error (.mismatch "Integer" v)

/-- The real number that a value holds. -/
def decodeReal : Value → Except Error (Floating .double)
  | .real x => .ok x
  | .integer n => .ok (Floating.ofInt .double n.toInt)
  | v => .error (.mismatch "Real" v)

namespace BoundedInt

/-- Reads an integer of a kind. -/
def decode (k : IntegerKind) (v : Value) : Except Error (BoundedInt k) := do
  let wide ← decodeInteger v
  match of? k wide.toInt with
  | some n => return n
  | none => throw (.typeMismatch k.name (Value.integer wide).outline)

end BoundedInt

namespace Timestamp

/-- Reads a timestamp. -/
def decode : Value → Except Error Timestamp
  | .text s => match Calendar.timestampOfText? s.toList with
    | some t => .ok t
    | none => .error (.typeMismatch "NaiveDateTime" s)
  | v => .error (.mismatch "Text (datetime)" v)

end Timestamp

namespace Date

/-- Reads a date. -/
def decode : Value → Except Error Date
  | .text s => match Calendar.dateOfText? s.toList with
    | some d => .ok d
    | none => .error (.typeMismatch "NaiveDate" s)
  | v => .error (.mismatch "Text (date)" v)

end Date

namespace Uuid

/-- Reads an identifier, from one of its texts or from its bytes. -/
def decode : Value → Except Error Uuid
  | .text s => match ofText? s.toList with
    | some u => .ok u
    | none => .error (.typeMismatch "UUID" s)
  | .blob bytes => match ofBytes? bytes with
    | some u => .ok u
    | none => .error (.typeMismatch "UUID" (Value.outlineBytes bytes))
  | v => .error (.mismatch "Text or Blob (UUID)" v)

end Uuid

namespace JsonShape

/-- The integer of 64 bits that a document is. -/
def integerOf? : Json → Option Int64
  | .integer n =>
    if IntegerKind.int64.least ≤ n ∧ n ≤ IntegerKind.int64.greatest then some (Int64.ofInt n)
    else none
  | _ => none

/-- The value of a field that a document stands for. No text can be a list, so the only map that
can be read is the empty one. -/
def ofJson? : (shape : JsonShape) → Json → Option shape.Carrier
  | any, j => some j
  | integers, .array items => items.mapM integerOf?
  | integerMap, .object [] => some []
  | _, _ => none

/-- The document for the value of a field. A map with a list as a key has none. -/
def toJson? : (shape : JsonShape) → shape.Carrier → Option Json
  | any, j => some j
  | integers, ns => some (.array (ns.map fun n => .integer n.toInt))
  | integerMap, [] => some (.object [])
  | integerMap, _ :: _ => none

/-- Reads a JSON field. -/
def decode (shape : JsonShape) : Value → Except Error shape.Carrier
  | .text s => match Json.ofText? s >>= shape.ofJson? with
    | some j => .ok j
    | none => .error .malformedJson
  | v => .error (.mismatch "Text (JSON)" v)

/-- The value bound for a JSON field: its text, or null if it has none. -/
def encode (shape : JsonShape) (x : shape.Carrier) : Value :=
  match shape.toJson? x with
  | some j => .text j.text
  | none => .null

end JsonShape

namespace FieldType

/-- The value bound for a field. -/
def encode : (t : FieldType) → t.Carrier → Value
  | integer _, n => .integer (Int64.ofInt n.val)
  | float .double, x => .real x
  | float .single, x => .real (x.convert .double)
  | bool, b => .integer (if b then 1 else 0)
  | text, s => .text s
  | blob, bytes => .blob bytes
  | value, v => v
  | optional _, none => .null
  | optional inner, some x => inner.encode x
  | timestamp, t => .text (String.ofList (Calendar.timestampText t))
  | instant, t => .text (String.ofList (Calendar.timestampText t))
  | date, d => .text (String.ofList (Calendar.dateText d))
  | uuid, u => .text (String.ofList u.text)
  | json shape, j => shape.encode j

/-- Reads a value of a row into a field. -/
def decode : (t : FieldType) → Value → Except Error t.Carrier
  | integer kind, v => BoundedInt.decode kind v
  | float .double, v => decodeReal v
  | float .single, v => (decodeReal v).map (Floating.convert .single)
  | bool, .integer n => .ok (n != 0)
  | bool, v => .error (.mismatch "Integer (boolean)" v)
  | text, .text s => .ok s
  | text, v => .error (.mismatch "Text" v)
  | blob, .blob bytes => .ok bytes
  | blob, v => .error (.mismatch "Blob" v)
  | value, v => .ok v
  | optional _, .null => .ok none
  | optional inner, v => (inner.decode v).map some
  | timestamp, v => Timestamp.decode v
  | instant, v => Timestamp.decode v
  | date, v => Date.decode v
  | uuid, v => Uuid.decode v
  | json shape, v => shape.decode v

/-- Reads a value like `decode`, but null gives the value of a fresh field. -/
def decodeOrInitial (t : FieldType) (v : Value) : Except Error t.Carrier :=
  match t with
  | optional inner => (optional inner).decode v
  | t => if v.isNull then .ok t.initial else t.decode v

end FieldType

end RowMapper
