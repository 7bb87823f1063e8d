import RowMapper.Value
import RowMapper.Calendar.Basic
import RowMapper.Uuid
import RowMapper.Json.Basic

/-!
# Field types

The types that a field of an entity may have. `FieldType.Carrier` gives the values of each: an
integer field holds an integer of its width, an optional field an optional value, and so on, so that
a record of fields is typed. Equality of field values is decidable.
-/

namespace RowMapper

/-- The widths and signs of integer fields. -/
inductive IntegerKind where
  | int8
  | int16
  | int32
  | int64
  | uint8
  | uint16
  | uint32
  deriving DecidableEq, Repr

namespace IntegerKind

/-- The smallest integer of a kind. -/
def least : IntegerKind → Int
  | int8 => -128
  | int16 => -32768
  | int32 => -2147483648
  | int64 => -9223372036854775808
  | uint8 | uint16 | uint32 => 0

/-- The greatest integer of a kind. -/
def greatest : IntegerKind → Int
  | int8 => 127
  | int16 => 32767
  | int32 => 2147483647
  | int64 => 9223372036854775807
  | uint8 => 255
  | uint16 => 65535
  | uint32 => 4294967295

/-- The name of a kind in messages. -/
def name : IntegerKind → String
  | int8 => "i8"
  | int16 => "i16"
  | int32 => "i32"
  | int64 => "i64"
  | uint8 => "u8"
  | uint16 => "u16"
  | uint32 => "u32"

end IntegerKind

/-- An integer within the bounds of its kind. -/
structure BoundedInt (k : IntegerKind) where
  val : Int
  least_le : k.least ≤ val
  le_greatest : val ≤ k.greatest
  deriving DecidableEq

namespace BoundedInt

/-- The integer of a kind with a given value, if it is within the bounds. -/
def of? (k : IntegerKind) (n : Int) : Option (BoundedInt k) :=
  if h : k.least ≤ n ∧ n ≤ k.greatest then some ⟨n, h.1, h.2⟩ else none

/-- The zero of a kind. -/
def zero (k : IntegerKind) : BoundedInt k := ⟨0, by cases k <;> decide, by cases k <;> decide⟩

end BoundedInt

/-- What a JSON field holds: any document, a list of integers, or a map whose keys are lists of
integers. -/
inductive JsonShape where
  | any
  | integers
  | integerMap
  deriving DecidableEq, Repr

namespace JsonShape

/-- The values of a JSON field. -/
abbrev Carrier : JsonShape → Type
  | any => Json
  | integers => List Int64
  | integerMap => List (List Int64 × Int64)

/-- The value a fresh JSON field has. -/
def initial : (shape : JsonShape) → shape.Carrier
  | any => Json.null
  | integers => []
  | integerMap => []

instance decEqCarrier : (shape : JsonShape) → DecidableEq shape.Carrier
  | any => inferInstanceAs (DecidableEq Json)
  | integers => inferInstanceAs (DecidableEq (List Int64))
  | integerMap => inferInstanceAs (DecidableEq (List (List Int64 × Int64)))

end JsonShape

/-- The type of a field. -/
inductive FieldType where
  | integer (kind : IntegerKind)
  | float (precision : Precision)
  | bool
  | text
  | blob
  | value
  | optional (inner : FieldType)
  | timestamp
  | instant
  | date
  | uuid
  | json (shape : JsonShape)
  deriving DecidableEq, Repr

namespace FieldType

/-- The values of a field. An instant is a timestamp of universal time. -/
abbrev Carrier : FieldType → Type
  | integer kind => BoundedInt kind
  | float precision => Floating precision
  | bool => Bool
  | text => String
  | blob => List UInt8
  | value => Value
  | optional inner => Option inner.Carrier
  | timestamp => Timestamp
  | instant => Timestamp
  | date => Date
  | uuid => Uuid
  | json shape => shape.Carrier

/-- The value a fresh field has. -/
def initial : (t : FieldType) → t.Carrier
  | integer kind => BoundedInt.zero kind
  | float precision => Floating.zero precision
  | bool => false
  | text => ""
  | blob => []
  | value => Value.null
  | optional _ => none
  | timestamp => Timestamp.epoch
  | instant => Timestamp.epoch
  | date => Date.epoch
  | uuid => Uuid.nil
  | json shape => shape.initial

instance decEqCarrier : (t : FieldType) → DecidableEq t.Carrier
  | integer kind => inferInstanceAs (DecidableEq (BoundedInt kind))
  | float precision => inferInstanceAs (DecidableEq (Floating precision))
  | bool => inferInstanceAs (DecidableEq Bool)
  | text => inferInstanceAs (DecidableEq String)
  | blob => inferInstanceAs (DecidableEq (List UInt8))
  | value => inferInstanceAs (DecidableEq Value)
  | optional inner =>
    have := decEqCarrier inner
    inferInstanceAs (DecidableEq (Option inner.Carrier))
  | timestamp => inferInstanceAs (DecidableEq Timestamp)
  | instant => inferInstanceAs (DecidableEq Timestamp)
  | date => inferInstanceAs (DecidableEq Date)
  | uuid => inferInstanceAs (DecidableEq Uuid)
  | json shape => inferInstanceAs (DecidableEq shape.Carrier)

end FieldType

end RowMapper
