import RowMapper.Number.Decimal
import RowMapper.Text.Outline

/-!
# Values of a database

The five kinds of value that a statement binds and a row holds, and the storage class of each.
-/

namespace RowMapper

/-- A value bound to a placeholder or read from a row. -/
inductive Value where
  | null
  | integer (n : Int64)
  | real (x : Floating .double)
  | text (s : String)
  | blob (bytes : List UInt8)
  deriving DecidableEq

instance : Inhabited Value := ⟨.null⟩

/-- The storage class a column is declared with. -/
inductive ColumnType where
  | integer
  | float
  | text
  | blob
  | null
  deriving DecidableEq, Repr

namespace ColumnType

/-- The name of a storage class. -/
def outline : ColumnType → String
  | integer => "Integer"
  | float => "Float"
  | text => "Text"
  | blob => "Blob"
  | null => "Null"

end ColumnType

namespace Value

/-- The storage class a value has. -/
def columnType : Value → ColumnType
  | null => .null
  | integer _ => .integer
  | real _ => .float
  | text _ => .text
  | blob _ => .blob

/-- Whether a value is the zero of its storage class: null, `0`, either zero of the real numbers,
an empty text or an empty blob. -/
def isZero : Value → Bool
  | null => true
  | integer n => n == 0
  | real x => x.isZero
  | text s => s.isEmpty
  | blob bytes => bytes.isEmpty

/-- Whether a value is null. -/
def isNull : Value → Bool
  | null => true
  | _ => false

/-- Real numbers in messages: positional from `0.0001` up to below `10 ^ 16`, a tie between two
shortest texts goes up. -/
def realLayout : DecimalLayout := ⟨.up, 4, false⟩

/-- The bytes of a blob in messages. -/
def outlineBytes (bytes : List UInt8) : String :=
  Outline.list (bytes.map fun b => toString b.toNat)

/-- The text of a value in messages. -/
def outline : Value → String
  | null => "Null"
  | integer n => Outline.tagged "Integer" (toString n.toInt)
  | real x => Outline.tagged "Real" (realLayout.render x)
  | text s => Outline.tagged "Text" (Text.quoted s)
  | blob bytes => Outline.tagged "Blob" (outlineBytes bytes)

end Value

end RowMapper
