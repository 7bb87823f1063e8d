import RowMapper.Json.Basic

/-!
# Numbers in JSON texts

A number without a point or an exponent is an integer as long as it lies between `-2 ^ 63` and
`2 ^ 64`; `-0` and all other numbers are floating point numbers. Such a number is computed from a
significand below `2 ^ 64` and a power of ten in double precision: the digits that no longer fit the
significand count as zeros, and the significand is multiplied or divided by the power. This is
within a unit in the last place of the nearest number. A number too large is refused.
-/

namespace RowMapper.Json

/-- The parts of a number as written: digits before and after the point, and the exponent's sign
and digits. -/
structure NumberText where
  negative : Bool
  whole : List Nat
  fraction : Option (List Nat)
  exponent : Option (Bool × List Nat)

namespace NumberText

/-- A significand stays below this bound. -/
def significandBound : Nat := Nat.pow 2 64

/-- Takes digits into a significand as long as they fit, and returns the rest. -/
def accumulate (significand : Nat) : List Nat → Nat × List Nat
  | [] => (significand, [])
  | d :: ds =>
    if significand * 10 + d < significandBound then accumulate (significand * 10 + d) ds
    else (significand, d :: ds)

/-- The power of ten nearest to it in double precision, for exponents up to 308. -/
def powerOfTen (n : Nat) : Floating .double := Floating.ofRatio .double false (Nat.pow 10 n) 1 0

/-- Divides by powers of ten up to the 308th, as often as needed. Three divisions leave nothing of
a significand, so four are enough. -/
def divideByPower : Nat → Floating .double → Nat → Floating .double
  | 0, x, _ => x
  | fuel + 1, x, n =>
    if n ≤ 308 then x.div (powerOfTen n)
    else if x.isZero then x
    else divideByPower fuel (x.div (powerOfTen 308)) (n - 308)

/-- `significand * 10 ^ exponent`; `none` if that is too large. -/
def scaled (significand : Nat) (exponent : Int) : Option (Floating .double) :=
  let x := Floating.ofRatio .double false significand 1 0
  if exponent < 0 then some (divideByPower 4 x exponent.natAbs)
  else if exponent ≤ 308 then
    let y := x.mul (powerOfTen exponent.toNat)
    if y.magnitude = .infinite then none else some y
  else if significand = 0 then some x
  else none

/-- The value of the digits of an exponent, held below `2 ^ 31`: `none` from there on. -/
def exponentValue (digits : List Nat) : Option Nat :=
  let n := digits.foldl (fun n d => n * 10 + d) 0
  if n < Nat.pow 2 31 then some n else none

/-- The value of a number as written. -/
def value (t : NumberText) : Option Json :=
  let signed (x : Floating .double) : Json := .float (if t.negative then x.neg else x)
  let (significand, rest) := accumulate 0 t.whole
  if t.fraction.isNone ∧ t.exponent.isNone ∧ rest.isEmpty then
    if t.negative then
      if significand = 0 ∨ Nat.pow 2 63 < significand then
        some (signed (Floating.ofRatio .double false significand 1 0))
      else some (.integer (-(significand : Int)))
    else some (.integer significand)
  else
    let digits := t.fraction.getD []
    let (significand, ignored) := accumulate significand digits
    let start : Int := (rest.length : Int) - ((digits.length - ignored.length : Nat) : Int)
    match t.exponent with
    | none => (scaled significand start).map signed
    | some (negative, digits) =>
      match exponentValue digits with
      | some n => (scaled significand (if negative then start - n else start + n)).map signed
      | none => if significand ≠ 0 ∧ !negative then none else some (signed (Floating.zero .double))

end NumberText

/-- The value of a decimal digit. -/
def digitOf? (c : Char) : Option Nat := if c.isDigit then some (c.toNat - 48) else none

/-- The digits at the front of a text. -/
def takeDigits (s : List Char) : List Nat × List Char :=
  ((s.takeWhile Char.isDigit).filterMap digitOf?, s.dropWhile Char.isDigit)

/-- Reads digits, of which there must be one. -/
def readDigits (s : List Char) : Option (List Nat × List Char) :=
  match takeDigits s with
  | ([], _) => none
  | (digits, rest) => some (digits, rest)

/-- Reads the fraction of a number, if there is one. -/
def readFraction : List Char → Option (Option (List Nat) × List Char)
  | '.' :: rest => (readDigits rest).map fun (digits, rest) => (some digits, rest)
  | s => some (none, s)

/-- Reads the exponent of a number, if there is one. -/
def readExponent : List Char → Option (Option (Bool × List Nat) × List Char)
  | c :: rest =>
    if c = 'e' ∨ c = 'E' then
      let (negative, rest) := match rest with
        | '-' :: rest => (true, rest)
        | '+' :: rest => (false, rest)
        | rest => (false, rest)
      (readDigits rest).map fun (digits, rest) => (some (negative, digits), rest)
    else some (none, c :: rest)
  | [] => some (none, [])

/-- Reads a number. A zero in front of further digits is refused. -/
def readNumber (s : List Char) : Option (Json × List Char) := do
  let (negative, s) := match s with
    | '-' :: rest => (true, rest)
    | s => (false, s)
  let (whole, s) ← readDigits s
  if whole.head? = some 0 ∧ 1 < whole.length then none
  else
    let (fraction, s) ← readFraction s
    let (exponent, s) ← readExponent s
    let j ← NumberText.value { negative, whole, fraction, exponent }
    return (j, s)

end RowMapper.Json
