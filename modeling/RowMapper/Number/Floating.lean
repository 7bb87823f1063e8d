/-!
# Binary floating point numbers

A number of a precision is its bit pattern: one sign bit, the biased exponent, the fraction. The
patterns that stand for "not a number" are identified: only one of them is a number of the type, so
that equality of numbers is equality of patterns.

`Floating.magnitude` says what a pattern stands for. The other direction is `Floating.ofRatio`,
which rounds an exact ratio of naturals times a power of two to the nearest number, and to the one
with the even pattern where two are equally near. All conversions go through these two.
-/

namespace RowMapper

/-- The two interchange formats a column may be declared with. -/
inductive Precision where
  | single
  | double
  deriving DecidableEq, Repr

namespace Precision

/-- The number of bits below the leading one of a significand. -/
def fractionBits : Precision → Nat
  | single => 23
  | double => 52

/-- The number of bits of the biased exponent. -/
def exponentBits : Precision → Nat
  | single => 8
  | double => 11

/-- The biased exponent of the patterns that are not finite. -/
def topExponent (p : Precision) : Nat := Nat.pow 2 p.exponentBits - 1

/-- The pattern with the sign bit alone. -/
def signBit (p : Precision) : Nat := Nat.pow 2 (p.fractionBits + p.exponentBits)

/-- The pattern of positive infinity. -/
def infinityBits (p : Precision) : Nat := p.topExponent * Nat.pow 2 p.fractionBits

/-- The one pattern kept for "not a number". -/
def nanBits (p : Precision) : Nat := p.infinityBits + Nat.pow 2 (p.fractionBits - 1)

/-- The power of two that one unit of the smallest numbers counts. -/
def leastExponent : Precision → Int
  | single => -149
  | double => -1074

/-- A pattern stands for "not a number" if it is above infinity, its sign aside. -/
def isNaNBits (p : Precision) (bits : Nat) : Bool := p.infinityBits < bits % p.signBit

end Precision

/-- A floating point number, as its pattern. -/
structure Floating (p : Precision) where
  bits : Nat
  bits_lt : bits < 2 * p.signBit
  canonical : p.isNaNBits bits = true → bits = p.nanBits
  deriving DecidableEq

/-- What a pattern stands for. A finite number is `significand * 2 ^ exponent`. -/
inductive Magnitude where
  | nan
  | infinite
  | finite (significand : Nat) (exponent : Int)
  deriving DecidableEq, Repr

namespace Floating

variable {p : Precision}

/-- The number that is not a number. -/
def nan (p : Precision) : Floating p :=
  ⟨p.nanBits, by cases p <;> decide, fun _ => rfl⟩

/-- The number of a pattern; a pattern too long to be one is read as "not a number". -/
def ofBits (p : Precision) (bits : Nat) : Floating p :=
  if h : bits < 2 * p.signBit ∧ p.isNaNBits bits = false then
    ⟨bits, h.1, fun hn => by simp [h.2] at hn⟩
  else nan p

def isNaN (x : Floating p) : Bool := p.isNaNBits x.bits

/-- Whether the sign bit is set. -/
def isNegative (x : Floating p) : Bool := p.signBit ≤ x.bits

/-- Both zeros count. -/
def isZero (x : Floating p) : Bool := x.bits == 0 || x.bits == p.signBit

/-- The number without its sign. -/
def magnitude (x : Floating p) : Magnitude :=
  let plain := x.bits % p.signBit
  let exponent := plain / Nat.pow 2 p.fractionBits
  let fraction := plain % Nat.pow 2 p.fractionBits
  if exponent = p.topExponent then
    if fraction = 0 then .infinite else .nan
  else if exponent = 0 then .finite fraction p.leastExponent
  else .finite (Nat.pow 2 p.fractionBits + fraction) (p.leastExponent + exponent - 1)

/-- Positive zero, the value a fresh field has. -/
def zero (p : Precision) : Floating p := ofBits p 0

instance : Inhabited (Floating p) := ⟨zero p⟩

/-- The quotient `n / d`, to the nearest, a half to the even neighbour. -/
def nearest (n d : Nat) : Nat :=
  let q := n / d
  let r := n % d
  if d < 2 * r || (d == 2 * r && q % 2 == 1) then q + 1 else q

/-- The integer part of the logarithm to base two of `n / d`, for positive `n` and `d`. -/
def ratioLog2 (n d : Nat) : Int :=
  let k : Int := (n.log2 : Int) - d.log2
  if n * Nat.pow 2 (-k).toNat < d * Nat.pow 2 k.toNat then k - 1 else k

/-- The pattern, without a sign, of the number nearest to `n / d * 2 ^ e`. -/
def patternOfRatio (p : Precision) (n d : Nat) (e : Int) : Nat :=
  if n = 0 then 0
  else
    let unit := max p.leastExponent (ratioLog2 n d + e - p.fractionBits)
    let shift := e - unit
    let q := nearest (n * Nat.pow 2 shift.toNat) (d * Nat.pow 2 (-shift).toNat)
    if q < Nat.pow 2 p.fractionBits then q
    else
      min p.infinityBits
        ((unit - p.leastExponent + 1).toNat * Nat.pow 2 p.fractionBits +
          (q - Nat.pow 2 p.fractionBits))

/-- The number nearest to `n / d * 2 ^ e`, with the given sign. -/
def ofRatio (p : Precision) (negative : Bool) (n d : Nat) (e : Int) : Floating p :=
  ofBits p ((if negative then p.signBit else 0) + patternOfRatio p n d e)

/-- The number nearest to an integer. -/
def ofInt (p : Precision) (n : Int) : Floating p :=
  ofRatio p (decide (n < 0)) n.natAbs 1 0

/-- The same number in another precision, rounded to the nearest where it does not fit. -/
def convert (q : Precision) (x : Floating p) : Floating q :=
  match x.magnitude with
  | .nan => nan q
  | .infinite => ofBits q ((if x.isNegative then q.signBit else 0) + q.infinityBits)
  | .finite m e => ofRatio q x.isNegative m 1 e

/-- The integer part of a number, held within `least` and `greatest`; "not a number" gives zero. -/
def truncate (least greatest : Int) (x : Floating p) : Int :=
  let signed (n : Nat) : Int := if x.isNegative then -(n : Int) else n
  match x.magnitude with
  | .nan => 0
  | .infinite => if x.isNegative then least else greatest
  | .finite m e => max least (min greatest (signed (m * Nat.pow 2 e.toNat / Nat.pow 2 (-e).toNat)))

/-- The product, rounded to the nearest. -/
def mul (x y : Floating p) : Floating p :=
  let negative := x.isNegative != y.isNegative
  match x.magnitude, y.magnitude with
  | .finite m e, .finite n f => ofRatio p negative (m * n) 1 (e + f)
  | .nan, _ | _, .nan => nan p
  | _, _ =>
    if x.isZero || y.isZero then nan p
    else ofBits p ((if negative then p.signBit else 0) + p.infinityBits)

/-- The quotient by a number that is finite and not zero, rounded to the nearest. -/
def div (x y : Floating p) : Floating p :=
  let negative := x.isNegative != y.isNegative
  match x.magnitude, y.magnitude with
  | .finite m e, .finite n f => if n = 0 then nan p else ofRatio p negative m n (e - f)
  | .infinite, .finite _ _ => ofBits p ((if negative then p.signBit else 0) + p.infinityBits)
  | .finite _ _, .infinite => ofBits p (if negative then p.signBit else 0)
  | _, _ => nan p

/-- The number with the other sign. -/
def neg (x : Floating p) : Floating p :=
  if x.isNaN then x
  else ofBits p (if x.isNegative then x.bits - p.signBit else x.bits + p.signBit)

end Floating

end RowMapper
