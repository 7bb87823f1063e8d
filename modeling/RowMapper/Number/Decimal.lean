import RowMapper.Number.Floating

/-!
# Decimal texts of floating point numbers

`Decimal.shortest` finds the fewest decimal digits that read back as a given number, and of those
the digits nearest to it. Every real number that rounds to `m * 2 ^ e` lies between the midpoints
to its two neighbours, both included if `m` is even. For one digit, then two, and so on, the two
multiples of the last place around the number are tried; the first count with a hit wins.

`DecimalLayout.render` writes the digits, with a point or with a power of ten, as the layout says.
-/

namespace RowMapper

/-- The number `digits * 10 ^ exponent`. -/
structure Decimal where
  digits : Nat
  exponent : Int
  deriving DecidableEq, Repr

/-- What happens to a number half way between two candidates. -/
inductive Tie where
  | up
  | toEven
  deriving DecidableEq, Repr

namespace Decimal

/-- The number of digits of the decimal text of `n`. -/
def digitCount (n : Nat) : Nat := (Nat.toDigits 10 n).length

/-- The exponent `k` with `10 ^ (k - 1) ≤ n / d < 10 ^ k`, for positive `n` and `d`. -/
def pointPosition (n d : Nat) : Int :=
  if d ≤ n then digitCount (n / d)
  else
    let c := digitCount (d / n)
    if d ≤ n * Nat.pow 10 (c - 1) then 2 - (c : Int) else 1 - (c : Int)

/-- The numbers that round to one floating point number, scaled to naturals: they lie between
`low / scale` and `high / scale`, around `mid / scale`. -/
structure Neighbourhood where
  low : Nat
  mid : Nat
  high : Nat
  scale : Nat
  closed : Bool

/-- The neighbourhood of `m * 2 ^ e`. The gap below a power of two is half as wide. -/
def neighbourhood (p : Precision) (m : Nat) (e : Int) : Neighbourhood :=
  let factor := Nat.pow 2 (e - 2).toNat
  let below := if m = Nat.pow 2 p.fractionBits ∧ p.leastExponent < e then 1 else 2
  { low := (4 * m - below) * factor
    mid := 4 * m * factor
    high := (4 * m + 2) * factor
    scale := Nat.pow 2 (2 - e).toNat
    closed := m % 2 == 0 }

/-- The multiple of `10 ^ place` next to the number that reads back as it, if there is one. -/
def atPlace (tie : Tie) (nb : Neighbourhood) (place : Int) : Option Decimal :=
  let up := Nat.pow 10 (-place).toNat
  let unit := Nat.pow 10 place.toNat * nb.scale
  let below := nb.mid * up / unit
  let above := below + 1
  let inside (n : Nat) : Bool :=
    if nb.closed then nb.low * up ≤ n * unit && n * unit ≤ nb.high * up
    else nb.low * up < n * unit && n * unit < nb.high * up
  let lowGap := nb.mid * up - below * unit
  let highGap := above * unit - nb.mid * up
  match inside below, inside above with
  | false, false => none
  | true, false => some ⟨below, place⟩
  | false, true => some ⟨above, place⟩
  | true, true =>
    if lowGap < highGap then some ⟨below, place⟩
    else if highGap < lowGap then some ⟨above, place⟩
    else match tie with
      | .up => some ⟨above, place⟩
      | .toEven => some ⟨if below % 2 == 0 then below else above, place⟩

/-- Takes the zeros off the end of the digits, at most `fuel` of them. -/
def stripZeros : Nat → Decimal → Decimal
  | 0, d => d
  | fuel + 1, d =>
    if d.digits % 10 = 0 ∧ d.digits ≠ 0 then stripZeros fuel ⟨d.digits / 10, d.exponent + 1⟩ else d

/-- The fewest digits that read back as `m * 2 ^ e`, for positive `m`. Seventeen digits tell any
two numbers of double precision apart. -/
def shortest (tie : Tie) (p : Precision) (m : Nat) (e : Int) : Decimal :=
  let nb := neighbourhood p m e
  let k := pointPosition nb.mid nb.scale
  let found := (List.range 17).findSome? fun (n : Nat) => atPlace tie nb (k - (n + 1))
  stripZeros 20 (found.getD ⟨m, 0⟩)

end Decimal

/-- How a finite number is written: with a point if the first digit stands at most `leastZeros`
places after the point and the number is below `10 ^ 16`, else with a power of ten. A power of ten
that is not negative has a plus if `plusOnPower` says so. -/
structure DecimalLayout where
  tie : Tie
  leastZeros : Nat
  plusOnPower : Bool
  deriving DecidableEq, Repr

namespace DecimalLayout

/-- Digits with a point after the first one if more follow, and the power of ten. -/
def scientific (layout : DecimalLayout) (digits : List Char) (power : Int) : String :=
  let mantissa := match digits with
    | [] => "0"
    | [d] => String.ofList [d]
    | d :: rest => String.ofList (d :: '.' :: rest)
  mantissa ++ (if layout.plusOnPower ∧ 0 ≤ power then "e+" else "e") ++ toString power

/-- Digits with the point at position `point`, filled with zeros, and at least one place after
the point. -/
def positional (digits : List Char) (point : Int) : String :=
  if point ≤ 0 then "0." ++ String.ofList (List.replicate (-point).toNat '0' ++ digits)
  else
    let whole := digits.take point.toNat
    let fraction := digits.drop point.toNat
    let padding := List.replicate (point.toNat - whole.length) '0'
    String.ofList (whole ++ padding) ++ "." ++
      (if fraction.isEmpty then "0" else String.ofList fraction)

/-- The text of a finite number without its sign. -/
def unsigned (layout : DecimalLayout) (p : Precision) (m : Nat) (e : Int) : String :=
  if m = 0 then "0.0"
  else
    let d := Decimal.shortest layout.tie p m e
    let digits := Nat.toDigits 10 d.digits
    let point := d.exponent + digits.length
    if -(layout.leastZeros : Int) < point ∧ point ≤ 16 then positional digits point
    else layout.scientific digits (point - 1)

/-- The text of a number. -/
def render (layout : DecimalLayout) {p : Precision} (x : Floating p) : String :=
  match x.magnitude with
  | .nan => "NaN"
  | .infinite => if x.isNegative then "-inf" else "inf"
  | .finite m e => (if x.isNegative then "-" else "") ++ layout.unsigned p m e

end DecimalLayout

end RowMapper
