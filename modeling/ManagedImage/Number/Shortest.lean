/-
The shortest decimal that reads back as a floating-point number.

The reals that round to `m * 2 ^ q` form an interval, with its ends if `m` is
even. Of the decimal grids `10 ^ p` the coarsest one with a point in it is
taken, and of its points the one nearest to the number; half-way between two,
the even one. Everything is compared in whole numbers, scaled by the powers of
two and ten that occur.

How a decimal is then laid out is another question, which `DecimalLayout`
answers.
-/
import ManagedImage.Number.Binary
import ManagedImage.Text

set_option autoImplicit false

namespace ManagedImage

/-- The decimal number `digits * 10 ^ exponent`. -/
structure Decimal where
  /-- The digits as a whole number. -/
  digits : Nat
  /-- The power of ten of the last digit. -/
  exponent : Int
deriving DecidableEq, Repr

namespace Shortest

/-- A number with the interval that rounds to it, on a decimal grid: all are multiples of one unit,
of which a grid step takes `step`. -/
structure Scaled where
  /-- The lower end of the interval. -/
  low : Nat
  /-- The number. -/
  mid : Nat
  /-- The upper end of the interval. -/
  high : Nat
  /-- The distance between grid points. -/
  step : Nat
  /-- Whether the ends belong to the interval. -/
  closed : Bool

/-- The number `m * 2 ^ q` on the grid `10 ^ p`. The unit is a quarter of the last binary place,
divided further as far as the grid needs it. -/
def scale (m : Nat) (q : Int) (narrow : Bool) (p : Int) : Scaled :=
  let unit := 2 ^ (q - 2).toNat * 10 ^ (-p).toNat
  { low := (4 * m - if narrow then 1 else 2) * unit
    mid := 4 * m * unit
    high := (4 * m + 2) * unit
    step := 10 ^ p.toNat * 2 ^ (2 - q).toNat
    closed := m % 2 = 0 }

/-- Whether a point lies in the interval. -/
def Scaled.holds (s : Scaled) (x : Nat) : Bool :=
  if s.closed then s.low ≤ x && x ≤ s.high else s.low < x && x < s.high

/-- The grid point in the interval that is nearest to the number, counted in steps. -/
def Scaled.nearest? (s : Scaled) : Option Nat :=
  let d := s.mid / s.step
  let below := s.mid - d * s.step
  let above := (d + 1) * s.step - s.mid
  match s.holds (d * s.step), s.holds ((d + 1) * s.step) with
  | false, false => none
  | true, false => some d
  | false, true => some (d + 1)
  | true, true =>
    if below < above then some d
    else if above < below then some (d + 1)
    else some (if d % 2 = 0 then d else d + 1)

/-- The nearest point of the coarsest grid that has one, from `10 ^ p` on. -/
def search (m : Nat) (q : Int) (narrow : Bool) : (grids : Nat) → (p : Int) → Decimal
  | 0, p => ⟨4 * m, p⟩
  | grids + 1, p => match (scale m q narrow p).nearest? with
    | some d => ⟨d, p⟩
    | none => search m q narrow grids (p - 1)

/-- A grid that is too coarse for the number, or just fits. -/
def firstGrid (m : Nat) (q : Int) : Int := (Nat.log2 m + q + 1) * 30103 / 100000 + 1

/-- The number of grids down to one that surely fits: seventeen digits always do. -/
def gridCount : Nat := 24

/-- The shortest decimal of a number. -/
def decimal (m : Nat) (q : Int) (narrow : Bool) : Decimal :=
  if m = 0 then ⟨0, 0⟩ else search m q narrow gridCount (firstGrid m q)

end Shortest

/-! ## Laying out -/

/-- How decimals are written. -/
structure DecimalLayout where
  /-- The least power of ten of the first digit that is written positionally. -/
  least : Int
  /-- The greatest power of ten of the first digit that is written positionally. -/
  greatest : Int
  /-- The least number of exponent digits. -/
  exponentDigits : Nat

namespace DecimalLayout

/-- Digits around a point that stands after the first `point` of them. -/
def positional (digits : String) (point : Int) : String :=
  let n : Int := digits.length
  if n ≤ point then digits ++ String.ofList (List.replicate (point - n).toNat '0')
  else if 0 < point then
    String.ofList (digits.toList.take point.toNat) ++ "."
      ++ String.ofList (digits.toList.drop point.toNat)
  else "0." ++ String.ofList (List.replicate (-point).toNat '0') ++ digits

/-- One digit, the others behind a point, and the power of ten. -/
def scientific (l : DecimalLayout) (digits : String) (exponent : Int) : String :=
  String.ofList (digits.toList.take 1)
    ++ (if digits.length ≤ 1 then "" else "." ++ String.ofList (digits.toList.drop 1))
    ++ "e" ++ (if exponent < 0 then "-" else "+")
    ++ padLeft l.exponentDigits '0' (toString exponent.natAbs)

/-- A decimal written out. -/
def render (l : DecimalLayout) (d : Decimal) : String :=
  if d.digits = 0 then "0"
  else
    let digits := toString d.digits
    let point : Int := digits.length + d.exponent
    if point - 1 < l.least ∨ l.greatest < point - 1 then l.scientific digits (point - 1)
    else positional digits point

/-- What a binary number is written as: its shortest decimal, or a word. -/
def renderValue (l : DecimalLayout) : BinaryValue → String
  | .nan => "NaN"
  | .infinite negative => if negative then "-Inf" else "+Inf"
  | .finite negative m q narrow =>
    (if negative then "-" else "") ++ l.render (Shortest.decimal m q narrow)

end DecimalLayout

end ManagedImage
