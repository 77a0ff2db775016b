import StyleCascade.Number.Binary

namespace StyleCascade

namespace Number

/-- A positive value as a quotient, with the ends of the interval that rounds to it. All three are
over the same `divisor`, and the ends belong to the interval if `closed`. -/
structure Interval where
  low : Nat
  value : Nat
  high : Nat
  divisor : Nat
  closed : Bool

/-- The interval of `mantissa · 2 ^ exponent`. Below a power of two the neighbours lie half as far
apart, except at the smallest exponent. -/
def Interval.of (mantissa : Nat) (exponent : Int) : Interval :=
  let narrow := mantissa = twoTo 52 && -1074 < exponent
  let scale := twoTo (exponent - 2).toNat
  { low := (4 * mantissa - if narrow then 1 else 2) * scale
    value := 4 * mantissa * scale
    high := (4 * mantissa + 2) * scale
    divisor := twoTo (2 - exponent).toNat
    closed := mantissa % 2 = 0 }

/-- A decimal `digits · 10 ^ exponent`. -/
structure Decimal where
  digits : Nat
  exponent : Int
  deriving DecidableEq, Repr

/-- A decimal as a multiple of the unit `1 / divisor`, times `10 ^ k` for the `k` of `shift`. -/
def Decimal.scaled (decimal : Decimal) (divisor : Nat) : Nat :=
  decimal.digits * divisor * tenTo decimal.exponent.toNat

/-- The factor that makes a fraction comparable with a scaled decimal. -/
def Decimal.shift (decimal : Decimal) : Nat :=
  tenTo (-decimal.exponent).toNat

/-- A decimal lies in an interval. -/
def Interval.contains (interval : Interval) (decimal : Decimal) : Bool :=
  let place := decimal.scaled interval.divisor
  let low := interval.low * decimal.shift
  let high := interval.high * decimal.shift
  if interval.closed then low ≤ place && place ≤ high else low < place && place < high

/-- The grid point at or below the value, among the multiples of `10 ^ exponent`. -/
def Interval.floor (interval : Interval) (exponent : Int) : Decimal :=
  { digits := interval.value * tenTo (-exponent).toNat / (interval.divisor * tenTo exponent.toNat)
    exponent := exponent }

/-- The value is at least as near to the grid point above as to the one below. -/
def Interval.upperIsNearer (interval : Interval) (below : Decimal) : Bool :=
  let unit := interval.divisor * tenTo below.exponent.toNat
  unit ≤ 2 * (interval.value * below.shift - below.scaled interval.divisor)

/-- The grid point of the interval that is nearest to the value, a tie going up. -/
def Interval.nearest? (interval : Interval) (exponent : Int) : Option Decimal :=
  let below := interval.floor exponent
  let above := { below with digits := below.digits + 1 }
  match interval.contains below, interval.contains above with
  | true, true => some (if interval.upperIsNearer below then above else below)
  | true, false => some below
  | false, true => some above
  | false, false => none

/-- The least `k` with `value < 10 ^ k`: the count of digits in front of the point, or else minus
the count of zeros right behind it. -/
def Interval.magnitude (interval : Interval) : Int :=
  let whole := interval.value / interval.divisor
  if 0 < whole then (Nat.toDigits 10 whole).length
  else
    match (List.range 330).find? (fun zeros =>
        interval.divisor ≤ interval.value * tenTo (zeros + 1)) with
    | some zeros => -(zeros : Int)
    | none => -330

/-- The first hit on the grids of one, two, and more digits. Seventeen digits always suffice. -/
def Interval.shortest (interval : Interval) : Decimal :=
  let top := interval.magnitude
  let hit := (List.range 17).findSome? (fun (count : Nat) =>
    interval.nearest? (top - ((count : Int) + 1)))
  hit.getD (interval.floor (top - 17))

/-- Drops up to `count` zeros at the end of the digits. -/
def Decimal.dropZeros : Nat → Decimal → Decimal
  | 0, decimal => decimal
  | count + 1, decimal =>
    if decimal.digits ≠ 0 ∧ decimal.digits % 10 = 0 then
      dropZeros count { digits := decimal.digits / 10, exponent := decimal.exponent + 1 }
    else decimal

/-- The shortest decimal of a positive number. -/
def shortest (mantissa : Nat) (exponent : Int) : Decimal :=
  (Interval.of mantissa exponent).shortest.dropZeros 20

end Number

end StyleCascade
