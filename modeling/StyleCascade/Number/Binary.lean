import StyleCascade.Number.Powers

namespace StyleCascade

namespace Number

/-- The value of a number. A finite one is `mantissa · 2 ^ exponent`, up to its sign. Numbers are
taken apart and put together through their bits, so that they can be reasoned about. -/
inductive Binary
  | undefined
  | infinite (negative : Bool)
  | finite (negative : Bool) (mantissa : Nat) (exponent : Int)
  deriving DecidableEq, Repr

/-- Takes the bits of a number apart. -/
def Binary.ofBits (bits : Nat) : Binary :=
  let negative : Bool := twoTo 63 ≤ bits
  let field : Nat := bits / twoTo 52 % twoTo 11
  let fraction : Nat := bits % twoTo 52
  if field = 2047 then
    if fraction = 0 then .infinite negative else .undefined
  else if field = 0 then .finite negative fraction (-1074)
  else .finite negative (fraction + twoTo 52) ((field : Int) - 1075)

/-- The value of a number. -/
def binary (x : Float) : Binary :=
  Binary.ofBits x.toBits.toNat

/-- Rounds a quotient to the nearest integer, a tie to the even one. The divisor is positive. -/
def roundToEven (dividend divisor : Nat) : Nat :=
  let down := dividend / divisor
  let rest := dividend % divisor
  if 2 * rest < divisor then down
  else if divisor < 2 * rest then down + 1
  else down + down % 2

/-- The exponent at which `dividend / divisor` has a mantissa of 53 bits, but at least the one of
the smallest numbers. Both are positive. -/
def mantissaExponent (dividend divisor : Nat) : Int :=
  let guess : Int := (dividend.log2 : Int) - (divisor.log2 : Int) - 52
  let fits := divisor * twoTo (52 + guess).toNat ≤ dividend * twoTo (-(52 + guess)).toNat
  max (if fits then guess else guess - 1) (-1074)

/-- The bits of the number nearest to a quotient, a tie going to the even mantissa. A mantissa
that rounds up to 2 ^ 53 carries into the exponent, which is then again the right one. -/
def quotientBits (dividend divisor : Nat) : Nat :=
  if dividend = 0 then 0
  else
    let exponent := mantissaExponent dividend divisor
    let mantissa :=
      roundToEven (dividend * twoTo (-exponent).toNat) (divisor * twoTo exponent.toNat)
    min ((exponent + 1074).toNat * twoTo 52 + mantissa) (2047 * twoTo 52)

/-- The number nearest to a quotient. -/
def ofQuotient (negative : Bool) (dividend divisor : Nat) : Float :=
  Float.ofBits (UInt64.ofNat (quotientBits dividend divisor + if negative then twoTo 63 else 0))

/-- The number nearest to `digits · 10 ^ exponent`. Values beyond every finite number and values
below half of the smallest one are cut off early, which changes no result. -/
def ofDecimal (negative : Bool) (digits : Nat) (exponent : Int) : Float :=
  let size : Int := exponent + (Nat.toDigits 10 digits).length
  if digits = 0 || size < -400 then ofQuotient negative 0 1
  else if 400 < size then ofQuotient negative (tenTo 400) 1
  else ofQuotient negative (digits * tenTo exponent.toNat) (tenTo (-exponent).toNat)

end Number

end StyleCascade
