import StyleCascade.Number.Binary

namespace StyleCascade

namespace Number

/-- The bounds of 32-bit integers. -/
def int32Min : Int := -2147483648

def int32Max : Int := 2147483647

/-- The nearest integer within the 32-bit bounds. -/
def saturate (value : Int) : Int :=
  max int32Min (min int32Max value)

/-- The opposite number in 32 bits. The least number has none and wraps around to itself. -/
def opposite (value : Int) : Int :=
  Int.bmod (-value) 4294967296

/-- The magnitude of `mantissa · 2 ^ exponent`, rounded to an integer, a half going up. -/
def roundedMagnitude (mantissa : Nat) (exponent : Int) : Nat :=
  if 0 ≤ exponent then mantissa * twoTo exponent.toNat
  else (2 * mantissa + twoTo (-exponent).toNat) / twoTo ((-exponent).toNat + 1)

/-- The integer nearest to an exact value; a value that is no number counts as zero. -/
def Binary.round : Binary → Int
  | .undefined => 0
  | .infinite negative => if negative then int32Min else int32Max
  | .finite negative mantissa exponent =>
    let magnitude : Int := roundedMagnitude mantissa exponent
    saturate (if negative then -magnitude else magnitude)

/-- The 32-bit integer nearest to a number. -/
def round (x : Float) : Int :=
  (binary x).round

/-- An exact value is an integer. -/
def Binary.isInteger : Binary → Bool
  | .finite _ mantissa exponent => 0 ≤ exponent || mantissa % twoTo (-exponent).toNat = 0
  | _ => false

/-- A number has no fractional part. -/
def isInteger (x : Float) : Bool :=
  (binary x).isInteger

end Number

end StyleCascade
