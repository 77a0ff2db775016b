import StyleCascade.Number.Shortest
import StyleCascade.Text.Ascii

namespace StyleCascade

namespace Number

/-- The decimal digits of a natural number. -/
def naturalChars (number : Nat) : List Char :=
  Nat.toDigits 10 number

/-- A decimal without an exponent. -/
def Decimal.positional (decimal : Decimal) : List Char :=
  let written := naturalChars decimal.digits
  let places := (-decimal.exponent).toNat
  if places = 0 then naturalChars (decimal.digits * tenTo decimal.exponent.toNat)
  else if places < written.length then
    written.take (written.length - places) ++ '.' :: written.drop (written.length - places)
  else '0' :: '.' :: (List.replicate (places - written.length) '0' ++ written)

/-- The text of an exact value. A zero keeps its sign. -/
def Binary.chars : Binary → List Char
  | .undefined => ['N', 'a', 'N']
  | .infinite negative => (if negative then ['-'] else []) ++ ['i', 'n', 'f']
  | .finite negative mantissa exponent =>
    (if negative then ['-'] else []) ++
      if mantissa = 0 then ['0'] else (shortest mantissa exponent).positional

/-- The text of a number: the fewest digits that read back, never an exponent, and no point after a
whole number. -/
def text (x : Float) : String :=
  String.ofList (binary x).chars

/-- The text of an integer. -/
def integerText (value : Int) : String :=
  toString value

/-- Splits a sign off. -/
def splitSign : List Char → Bool × List Char
  | '-' :: rest => (true, rest)
  | '+' :: rest => (false, rest)
  | chars => (false, chars)

/-- Reads the exponent behind the digits of a decimal; nothing at all is an exponent of zero. -/
def readExponent? : List Char → Option Int
  | [] => some 0
  | mark :: rest =>
    if mark = 'e' || mark = 'E' then
      let (negative, written) := splitSign rest
      if written ≠ [] && written.all Char.isDigit then
        let size : Int := Ascii.decimalNumber written
        some (if negative then -size else size)
      else none
    else none

/-- Reads an unsigned decimal: digits with at most one point, at least one digit, and an exponent
that may be left out. -/
def readDecimal? (negative : Bool) (chars : List Char) : Option Float :=
  let whole := chars.takeWhile Char.isDigit
  let behind := chars.dropWhile Char.isDigit
  let (fraction, rest) := match behind with
    | '.' :: more => (more.takeWhile Char.isDigit, more.dropWhile Char.isDigit)
    | _ => ([], behind)
  if whole = [] && fraction = [] then none
  else
    (readExponent? rest).map fun exponent =>
      ofDecimal negative (Ascii.decimalNumber (whole ++ fraction)) (exponent - fraction.length)

/-- Reads a number from a whole text: any decimal notation, or a word for an infinity or for no
number. -/
def read? (source : String) : Option Float :=
  let (negative, chars) := splitSign source.toList
  let word := String.ofList (chars.map Char.toLower)
  if word = "inf" || word = "infinity" then
    some (Float.ofBits (if negative then 0xFFF0000000000000 else 0x7FF0000000000000))
  else if word = "nan" then some (Float.ofBits 0x7FF8000000000000)
  else readDecimal? negative chars

end Number

end StyleCascade
