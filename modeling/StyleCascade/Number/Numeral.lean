import StyleCascade.Number.Text

namespace StyleCascade

/-- A numeral, taken apart: an optional sign, then digits with an optional fraction, or a point and
digits. There is no exponent, and a point may end a numeral. -/
structure Numeral where
  sign : Option Char
  whole : List Char
  /-- The digits behind a point, if there is a point. -/
  fraction : Option (List Char)

namespace Numeral

/-- The characters of a numeral. -/
def chars (numeral : Numeral) : List Char :=
  numeral.sign.toList ++ numeral.whole ++
    match numeral.fraction with
    | some digits => '.' :: digits
    | none => []

/-- The value of a numeral. -/
def value (numeral : Numeral) : Float :=
  let fraction := numeral.fraction.getD []
  Number.ofDecimal (numeral.sign = some '-') (Ascii.decimalNumber (numeral.whole ++ fraction))
    (-fraction.length)

/-- Takes a sign off. -/
def splitSign : List Char → Option Char × List Char
  | c :: rest => if c = '+' || c = '-' then (some c, rest) else (none, c :: rest)
  | [] => (none, [])

/-- Reads the numeral at the front of a text, and gives the rest. -/
def read? (source : List Char) : Option (Numeral × List Char) :=
  let (sign, unsigned) := splitSign source
  let whole := unsigned.takeWhile Char.isDigit
  match unsigned.dropWhile Char.isDigit with
  | '.' :: behind =>
    let fraction := behind.takeWhile Char.isDigit
    if whole = [] && fraction = [] then none
    else some (⟨sign, whole, some fraction⟩, behind.dropWhile Char.isDigit)
  | rest => if whole = [] then none else some (⟨sign, whole, none⟩, rest)

end Numeral

end StyleCascade
