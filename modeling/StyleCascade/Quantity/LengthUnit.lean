namespace StyleCascade

/-- A unit of length. -/
inductive LengthUnit
  | px
  | pt
  | pc
  | inch
  | cm
  | mm
  | em
  | ex
  deriving DecidableEq, Repr

namespace LengthUnit

/-- Every unit. -/
def all : List LengthUnit :=
  [px, pt, pc, inch, cm, mm, em, ex]

/-- The suffix of a unit. -/
def suffix : LengthUnit → String
  | px => "px"
  | pt => "pt"
  | pc => "pc"
  | inch => "in"
  | cm => "cm"
  | mm => "mm"
  | em => "em"
  | ex => "ex"

/-- The unit with a lowercase suffix. -/
def ofSuffix? (word : String) : Option LengthUnit :=
  all.find? (fun unit => unit.suffix = word)

/-- Units that depend on the font of the element. -/
def isFontRelative : LengthUnit → Bool
  | em | ex => true
  | _ => false

/-- The pixels of a length at `dpi` dots per inch, if the unit is physical. A point is the 72nd
part of an inch and a pica is twelve points. -/
def pixels? (value dpi : Float) : LengthUnit → Option Float
  | px => some value
  | pt => some (value * dpi / 72)
  | pc => some (value * 12 * dpi / 72)
  | inch => some (value * dpi)
  | cm => some (value * dpi / 2.54)
  | mm => some (value * dpi / 25.4)
  | em | ex => none

theorem ofSuffix?_suffix (unit : LengthUnit) : ofSuffix? unit.suffix = some unit := by
  cases unit <;> decide

end LengthUnit

end StyleCascade
