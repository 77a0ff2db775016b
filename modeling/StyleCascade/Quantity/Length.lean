import StyleCascade.Number.Rounding
import StyleCascade.Number.Text

namespace StyleCascade

/-- A computed length. Pixels are whole; a percentage keeps hundredths, because the box it refers to
is only known at layout. -/
inductive Length
  | px (pixels : Int)
  | percent (hundredths : Int)
  | auto
  | none
  | normal
  deriving DecidableEq, Repr

namespace Length

/-- No length at all. -/
def zero : Length :=
  .px 0

/-- The percentage with a given number in front of the sign. -/
def ofPercent (value : Float) : Length :=
  .percent (Number.round (value * 100))

/-- The pixels of a length, if it is one in pixels. -/
def pixels? : Length → Option Int
  | .px pixels => some pixels
  | _ => Option.none

/-- The stored hundredths of a percentage. -/
def hundredths? : Length → Option Int
  | .percent hundredths => some hundredths
  | _ => Option.none

/-- The length of the opposite offset. Keywords are their own opposite. -/
def negated : Length → Length
  | .px pixels => .px (Number.opposite pixels)
  | .percent hundredths => .percent (Number.opposite hundredths)
  | other => other

/-- Hundredths as a number, such as `33.33`. -/
def hundredthsText (hundredths : Int) : String :=
  Number.text (Float.ofInt hundredths / 100)

/-- The text of a computed length. -/
def text : Length → String
  | .px pixels => Number.integerText pixels ++ "px"
  | .percent hundredths => hundredthsText hundredths ++ "%"
  | .auto => "auto"
  | .none => "none"
  | .normal => "normal"

end Length

/-- The forms, beside pixels, that a property takes as a length. -/
structure LengthForms where
  percent : Bool
  auto : Bool
  none : Bool
  negative : Bool
  normal : Bool
  deriving DecidableEq, Repr

/-- Lengths in pixels and nothing else. -/
def LengthForms.plain : LengthForms :=
  ⟨false, false, false, false, false⟩

end StyleCascade
