import StyleCascade.Quantity.Length
import StyleCascade.Keyword.Typography

namespace StyleCascade

/-- A computed line height. A factor of the font size is kept in hundredths. -/
inductive LineHeight
  | normal
  | px (pixels : Int)
  | factor (hundredths : Int)
  deriving DecidableEq, Repr

namespace LineHeight

/-- The pixels of a line in a font of `em` pixels. A normal line is 1.2 times the font size. -/
def pixels (em : Int) : LineHeight → Int
  | .normal => Number.round (Float.ofInt em * 1.2)
  | .px pixels => pixels
  | .factor hundredths => Number.round (Float.ofInt em * Float.ofInt hundredths / 100)

/-- The text of a computed line height. -/
def text : LineHeight → String
  | .normal => "normal"
  | .px pixels => Number.integerText pixels ++ "px"
  | .factor hundredths => Length.hundredthsText hundredths

end LineHeight

/-- A computed vertical alignment: a keyword or a shift in pixels. -/
inductive VerticalAlign
  | keyword (word : VerticalAlignWord)
  | px (pixels : Int)
  deriving DecidableEq, Repr

/-- The text of a computed vertical alignment. -/
def VerticalAlign.text : VerticalAlign → String
  | .keyword word => Keyword.text word
  | .px pixels => Number.integerText pixels ++ "px"

end StyleCascade
