import StyleCascade.Box.Edges
import StyleCascade.Box.Used
import StyleCascade.Color
import StyleCascade.Font
import StyleCascade.Image
import StyleCascade.Intern.Handle
import StyleCascade.Keyword.Structure
import StyleCascade.Property
import StyleCascade.Quantity.Line

namespace StyleCascade

/-- The computed values of an element. Colours, fonts and images are handles, so records with the
same values compare fast; the parts of the font are one value. -/
structure Record where
  display : Display
  float : FloatSide
  clear : Clear
  position : Position
  visibility : Visibility
  overflow : Overflow
  /-- None for `auto`. -/
  zIndex : Option Int
  cursor : Cursor
  width : Length
  height : Length
  minWidth : Length
  minHeight : Length
  maxWidth : Length
  maxHeight : Length
  margin : Edges Length
  padding : Edges Length
  /-- The properties `top`, `right`, `bottom` and `left`. -/
  offsets : Edges Length
  borderWidth : Edges Int
  borderStyle : Edges BorderStyle
  borderColor : Edges (Handle Color)
  outlineWidth : Int
  outlineStyle : BorderStyle
  outlineColor : Handle Color
  /-- None for a transparent background. -/
  backgroundColor : Option (Handle Color)
  backgroundImage : Option (Handle Image)
  backgroundRepeat : BackgroundRepeat
  backgroundAttachment : BackgroundAttachment
  backgroundPositionX : Length
  backgroundPositionY : Length
  color : Handle Color
  font : Handle Font
  fontVariant : FontVariant
  lineHeight : LineHeight
  verticalAlign : VerticalAlign
  textAlign : TextAlign
  textDecoration : TextDecoration
  textTransform : TextTransform
  textIndent : Length
  letterSpacing : Length
  wordSpacing : Length
  whiteSpace : WhiteSpace
  direction : Direction
  listStyleType : ListStyleType
  listStylePosition : ListStylePosition
  listStyleImage : Option (Handle Image)
  borderCollapse : BorderCollapse
  borderSpacing : Length
  captionSide : CaptionSide
  emptyCells : EmptyCells
  tableLayout : TableLayout
  content : Option String
  deriving DecidableEq, Repr

namespace Record

/-- The initial value of every property. Borders and outlines have the colour of the text. -/
def initial (color : Handle Color) (font : Handle Font) : Record where
  display := default
  float := default
  clear := default
  position := default
  visibility := default
  overflow := default
  zIndex := none
  cursor := default
  width := .auto
  height := .auto
  minWidth := .zero
  minHeight := .zero
  maxWidth := .none
  maxHeight := .none
  margin := .same .zero
  padding := .same .zero
  offsets := .same .auto
  borderWidth := .same BorderWidth.medium
  borderStyle := .same .none
  borderColor := .same color
  outlineWidth := BorderWidth.medium
  outlineStyle := .none
  outlineColor := color
  backgroundColor := none
  backgroundImage := none
  backgroundRepeat := default
  backgroundAttachment := default
  backgroundPositionX := .zero
  backgroundPositionY := .zero
  color := color
  font := font
  fontVariant := default
  lineHeight := .normal
  verticalAlign := .keyword default
  textAlign := default
  textDecoration := default
  textTransform := default
  textIndent := .zero
  letterSpacing := .normal
  wordSpacing := .normal
  whiteSpace := default
  direction := default
  listStyleType := default
  listStylePosition := default
  listStyleImage := none
  borderCollapse := default
  borderSpacing := .zero
  captionSide := default
  emptyCells := default
  tableLayout := default
  content := none

/-- The handles of colours, field by field. -/
def colors (record : Record) : List (Handle Color) :=
  record.color :: record.borderColor.toList ++
    record.outlineColor :: record.backgroundColor.toList

/-- The handles of images, field by field. -/
def images (record : Record) : List (Handle Image) :=
  record.backgroundImage.toList ++ record.listStyleImage.toList

end Record

end StyleCascade
