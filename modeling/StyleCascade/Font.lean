import StyleCascade.Number.Rounding
import StyleCascade.Number.Text
import StyleCascade.Text.Blank

namespace StyleCascade

/-- What identifies a font. The size is in thousandths of a point. -/
structure FontKey where
  family : String
  size : Int
  bold : Bool
  italic : Bool
  deriving DecidableEq, Repr

/-- The measured sizes of a font, in pixels. -/
structure Metrics where
  em : Int
  ex : Int
  deriving DecidableEq, Repr

/-- A font and its measured sizes. Elements that ask for the same family, size, weight and slope
share it. -/
structure Font where
  key : FontKey
  metrics : Metrics
  deriving DecidableEq, Repr

namespace FontKey

/-- Thousandths of a point. -/
def sizeOfPoints (points : Float) : Int :=
  Number.round (points * 1000)

/-- The size in points. -/
def points (key : FontKey) : Float :=
  Float.ofInt key.size / 1000

/-- The size in whole pixels at `dpi` dots per inch. -/
def pixels (key : FontKey) (dpi : Float) : Int :=
  Number.round (key.points * dpi / 72)

/-- The text of the size. -/
def sizeText (key : FontKey) : String :=
  Number.text key.points ++ "pt"

/-- The text of a font: family, size, and the styles that it has. -/
def text (key : FontKey) : String :=
  key.family ++ " " ++ key.sizeText ++
    (if key.bold then " bold" else "") ++ (if key.italic then " italic" else "")

end FontKey

namespace Font

/-- A weight given by number is one of the nine hundreds. -/
def isWeight (number : Float) : Bool :=
  [100, 200, 300, 400, 500, 600, 700, 800, 900].any (· == number)

/-- A quotation mark of either kind. -/
def isQuote (c : Char) : Bool :=
  c = '"' || c = '\''

/-- One family of a list: quotes and surplus white space are dropped. There must be a word. -/
def family? (entry : String) : Option String :=
  let bare := String.ofList (Text.strip isQuote (Text.trim entry).toList)
  match Text.words bare with
  | [] => none
  | words => some (" ".intercalate words)

/-- Brings a list of families into one form, unless an entry is empty. -/
def familyList? (source : String) : Option String :=
  ((Text.commaPieces source).mapM family?).map (", ".intercalate ·)

end Font

end StyleCascade
