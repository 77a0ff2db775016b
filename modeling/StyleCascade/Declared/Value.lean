import StyleCascade.Quantity.LengthUnit
import StyleCascade.Number.Text

namespace StyleCascade

/-- A declared value. A value of a single component is told apart by its form; what has several
components is kept as text until somebody needs the parts. -/
inductive Value
  /-- A lowercase word. -/
  | ident (word : String)
  /-- A number without a unit. Its source keeps leading zeros. -/
  | number (value : Float) (source : String)
  | dimension (value : Float) (unit : LengthUnit)
  | percent (value : Float)
  /-- A quoted string, without its quotes and escapes. -/
  | str (text : String)
  | url (address : String)
  /-- What stands behind a `#`. -/
  | hash (digits : String)
  | function (name arguments : String)
  /-- The source of a script that gives the value. -/
  | script (source : String)
  | raw (text : String)
  deriving Repr

namespace Value

/-- The word that takes the parent's value. -/
def inherit : Value :=
  .ident "inherit"

/-- The word of a value, if it is a word. -/
def word? : Value → Option String
  | .ident word => some word
  | _ => none

/-- A value is the given word. -/
def isWord (value : Value) (word : String) : Bool :=
  value.word? = some word

/-- Writes a backslash in front of every double quote. -/
def escapeQuotes : List Char → List Char
  | [] => []
  | c :: rest => if c = '"' then '\\' :: '"' :: escapeQuotes rest else c :: escapeQuotes rest

/-- The text of a value. -/
def text : Value → String
  | .ident word => word
  | .number value _ => Number.text value
  | .dimension value unit => Number.text value ++ unit.suffix
  | .percent value => Number.text value ++ "%"
  | .str text => String.ofList ('"' :: (escapeQuotes text.toList ++ ['"']))
  | .url address => "url(" ++ address ++ ")"
  | .hash digits => "#" ++ digits
  | .function name arguments => name ++ "(" ++ arguments ++ ")"
  | .script source => "script(" ++ source ++ ")"
  | .raw text => text

end Value

end StyleCascade
