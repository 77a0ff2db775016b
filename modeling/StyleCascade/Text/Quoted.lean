import StyleCascade.Text.HiddenTable
import StyleCascade.Text.Lowercase
import StyleCascade.Text.Ascii

namespace StyleCascade

namespace Text

/-- The hexadecimal digits of a number. -/
def hexText (number : Nat) : String :=
  String.ofList ((Nat.toDigits 16 number).map Char.toLower)

/-- How a character is written between quotes: quotes and backslashes behind a backslash, the common
controls by a short escape, and every other character without a shape by its code point. -/
def quotedChar (c : Char) : String :=
  if c = '\x00' then "\\0"
  else if c = '\t' then "\\t"
  else if c = '\r' then "\\r"
  else if c = '\n' then "\\n"
  else if c = '"' then "\\\""
  else if c = '\\' then "\\\\"
  else if inRanges hiddenRanges c.toNat then "\\u\x7b" ++ hexText c.toNat ++ "\x7d"
  else c.toString

/-- A text in quotes. -/
def quoted (text : String) : String :=
  "\"" ++ String.join (text.toList.map quotedChar) ++ "\""

end Text

end StyleCascade
