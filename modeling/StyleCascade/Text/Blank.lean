import StyleCascade.Text.Ascii

namespace StyleCascade

namespace Text

/-- The property White_Space. -/
def isBlank (c : Char) : Bool :=
  let n := c.toNat
  (9 ≤ n && n ≤ 13) || n = 0x20 || n = 0x85 || n = 0xA0 || n = 0x1680 ||
    (0x2000 ≤ n && n ≤ 0x200A) || n = 0x2028 || n = 0x2029 || n = 0x202F || n = 0x205F || n = 0x3000

/-- Drops characters of a class from both ends. -/
def strip (drop : Char → Bool) (chars : List Char) : List Char :=
  ((chars.dropWhile drop).reverse.dropWhile drop).reverse

/-- Drops white space from both ends. -/
def trim (text : String) : String :=
  String.ofList (strip isBlank text.toList)

/-- The maximal non-empty runs of characters outside a class, after the characters in `run`, which
are kept in reverse. -/
def runsFrom (separator : Char → Bool) (run : List Char) : List Char → List (List Char)
  | [] => if run.isEmpty then [] else [run.reverse]
  | c :: rest =>
    if separator c then
      if run.isEmpty then runsFrom separator [] rest
      else run.reverse :: runsFrom separator [] rest
    else runsFrom separator (c :: run) rest

/-- The maximal non-empty runs of characters outside a class. -/
def runs (separator : Char → Bool) (chars : List Char) : List (List Char) :=
  runsFrom separator [] chars

/-- The words of a text, which white space separates. -/
def words (text : String) : List String :=
  (runs isBlank text.toList).map String.ofList

/-- The pieces of a text between commas, empty ones included. -/
def commaPieces (text : String) : List String :=
  (text.toList.splitOnP (· = ',')).map String.ofList

end Text

end StyleCascade
