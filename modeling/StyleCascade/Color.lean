import StyleCascade.Color.Names
import StyleCascade.Number.Numeral
import StyleCascade.Number.Rounding
import StyleCascade.Text.Blank

namespace StyleCascade

/-- A colour and its canonical name: its own if it was written by name, and otherwise `#rrggbb`. -/
structure Color where
  name : String
  red : UInt8
  green : UInt8
  blue : UInt8
  deriving DecidableEq, Repr

/-- Why a text is not a colour. -/
inductive ColorFault
  | empty
  | hex (digits : String)
  | function (text : String)
  | unknown (text : String)
  deriving DecidableEq, Repr

/-- The wording of a fault. -/
def ColorFault.message : ColorFault → String
  | .empty => "empty color string"
  | .hex digits => "invalid hex color: " ++ digits
  | .function text => "invalid rgb function: " ++ text
  | .unknown text => "unknown color name: " ++ text

namespace Color

/-- The two hexadecimal digits of a part. -/
def hexPair (part : UInt8) : List Char :=
  [Ascii.hexDigit (part.toNat / 16), Ascii.hexDigit (part.toNat % 16)]

/-- A colour without a name of its own. -/
def rgb (red green blue : UInt8) : Color :=
  { name := String.ofList ('#' :: (hexPair red ++ hexPair green ++ hexPair blue))
    red := red
    green := green
    blue := blue }

/-- The part that one or two hexadecimal digits write; a single digit stands for two. -/
def hexPart : List Char → UInt8
  | [digit] => UInt8.ofNat (17 * Ascii.hexValue digit)
  | digits => UInt8.ofNat (Ascii.hexNumber digits)

/-- Reads `rrggbb` or `rgb`, without the sign in front. -/
def ofHex? (chars : List Char) : Option Color :=
  if chars.all Ascii.isHexDigit then
    match chars with
    | [r, g, b] => some (rgb (hexPart [r]) (hexPart [g]) (hexPart [b]))
    | [r₁, r₂, g₁, g₂, b₁, b₂] =>
      some (rgb (hexPart [r₁, r₂]) (hexPart [g₁, g₂]) (hexPart [b₁, b₂]))
    | _ => none
  else none

/-- White space inside a colour function. -/
def isGap (c : Char) : Bool :=
  c = ' ' || c = '\t' || c = '\r' || c = '\n'

/-- Drops white space in front. -/
def skipGap (chars : List Char) : List Char :=
  chars.dropWhile isGap

/-- Reads a mark behind white space. -/
def readMark? (mark : Char) (chars : List Char) : Option (List Char) :=
  match skipGap chars with
  | c :: rest => if c = mark then some rest else none
  | [] => none

/-- A part given as a number, brought into the range of a byte. -/
def clippedPart (value : Float) : UInt8 :=
  UInt8.ofNat (max 0 (min 255 (Number.round value))).toNat

/-- Reads a part behind white space: a number, or a percentage of 255. -/
def readPart? (chars : List Char) : Option (UInt8 × List Char) :=
  match Numeral.read? (skipGap chars) with
  | some (numeral, '%' :: rest) => some (clippedPart (numeral.value * 255 / 100), rest)
  | some (numeral, rest) => some (clippedPart numeral.value, rest)
  | none => none

/-- Reads `(r, g, b)` and nothing behind it. -/
def readParts? (chars : List Char) : Option Color := do
  let (red, behind) ← readPart? (← readMark? '(' chars)
  let (green, behind) ← readPart? (← readMark? ',' behind)
  let (blue, behind) ← readPart? (← readMark? ',' behind)
  match ← readMark? ')' behind with
  | [] => some (rgb red green blue)
  | _ => none

/-- Looks a lowercase name up. -/
def ofName? (name : String) : Option Color :=
  (colorNames.lookup name).map fun (red, green, blue) =>
    { name := name, red := red, green := green, blue := blue }

/-- Reads a colour, in any letter case. Hexadecimal digits may lack the sign in front, as old
documents wrote them; names come first. -/
def read (text : String) : Except ColorFault Color :=
  let trimmed := Text.trim text
  let word := Ascii.lower trimmed
  match word.toList with
  | [] => .error .empty
  | '#' :: digits =>
    match ofHex? digits with
    | some color => .ok color
    | none => .error (.hex (String.ofList digits))
  | 'r' :: 'g' :: 'b' :: parts =>
    match readParts? parts with
    | some color => .ok color
    | none => .error (.function word)
  | chars =>
    match ofName? word with
    | some color => .ok color
    | none =>
      match ofHex? chars with
      | some color => .ok color
      | none => .error (.unknown trimmed)

end Color

end StyleCascade
