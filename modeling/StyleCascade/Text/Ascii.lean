namespace StyleCascade

namespace Ascii

/-- Lowercases the ASCII letters of a text and keeps every other character. -/
def lower (text : String) : String :=
  String.ofList (text.toList.map Char.toLower)

theorem toList_lower (text : String) : (lower text).toList = text.toList.map Char.toLower :=
  String.toList_ofList

/-- Two texts are equal up to ASCII letter case. -/
def sameLetters (a b : String) : Bool :=
  lower a == lower b

/-- Space, tab, line feed, form feed and carriage return. The vertical tab is not among them. -/
def isSpace (c : Char) : Bool :=
  c = ' ' || c = '\t' || c = '\n' || c = '\x0c' || c = '\r'

/-- Characters of names in values: letters, digits, `-`, `_`, the backslash of an escape, and all
of the characters outside ASCII. -/
def isNameChar (c : Char) : Bool :=
  128 ≤ c.toNat || c.isAlphanum || c = '-' || c = '_' || c = '\\'

/-- Hexadecimal digits in either case. -/
def isHexDigit (c : Char) : Bool :=
  c.isDigit || ('a' ≤ c && c ≤ 'f') || ('A' ≤ c && c ≤ 'F')

/-- The value of a hexadecimal digit; zero for any other character. -/
def hexValue (c : Char) : Nat :=
  if c.isDigit then c.toNat - '0'.toNat
  else if 'a' ≤ c && c ≤ 'f' then c.toNat - 'a'.toNat + 10
  else if 'A' ≤ c && c ≤ 'F' then c.toNat - 'A'.toNat + 10
  else 0

/-- The number that hexadecimal digits write, the most significant first. -/
def hexNumber (digits : List Char) : Nat :=
  digits.foldl (fun number digit => 16 * number + hexValue digit) 0

/-- The number that decimal digits write, the most significant first. -/
def decimalNumber (digits : List Char) : Nat :=
  digits.foldl (fun number digit => 10 * number + (digit.toNat - '0'.toNat)) 0

/-- The lowercase hexadecimal digit of a value below sixteen. -/
def hexDigit (value : Nat) : Char :=
  if value < 10 then Char.ofNat (value + '0'.toNat) else Char.ofNat (value - 10 + 'a'.toNat)

/-- The byte of an ASCII character. -/
def byte (c : Char) : UInt8 :=
  UInt8.ofNat c.toNat

/-- Lowercases the byte of an ASCII letter. -/
def lowerByte (b : UInt8) : UInt8 :=
  if 65 ≤ b && b ≤ 90 then b + 32 else b

/-- The bytes of an ASCII text. -/
def bytes (text : String) : List UInt8 :=
  text.toList.map byte

/-- A byte source begins with lowercase ASCII bytes, in any letter case. -/
def beginsWith : List UInt8 → List UInt8 → Bool
  | [], _ => true
  | _ :: _, [] => false
  | w :: word, b :: source => w = lowerByte b && beginsWith word source

/-- The byte of a letter or a digit. -/
def isAlphanumByte (b : UInt8) : Bool :=
  (48 ≤ b && b ≤ 57) || (65 ≤ b && b ≤ 90) || (97 ≤ b && b ≤ 122)

/-- The byte of a space character, as in `isSpace`. -/
def isSpaceByte (b : UInt8) : Bool :=
  b = 32 || b = 9 || b = 10 || b = 12 || b = 13

end Ascii

end StyleCascade
