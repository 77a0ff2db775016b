namespace StyleCascade

namespace Utf8

/-- The bytes of a text. -/
def encode (text : String) : List UInt8 :=
  text.toList.flatMap String.utf8EncodeChar

/-- The number of bytes of a text. -/
def size (text : String) : Nat :=
  (encode text).length

/-- A byte behind the first one of a character. -/
def isContinuation (b : UInt8) : Bool :=
  0x80 ≤ b && b ≤ 0xBF

/-- The length of a character, told by its first byte; zero if no character starts with it. -/
def width (lead : UInt8) : Nat :=
  if lead < 0x80 then 1
  else if 0xC2 ≤ lead && lead ≤ 0xDF then 2
  else if 0xE0 ≤ lead && lead ≤ 0xEF then 3
  else if 0xF0 ≤ lead && lead ≤ 0xF4 then 4
  else 0

/-- The second bytes that may follow a first byte. The narrower ranges keep out overlong forms,
surrogates, and values above U+10FFFF. -/
def mayFollow (lead second : UInt8) : Bool :=
  if lead = 0xE0 then 0xA0 ≤ second && second ≤ 0xBF
  else if lead = 0xED then 0x80 ≤ second && second ≤ 0x9F
  else if lead = 0xF0 then 0x90 ≤ second && second ≤ 0xBF
  else if lead = 0xF4 then 0x80 ≤ second && second ≤ 0x8F
  else isContinuation second

/-- The bytes behind `lead` that continue its character, at most as many as the character needs. -/
def trail (lead : UInt8) (rest : List UInt8) : List UInt8 :=
  match rest.take (width lead - 1) with
  | [] => []
  | second :: more => if mayFollow lead second then second :: more.takeWhile isContinuation else []

/-- The bits of a first byte that belong to the code point. -/
def leadBits (lead : UInt8) : Nat :=
  match width lead with
  | 2 => lead.toNat % 32
  | 3 => lead.toNat % 16
  | 4 => lead.toNat % 8
  | _ => lead.toNat

/-- The character of a first byte and its continuation. -/
def character (lead : UInt8) (continuation : List UInt8) : Char :=
  Char.ofNat (continuation.foldl (fun bits b => 64 * bits + b.toNat % 64) (leadBits lead))

/-- Reads bytes as text. Reading never fails: where the bytes are not UTF-8, the longest start of a
character is replaced by one U+FFFD, and reading goes on behind it. -/
def decode : List UInt8 → List Char
  | [] => []
  | lead :: rest =>
    let continuation := trail lead rest
    let c := if continuation.length + 1 = width lead then character lead continuation else '\uFFFD'
    c :: decode (rest.drop continuation.length)
  termination_by bytes => bytes.length
  decreasing_by simp only [List.length_cons, List.length_drop]; omega

/-- The text of bytes, with replacements where they are not UTF-8. -/
def text (bytes : List UInt8) : String :=
  String.ofList (decode bytes)

end Utf8

end StyleCascade
