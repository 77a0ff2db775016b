import StyleCascade.Declared.Value
import StyleCascade.Number.Numeral
import StyleCascade.Text.Blank
import StyleCascade.Text.Lowercase

namespace StyleCascade

namespace Component

/-- A component that is read so far, kept in reverse, if there is any of it. -/
def finish (part : List Char) : List (List Char) :=
  if part.isEmpty then [] else [part.reverse]

/-- Splits text while `part` is read so far, inside `depth` parentheses, and inside the quotes
`quote` if they are open. A backslash inside quotes keeps the character behind it. -/
def splitFrom (part : List Char) (depth : Nat) (quote : Option Char) :
    List Char → List (List Char)
  | [] => finish part
  | c :: rest =>
    match quote with
    | some q =>
      if c = '\\' then
        match rest with
        | [] => finish (c :: part)
        | kept :: more => splitFrom (kept :: c :: part) depth quote more
      else splitFrom (c :: part) depth (if c = q then none else quote) rest
    | none =>
      if c = '"' || c = '\'' then splitFrom (c :: part) depth (some c) rest
      else if c = '(' then splitFrom (c :: part) (depth + 1) none rest
      else if c = ')' then splitFrom (c :: part) (depth - 1) none rest
      else if c = ',' && depth = 0 then finish part ++ [c] :: splitFrom [] depth none rest
      else if Ascii.isSpace c && depth = 0 then finish part ++ splitFrom [] depth none rest
      else splitFrom (c :: part) depth none rest

/-- The components of a text. White space separates them and a comma is one of its own, save inside
quotes and parentheses. -/
def split (text : String) : List String :=
  (splitFrom [] 0 none text.toList).map String.ofList

/-- The character of a code point, or U+FFFD if there is none. -/
def codePoint (number : Nat) : Char :=
  if number.isValidChar then Char.ofNat number else '\uFFFD'

/-- Drops a space in front; it ends the digits of an escape. -/
def dropSpace : List Char → List Char
  | ' ' :: rest => rest
  | chars => chars

theorem length_dropSpace_le (chars : List Char) : (dropSpace chars).length ≤ chars.length := by
  unfold dropSpace; split <;> simp

/-- Resolves escapes. A backslash with up to six hexadecimal digits is a code point; with any
other character it is that character; at the end it is dropped. -/
def unescape : List Char → List Char
  | [] => []
  | c :: rest =>
    if c = '\\' then
      match rest.take 6 |>.takeWhile Ascii.isHexDigit with
      | [] =>
        match rest with
        | [] => []
        | kept :: more => kept :: unescape more
      | digits =>
        codePoint (Ascii.hexNumber digits) :: unescape (dropSpace (rest.drop digits.length))
    else c :: unescape rest
  termination_by chars => chars.length
  decreasing_by
    · simp only [List.length_cons]; omega
    · have bound := length_dropSpace_le (rest.drop digits.length)
      simp only [List.length_drop, List.length_cons] at *
      omega
    · simp

/-- Resolves the escapes of a text. -/
def unescapeText (text : String) : String :=
  String.ofList (unescape text.toList)

/-- The text between matching quotes. A closing quote behind a single backslash closes nothing. -/
def quotedChars? : List Char → Option (List Char)
  | [] => none
  | quote :: rest =>
    if (quote = '"' || quote = '\'') && rest.getLast? = some quote then
      let inner := rest.dropLast
      if inner.getLast? = some '\\' && inner.dropLast.getLast? ≠ some '\\' then none
      else some inner
    else none

/-- The string that a quoted text writes. -/
def unquote? (text : String) : Option String :=
  (quotedChars? text.toList).map (fun inner => String.ofList (unescape inner))

/-- Splits `name(arguments)`. -/
def splitFunction? (chars : List Char) : Option (List Char × List Char) :=
  let name := chars.takeWhile (· ≠ '(')
  match chars.dropWhile (· ≠ '(') with
  | _ :: behind =>
    if name ≠ [] && name.all Ascii.isNameChar && behind.getLast? = some ')' then
      some (name, behind.dropLast)
    else none
  | [] => none

/-- The value of a function. Addresses may be quoted; scripts are kept as they are. -/
def ofFunction (name arguments : String) : Value :=
  if name = "url" then .url ((unquote? arguments).getD arguments)
  else if name = "script" then .script arguments
  else .function name arguments

/-- The value of a numeral with what follows it: nothing, a percent sign, or a unit. -/
def ofNumeral? (numeral : Numeral) : List Char → Option Value
  | [] => some (.number numeral.value (String.ofList numeral.chars))
  | ['%'] => some (.percent numeral.value)
  | suffix =>
    if suffix.all Char.isAlpha then
      (LengthUnit.ofSuffix? (String.ofList (suffix.map Char.toLower))).map
        (.dimension numeral.value)
    else none

/-- Reads a whole text as a number, a percentage or a dimension. -/
def numeric? (text : String) : Option Value :=
  match Numeral.read? text.toList with
  | some (numeral, rest) => ofNumeral? numeral rest
  | none => none

/-- The form of a text that is neither quoted, nor a hash, nor a function. -/
def ofPlain (text : String) : Value :=
  match numeric? text with
  | some value => value
  | none =>
    if text.toList ≠ [] && text.toList.all Ascii.isNameChar then
      .ident (Text.lowercase (unescapeText text))
    else .raw text

/-- The form of a component. -/
def classify (text : String) : Value :=
  match unquote? text with
  | some inner => .str inner
  | none =>
    match text.toList with
    | '#' :: digits =>
      if digits ≠ [] && digits.all Ascii.isNameChar then .hash (String.ofList digits)
      else .raw text
    | chars =>
      match splitFunction? chars with
      | some (name, arguments) =>
        ofFunction (Ascii.lower (String.ofList name)) (Text.trim (String.ofList arguments))
      | none => ofPlain text

end Component

/-- The value of a whole declaration: the form of its only component, or else its text. -/
def Value.ofText (source : String) : Value :=
  let trimmed := Text.trim source
  match Component.split trimmed with
  | [only] => if only = trimmed then Component.classify trimmed else .raw trimmed
  | _ => .raw trimmed

end StyleCascade
