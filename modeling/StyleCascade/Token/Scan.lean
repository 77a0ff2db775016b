import StyleCascade.Text.Ascii
import StyleCascade.Token.Kind

namespace StyleCascade

/-- What stands at the front of a source. -/
inductive Scan
  | token (kind : TokenKind) (length : Nat)
  /-- Bytes that form no token. -/
  | invalid (length : Nat)
  | done
  deriving DecidableEq, Repr

namespace Scan

/-- Bytes of identifiers: letters, digits, `-`, `_`, `%`, backslash, and all beyond ASCII. -/
def isIdentByte (b : UInt8) : Bool :=
  0x80 ≤ b || Ascii.isAlphanumByte b || b = Ascii.byte '-' || b = Ascii.byte '_' ||
    b = Ascii.byte '%' || b = Ascii.byte '\\'

/-- The tokens of a single mark. -/
def mark? (b : UInt8) : Option TokenKind :=
  if b = Ascii.byte '#' then some .hash
  else if b = Ascii.byte '.' then some .dot
  else if b = Ascii.byte ',' then some .comma
  else if b = Ascii.byte ':' then some .colon
  else if b = Ascii.byte ';' then some .semicolon
  else if b = Ascii.byte '+' then some .plus
  else if b = Ascii.byte '>' then some .greater
  else if b = Ascii.byte '~' then some .tilde
  else if b = Ascii.byte '*' then some .star
  else if b = Ascii.byte '=' then some .equals
  else if b = Ascii.byte '|' then some .pipe
  else if b = Ascii.byte '/' then some .slash
  else if b = Ascii.byte '\x7b' then some .openBrace
  else if b = Ascii.byte '\x7d' then some .closeBrace
  else if b = Ascii.byte '[' then some .openBracket
  else if b = Ascii.byte ']' then some .closeBracket
  else if b = Ascii.byte '(' then some .openParen
  else if b = Ascii.byte ')' then some .closeParen
  else none

/-- The words behind `@`. -/
def atWords : List (List UInt8 × TokenKind) :=
  [(Ascii.bytes "import", .atImport), (Ascii.bytes "media", .atMedia),
    (Ascii.bytes "page", .atPage), (Ascii.bytes "font-face", .atFontFace),
    (Ascii.bytes "charset", .atCharset)]

/-- The length of a comment behind its opening, closing included. -/
def commentLength? : List UInt8 → Option Nat
  | [] => none
  | b :: rest =>
    if b = Ascii.byte '*' && rest.head? = some (Ascii.byte '/') then some 2
    else (commentLength? rest).map (1 + ·)

/-- The length of a string behind its opening quote, closing quote included. A backslash keeps the
byte behind it. -/
def stringLength? (quote : UInt8) : List UInt8 → Option Nat
  | [] => none
  | b :: rest =>
    if b = Ascii.byte '\\' then
      match rest with
      | [] => none
      | _ :: more => (stringLength? quote more).map (2 + ·)
    else if b = quote then some 1
    else (stringLength? quote rest).map (1 + ·)

/-- The length of the identifier in front. A backslash keeps the byte behind it. Identifiers are
wider than names: `12px` is one. -/
def identLength : List UInt8 → Nat
  | [] => 0
  | b :: rest =>
    if isIdentByte b then
      if b = Ascii.byte '\\' then
        match rest with
        | [] => 1
        | _ :: more => 2 + identLength more
      else 1 + identLength rest
    else 0

/-- What stands behind `@`: a known word that ends there. -/
def atWord (rest : List UInt8) : Scan :=
  match atWords.find? (fun (word, _) =>
      Ascii.beginsWith word rest && !(rest.drop word.length).head?.any isIdentByte) with
  | some (word, kind) => .token kind (1 + word.length)
  | none => .invalid 1

/-- What stands behind `!`. -/
def importantMark (rest : List UInt8) : Scan :=
  let gap := (rest.takeWhile Ascii.isSpaceByte).length
  if Ascii.beginsWith (Ascii.bytes "important") (rest.drop gap) then .token .important (1 + gap + 9)
  else .invalid 1

/-- What stands at the front of a source, with a function read as an identifier and a
parenthesis. -/
def flat : List UInt8 → Scan
  | [] => .done
  | b :: rest =>
    if Ascii.isSpaceByte b then .token .space (1 + (rest.takeWhile Ascii.isSpaceByte).length)
    else if (Ascii.bytes "/*").isPrefixOf (b :: rest) then
      match commentLength? (rest.drop 1) with
      | some length => .token .space (2 + length)
      | none => .token .space (1 + rest.length)
    else if (Ascii.bytes "<!--").isPrefixOf (b :: rest) then .token .space 4
    else if (Ascii.bytes "-->").isPrefixOf (b :: rest) then .token .space 3
    else if b = Ascii.byte '"' || b = Ascii.byte '\'' then
      match stringLength? b rest with
      | some length => .token .str (1 + length)
      | none => .invalid (1 + rest.length)
    else if b = Ascii.byte '@' then atWord rest
    else if b = Ascii.byte '!' then importantMark rest
    else if isIdentByte b then .token .ident (identLength (b :: rest))
    else
      match mark? b with
      | some kind => .token kind 1
      | none => .invalid 1

theorem identLength_pos {b : UInt8} {rest : List UInt8} (ident : isIdentByte b = true) :
    0 < identLength (b :: rest) := by
  unfold identLength
  simp only [ident, if_true]
  split
  · split <;> omega
  · omega

theorem atWord_token_pos {rest : List UInt8} {kind : TokenKind} {length : Nat}
    (read : atWord rest = .token kind length) : 0 < length := by
  unfold atWord at read
  split at read
  · cases read; omega
  · cases read

theorem atWord_invalid {rest : List UInt8} {length : Nat} (read : atWord rest = .invalid length) :
    length = 1 := by
  unfold atWord at read
  split at read <;> cases read
  rfl

theorem importantMark_token_pos {rest : List UInt8} {kind : TokenKind} {length : Nat}
    (read : importantMark rest = .token kind length) : 0 < length := by
  unfold importantMark at read
  simp only at read
  split at read <;> cases read
  omega

theorem importantMark_invalid {rest : List UInt8} {length : Nat}
    (read : importantMark rest = .invalid length) : length = 1 := by
  unfold importantMark at read
  simp only at read
  split at read <;> cases read
  rfl

/-- A token has at least one byte. -/
theorem flat_token_pos {source : List UInt8} {kind : TokenKind} {length : Nat}
    (read : flat source = .token kind length) : 0 < length := by
  unfold flat at read
  split at read
  · cases read
  · next b rest =>
    split at read
    · cases read; omega
    split at read
    · split at read <;> cases read <;> omega
    split at read
    · cases read; omega
    split at read
    · cases read; omega
    split at read
    · split at read <;> cases read
      omega
    split at read
    · exact atWord_token_pos read
    split at read
    · exact importantMark_token_pos read
    split at read
    · next ident => cases read; exact identLength_pos ident
    · split at read <;> cases read
      omega

/-- Bytes without a token are a single byte, or an open string through the end. -/
theorem flat_invalid {source : List UInt8} {length : Nat} (read : flat source = .invalid length) :
    0 < source.length ∧ (length = 1 ∨ length = source.length) := by
  unfold flat at read
  split at read
  · cases read
  · next b rest =>
    refine ⟨by simp, ?_⟩
    split at read
    · cases read
    split at read
    · split at read <;> cases read
    split at read
    · cases read
    split at read
    · cases read
    split at read
    · split at read <;> cases read
      right; simp; omega
    split at read
    · exact Or.inl (atWord_invalid read)
    split at read
    · exact Or.inl (importantMark_invalid read)
    split at read
    · cases read
    · split at read <;> cases read
      exact Or.inl rfl

theorem flat_eq_done_iff {source : List UInt8} : flat source = .done ↔ source = [] := by
  constructor
  · intro read
    unfold flat at read
    split at read
    · rfl
    · next b rest =>
      exfalso
      split at read
      · cases read
      split at read
      · split at read <;> cases read
      split at read
      · cases read
      split at read
      · cases read
      split at read
      · split at read <;> cases read
      split at read
      · unfold atWord at read; split at read <;> cases read
      split at read
      · unfold importantMark at read; simp only at read; split at read <;> cases read
      split at read
      · cases read
      · split at read <;> cases read
  · rintro rfl; rfl

theorem length_pos_of_flat_token {source : List UInt8} {kind : TokenKind} {length : Nat}
    (read : flat source = .token kind length) : 0 < source.length := by
  cases source with
  | nil => rw [flat_eq_done_iff.mpr rfl] at read; cases read
  | cons => simp

/-- The length of a function behind its parenthesis, inside `depth` further ones, through the one
that closes it. Fails if the source ends first or an open string takes the rest. -/
def functionLength? (depth : Nat) (source : List UInt8) : Option Nat :=
  match read : flat source with
  | .done => none
  | .token .closeParen length =>
    if depth = 0 then some length
    else (functionLength? (depth - 1) (source.drop length)).map (length + ·)
  | .token .openParen length =>
    (functionLength? (depth + 1) (source.drop length)).map (length + ·)
  | .token _ length => (functionLength? depth (source.drop length)).map (length + ·)
  | .invalid length =>
    if (source.drop length).isEmpty then none
    else (functionLength? depth (source.drop 1)).map (1 + ·)
  termination_by source.length
  decreasing_by
    · have := flat_token_pos read; have := length_pos_of_flat_token read
      simp only [List.length_drop]; omega
    · have := flat_token_pos read; have := length_pos_of_flat_token read
      simp only [List.length_drop]; omega
    · have := flat_token_pos read; have := length_pos_of_flat_token read
      simp only [List.length_drop]; omega
    · have := flat_invalid read
      simp only [List.length_drop]; omega

end Scan

/-- What stands at the front of a source. An identifier with a parenthesis behind it is the start
of a function; if that is never closed, no token stands there and the rest is lost. -/
def scan (source : List UInt8) : Scan :=
  match Scan.flat source with
  | .token .ident length =>
    match source.drop length with
    | b :: arguments =>
      if b = Ascii.byte '(' then
        match Scan.functionLength? 0 arguments with
        | some more => .token .function (length + 1 + more)
        | none => .invalid source.length
      else .token .ident length
    | [] => .token .ident length
  | other => other

/-- A token has at least one byte. -/
theorem scan_token_pos {source : List UInt8} {kind : TokenKind} {length : Nat}
    (read : scan source = .token kind length) : 0 < length ∧ 0 < source.length := by
  unfold scan at read
  split at read
  · next n first =>
    have size := Scan.flat_token_pos first
    have some := Scan.length_pos_of_flat_token first
    split at read
    · split at read
      · split at read <;> cases read
        omega
      · cases read; omega
    · cases read; omega
  · exact ⟨Scan.flat_token_pos read, Scan.length_pos_of_flat_token read⟩

/-- Bytes without a token are a single byte, or an open string or function through the end. -/
theorem scan_invalid {source : List UInt8} {length : Nat} (read : scan source = .invalid length) :
    0 < source.length ∧ (length = 1 ∨ length = source.length) := by
  unfold scan at read
  split at read
  · next n first =>
    have some := Scan.length_pos_of_flat_token first
    split at read
    · split at read
      · split at read <;> cases read
        exact ⟨some, Or.inr rfl⟩
      · cases read
    · cases read
  · exact Scan.flat_invalid read

end StyleCascade
