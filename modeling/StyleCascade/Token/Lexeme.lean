import StyleCascade.Text.Utf8
import StyleCascade.Token.Scan

namespace StyleCascade

/-- A token with its place and its bytes. -/
structure Token where
  kind : TokenKind
  offset : Nat
  bytes : List UInt8
  deriving DecidableEq, Repr

namespace Token

/-- The place just behind a token. -/
def stop (token : Token) : Nat :=
  token.offset + token.bytes.length

/-- The text of a token, with replacements where it is not UTF-8. -/
def text (token : Token) : String :=
  Utf8.text token.bytes

end Token

/-- A token, or bytes that form none. Every byte of a source belongs to one lexeme. -/
inductive Lexeme
  | token (token : Token)
  | invalid (offset : Nat) (bytes : List UInt8)
  deriving DecidableEq, Repr

namespace Lexeme

/-- The lexemes of a source that starts at an offset. -/
def readFrom (offset : Nat) (source : List UInt8) : List Lexeme :=
  match _front : scan source with
  | .done => []
  | .token kind length =>
    .token ⟨kind, offset, source.take length⟩ :: readFrom (offset + length) (source.drop length)
  | .invalid length =>
    .invalid offset (source.take length) :: readFrom (offset + length) (source.drop length)
  termination_by source.length
  decreasing_by
    · have := scan_token_pos _front
      simp only [List.length_drop]; omega
    · have := scan_invalid _front
      simp only [List.length_drop]; omega

/-- The lexemes of a source. -/
def read (source : List UInt8) : List Lexeme :=
  readFrom 0 source

/-- The token of a lexeme, if it is one. -/
def token? : Lexeme → Option Token
  | .token found => some found
  | .invalid .. => none

/-- The lexemes that are tokens. -/
def tokens (lexemes : List Lexeme) : List Token :=
  lexemes.filterMap token?

/-- The number of lexemes that are no tokens. -/
def invalidCount (lexemes : List Lexeme) : Nat :=
  lexemes.countP (fun lexeme => lexeme.token?.isNone)

end Lexeme

/-- The tokens of a source. -/
def tokensOf (source : List UInt8) : List Token :=
  Lexeme.tokens (Lexeme.read source)

end StyleCascade
