namespace StyleCascade

/-- The kind of a token. White space and comments are `space`; a string has its quotes, and a
function goes from its name through the matching parenthesis. -/
inductive TokenKind
  | space
  | ident
  | str
  | function
  | hash
  | dot
  | comma
  | colon
  | semicolon
  | plus
  | greater
  | tilde
  | star
  | equals
  | pipe
  | slash
  | openBrace
  | closeBrace
  | openBracket
  | closeBracket
  | openParen
  | closeParen
  /-- The mark `!important`. -/
  | important
  | atImport
  | atMedia
  | atPage
  | atFontFace
  | atCharset
  deriving DecidableEq, Repr

end StyleCascade
