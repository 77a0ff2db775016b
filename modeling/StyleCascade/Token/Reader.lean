import StyleCascade.Declared.Component
import StyleCascade.Text.Lowercase
import StyleCascade.Token.Lexeme

namespace StyleCascade

/-- Why tokens could not be read. -/
inductive SyntaxFault
  | expectedIdentifier
  | expectedBlock
  | expectedMoreOrBlock
  | unexpectedInSelector
  | expectedSelector
  | expectedEquals
  | badAttributeOperator
  | expectedAttributeValue
  | badAttributeString
  | expectedBracket
  | expectedPseudoName
  | badPseudoFunction
  | expectedPropertyName
  | expectedColon
  | tokenAfterImportant
  | blockInValue
  | emptyValue
  | expectedImportLocation
  | unterminatedImport
  | badMediaList
  | unexpectedClose
  deriving DecidableEq, Repr

/-- The wording of a fault. -/
def SyntaxFault.message : SyntaxFault → String
  | .expectedIdentifier => "expected an identifier"
  | .expectedBlock => "expected '\x7b'"
  | .expectedMoreOrBlock => "expected ',' or '\x7b' after selector"
  | .unexpectedInSelector => "unexpected token in selector"
  | .expectedSelector => "expected a selector"
  | .expectedEquals => "expected '=' in attribute selector"
  | .badAttributeOperator => "bad attribute selector operator"
  | .expectedAttributeValue => "expected attribute value"
  | .badAttributeString => "bad string in attribute selector"
  | .expectedBracket => "expected ']'"
  | .expectedPseudoName => "expected pseudo-class name"
  | .badPseudoFunction => "bad pseudo-class function"
  | .expectedPropertyName => "expected a property name"
  | .expectedColon => "expected ':' after property name"
  | .tokenAfterImportant => "unexpected token after !important"
  | .blockInValue => "unexpected '\x7b' in value"
  | .emptyValue => "empty property value"
  | .expectedImportLocation => "expected @import location"
  | .unterminatedImport => "unterminated @import"
  | .badMediaList => "bad media list"
  | .unexpectedClose => "unexpected '\x7d'"

/-- A fault, and the tokens from the place where reading gave up. -/
structure Halt where
  fault : SyntaxFault
  rest : List Token
  deriving DecidableEq, Repr

/-- The outcome of reading: a result with the tokens behind it, or a halt. -/
abbrev Reading (α : Type) := Except Halt (α × List Token)

namespace Reading

variable {α β : Type} {first : Except Halt α} {next : α → Except Halt β} {result : β} {halt : Halt}

/-- Two steps have a result if the second one has it, going on with that of the first. -/
theorem bind_eq_ok :
    first >>= next = .ok result ↔ ∃ found, first = .ok found ∧ next found = .ok result := by
  cases first <;> simp [bind, Except.bind]

/-- Two steps halt where one of them does. -/
theorem bind_eq_error :
    first >>= next = .error halt ↔
      first = .error halt ∨ ∃ found, first = .ok found ∧ next found = .error halt := by
  cases first <;> simp [bind, Except.bind]

theorem map_eq_ok {f : α → β} :
    first.map f = .ok result ↔ ∃ found, first = .ok found ∧ f found = result := by
  cases first <;> simp [Except.map]

theorem map_eq_error {f : α → β} : first.map f = .error halt ↔ first = .error halt := by
  cases first <;> simp [Except.map]

end Reading

namespace Token

/-- Drops white space in front. -/
def skipSpace (tokens : List Token) : List Token :=
  tokens.dropWhile (fun token => token.kind = .space)

/-- Takes a token of a kind. -/
def expect (kind : TokenKind) (fault : SyntaxFault) : List Token → Reading Token
  | [] => .error ⟨fault, []⟩
  | token :: rest => if token.kind = kind then .ok (token, rest) else .error ⟨fault, token :: rest⟩

/-- The identifier that a token writes, with its escapes resolved. -/
def identifier (token : Token) : String :=
  Component.unescapeText token.text

/-- Takes an identifier and keeps its letter case. -/
def takeName (tokens : List Token) : Reading String :=
  (expect .ident .expectedIdentifier tokens).map (fun (token, rest) => (token.identifier, rest))

/-- Takes an identifier in lowercase. -/
def takeWord (tokens : List Token) : Reading String :=
  (takeName tokens).map (fun (name, rest) => (Text.lowercase name, rest))

theorem length_skipSpace_le (tokens : List Token) : (skipSpace tokens).length ≤ tokens.length :=
  List.Sublist.length_le (List.dropWhile_sublist _)

theorem length_lt_of_expect {kind : TokenKind} {fault : SyntaxFault} {tokens rest : List Token}
    {token : Token} (read : expect kind fault tokens = .ok (token, rest)) :
    rest.length < tokens.length := by
  cases tokens with
  | nil => cases read
  | cons first more =>
    simp only [expect] at read
    split at read <;> cases read
    simp

theorem length_lt_of_takeName {tokens rest : List Token} {name : String}
    (read : takeName tokens = .ok (name, rest)) : rest.length < tokens.length := by
  obtain ⟨_, taken, same⟩ := Reading.map_eq_ok.mp read
  cases same
  exact length_lt_of_expect taken

theorem length_lt_of_takeWord {tokens rest : List Token} {word : String}
    (read : takeWord tokens = .ok (word, rest)) : rest.length < tokens.length := by
  obtain ⟨_, taken, same⟩ := Reading.map_eq_ok.mp read
  cases same
  exact length_lt_of_takeName taken

/-- Where the expected token is missing, nothing is taken. -/
theorem rest_of_expect_halt {kind : TokenKind} {fault : SyntaxFault} {tokens : List Token}
    {halt : Halt} (read : expect kind fault tokens = .error halt) : halt.rest = tokens := by
  cases tokens with
  | nil => cases read; rfl
  | cons first more =>
    simp only [expect] at read
    split at read <;> cases read
    rfl

theorem rest_of_takeName_halt {tokens : List Token} {halt : Halt}
    (read : takeName tokens = .error halt) : halt.rest = tokens :=
  rest_of_expect_halt (Reading.map_eq_error.mp read)

theorem rest_of_takeWord_halt {tokens : List Token} {halt : Halt}
    (read : takeWord tokens = .error halt) : halt.rest = tokens :=
  rest_of_takeName_halt (Reading.map_eq_error.mp read)

end Token

end StyleCascade
