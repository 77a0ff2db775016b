import StyleCascade.Declared.Declaration
import StyleCascade.Token.Skip

namespace StyleCascade

namespace Declaration

/-- Tokens that end a value without being part of it. -/
def endsValue (tokens : List Token) : Bool :=
  match tokens with
  | [] => true
  | token :: _ => token.kind = .semicolon || token.kind = .closeBrace

/-- Takes the tokens of a value, and whether it is important. -/
def takeValue : List Token → Reading (List Token × Bool)
  | [] => .ok (([], false), [])
  | token :: rest =>
    if endsValue (token :: rest) then .ok (([], false), token :: rest)
    else if token.kind = .important then
      let behind := Token.skipSpace rest
      if endsValue behind then .ok (([], true), behind)
      else .error ⟨.tokenAfterImportant, behind⟩
    else if token.kind = .openBrace then .error ⟨.blockInValue, token :: rest⟩
    else
      (takeValue rest).map (fun ((value, important), last) => ((token :: value, important), last))

/-- The text that tokens span in their source, without white space at the end. It is cut from the
source, so it keeps comments, and bytes that form no token. -/
def valueText (source : List UInt8) (value : List Token) : String :=
  match value, (value.filter (fun token => token.kind ≠ .space)).getLast? with
  | first :: _, some last =>
    Utf8.text ((source.take last.stop).drop first.offset)
  | _, _ => ""

/-- Takes a declaration: a name, a colon, and a value that is not empty. -/
def take (source : List UInt8) (tokens : List Token) :
    Except Halt (Declaration × List Token) := do
  let (name, behind) ← Token.takeWord tokens
  let (_, behind) ← Token.expect .colon .expectedColon (Token.skipSpace behind)
  let ((value, important), rest) ← takeValue (Token.skipSpace behind)
  if value = [] then .error ⟨.emptyValue, rest⟩
  else .ok (⟨name, valueText source value, important⟩, rest)

theorem length_le_of_takeValue {tokens rest : List Token} {value : List Token × Bool}
    (read : takeValue tokens = .ok (value, rest)) : rest.length ≤ tokens.length := by
  induction tokens generalizing value with
  | nil => cases read; simp
  | cons token more ih =>
    rw [takeValue] at read
    have space := Token.length_skipSpace_le more
    split at read
    · cases read; exact Nat.le_refl _
    split at read
    · simp only at read
      split at read <;> cases read
      simp only [List.length_cons]; omega
    split at read
    · cases read
    · obtain ⟨_, taken, same⟩ := Reading.map_eq_ok.mp read
      cases same
      have := ih taken
      simp only [List.length_cons]; omega

theorem length_lt_of_take {source : List UInt8} {tokens rest : List Token}
    {declaration : Declaration} (read : take source tokens = .ok (declaration, rest)) :
    rest.length < tokens.length := by
  unfold take at read
  obtain ⟨⟨name, behind⟩, word, read⟩ := Reading.bind_eq_ok.mp read
  obtain ⟨⟨_, afterColon⟩, colon, read⟩ := Reading.bind_eq_ok.mp read
  obtain ⟨⟨value, last⟩, valued, read⟩ := Reading.bind_eq_ok.mp read
  simp only at read
  split at read <;> cases read
  have first := Token.length_lt_of_takeWord word
  have gap := Token.length_skipSpace_le behind
  have second := Token.length_lt_of_expect colon
  have gapColon := Token.length_skipSpace_le afterColon
  have third := length_le_of_takeValue valued
  omega

theorem length_le_of_takeValue_halt {tokens : List Token} {halt : Halt}
    (read : takeValue tokens = .error halt) : halt.rest.length ≤ tokens.length := by
  induction tokens with
  | nil => cases read
  | cons token more ih =>
    rw [takeValue] at read
    have space := Token.length_skipSpace_le more
    split at read
    · cases read
    split at read
    · simp only at read
      split at read <;> cases read
      simp only [List.length_cons]; omega
    split at read
    · cases read; exact Nat.le_refl _
    · have := ih (Reading.map_eq_error.mp read)
      simp only [List.length_cons]; omega

/-- A declaration that halts does not go back behind its start. -/
theorem length_le_of_take_halt {source : List UInt8} {tokens : List Token} {halt : Halt}
    (read : take source tokens = .error halt) : halt.rest.length ≤ tokens.length := by
  unfold take at read
  rcases Reading.bind_eq_error.mp read with word | ⟨⟨name, behind⟩, word, read⟩
  · exact Nat.le_of_eq (congrArg List.length (Token.rest_of_takeWord_halt word))
  have first := Token.length_lt_of_takeWord word
  have gap := Token.length_skipSpace_le behind
  rcases Reading.bind_eq_error.mp read with colon | ⟨⟨_, afterColon⟩, colon, read⟩
  · rw [Token.rest_of_expect_halt colon]
    omega
  have second := Token.length_lt_of_expect colon
  have gapColon := Token.length_skipSpace_le afterColon
  rcases Reading.bind_eq_error.mp read with valued | ⟨⟨value, last⟩, valued, read⟩
  · have third := length_le_of_takeValue_halt valued
    omega
  have third := length_le_of_takeValue valued
  simp only at read
  split at read <;> cases read
  simp only
  omega

end Declaration

/-- Declarations in a row, the fault that stopped them if there is one, and the tokens from there
on. -/
structure DeclarationRun where
  declarations : List Declaration
  stop : Option SyntaxFault
  rest : List Token
  deriving DecidableEq, Repr

namespace DeclarationRun

/-- Puts a declaration in front. -/
def after (run : DeclarationRun) (declaration : Declaration) : DeclarationRun :=
  { run with declarations := declaration :: run.declarations }

/-- Reads declarations up to a token of the closing kind, to the end, or to a fault. -/
def read (source : List UInt8) (closing : Option TokenKind) (tokens : List Token) :
    DeclarationRun :=
  match _front : Token.skipSpace tokens with
  | [] => ⟨[], none, []⟩
  | token :: rest =>
    if closing = some token.kind then ⟨[], none, token :: rest⟩
    else if token.kind = .semicolon then read source closing rest
    else if token.kind = .ident then
      match _taken : Declaration.take source (token :: rest) with
      | .ok (declaration, behind) => (read source closing behind).after declaration
      | .error halt => ⟨[], some halt.fault, halt.rest⟩
    else ⟨[], some .expectedPropertyName, token :: rest⟩
  termination_by tokens.length
  decreasing_by
    · have := Token.length_skipSpace_le tokens
      rw [_front, List.length_cons] at this
      omega
    · have := Token.length_skipSpace_le tokens
      have := Declaration.length_lt_of_take _taken
      rw [_front] at *
      omega

theorem length_read_le (source : List UInt8) (closing : Option TokenKind)
    (tokens : List Token) : (read source closing tokens).rest.length ≤ tokens.length := by
  fun_induction read source closing tokens with
  | case1 => simp
  | case2 tokens token rest front =>
    have := Token.length_skipSpace_le tokens
    rw [front] at this
    exact this
  | case3 tokens token rest front _ _ ih =>
    have := Token.length_skipSpace_le tokens
    rw [front, List.length_cons] at this
    omega
  | case4 tokens token rest front _ _ _ declaration behind taken ih =>
    have := Token.length_skipSpace_le tokens
    have := Declaration.length_lt_of_take taken
    rw [front] at *
    simp only [after]
    omega
  | case5 tokens token rest front _ _ _ halt taken =>
    have := Token.length_skipSpace_le tokens
    have := Declaration.length_le_of_take_halt taken
    rw [front] at *
    simp only
    omega
  | case6 tokens token rest front =>
    have := Token.length_skipSpace_le tokens
    rw [front] at this
    exact this

/-- No tokens have no fault. -/
theorem read_nil (source : List UInt8) (closing : Option TokenKind) :
    read source closing [] = ⟨[], none, []⟩ := by
  rw [read]
  rfl

end DeclarationRun

end StyleCascade
