import StyleCascade.Declared.Reader
import StyleCascade.Selector.Reader
import StyleCascade.Sheet.Statement

namespace StyleCascade

/-- A statement that failed: the declarations read so far, and where it halted. -/
structure StatementHalt where
  declarations : List Declaration
  halt : Halt
  deriving DecidableEq, Repr

/-- The outcome of a statement: the statements it comes to, and the tokens behind it. -/
abbrev StatementReading := Except StatementHalt (List Statement × List Token)

namespace Statement

/-- The place of the next token, or the length of the source. -/
def offsetOf (source : List UInt8) : List Token → Nat
  | [] => source.length
  | token :: _ => token.offset

/-- Takes a closing brace, if it is next. -/
def dropClose : List Token → List Token
  | [] => []
  | token :: rest => if token.kind = .closeBrace then rest else token :: rest

/-- Takes a block behind its opening brace. The end of the source closes every block. -/
def takeBlock (source : List UInt8) (selectors : List (Selector × Specificity))
    (tokens : List Token) : StatementReading :=
  let run := DeclarationRun.read source (some .closeBrace) tokens
  match run.stop with
  | some cause => .error ⟨run.declarations, ⟨cause, run.rest⟩⟩
  | none => .ok ([.ruleset selectors run.declarations], dropClose run.rest)

/-- Takes selectors and their block. -/
def takeRuleset (source : List UInt8) (tokens : List Token) : StatementReading :=
  match Selector.takeList tokens with
  | .error halt => .error ⟨[], halt⟩
  | .ok (selectors, behind) =>
    match Token.expect .openBrace .expectedBlock behind with
    | .error halt => .error ⟨[], halt⟩
    | .ok (_, rest) => takeBlock source selectors rest

/-- Passes over a page or font description: to its semicolon, or over its block. -/
def takeDescription : List Token → StatementReading
  | [] => .ok ([], [])
  | token :: rest =>
    match token.kind with
    | .semicolon => .ok ([], rest)
    | .openBrace => .ok ([], Token.skipBlock 0 rest)
    | .closeBrace => .error ⟨[], ⟨.unexpectedClose, rest⟩⟩
    | _ => takeDescription rest

/-- The address that a token writes. -/
def address? (token : Token) : Option String :=
  match token.kind, Component.classify token.text with
  | .str, .str url => some url
  | .function, .url url => some url
  | _, _ => none

/-- Passes over the media behind an address, which are not looked at. -/
def takeLinkMedia : List Token → Reading Unit
  | [] => .ok ((), [])
  | token :: rest =>
    match token.kind with
    | .semicolon => .ok ((), rest)
    | .openBrace | .closeBrace => .error ⟨.unterminatedImport, rest⟩
    | _ => takeLinkMedia rest

/-- Takes the address of another sheet, and what follows it. -/
def takeLink (tokens : List Token) : StatementReading :=
  match Token.skipSpace tokens with
  | [] => .error ⟨[], ⟨.expectedImportLocation, []⟩⟩
  | token :: rest =>
    match address? token with
    | none => .error ⟨[], ⟨.expectedImportLocation, rest⟩⟩
    | some url =>
      match takeLinkMedia rest with
      | .error halt => .error ⟨[], halt⟩
      | .ok (_, behind) => .ok ([.link url], behind)

/-- Takes names of media and the opening brace behind them. Commas may be missing or repeated. -/
def takeMediaNames : List Token → Reading (List String)
  | [] => .error ⟨.badMediaList, []⟩
  | token :: rest =>
    match token.kind with
    | .space | .comma => takeMediaNames rest
    | .ident =>
      (takeMediaNames rest).map (fun (names, last) =>
        (Text.lowercase token.identifier :: names, last))
    | .openBrace => .ok ([], rest)
    | _ => .error ⟨.badMediaList, token :: rest⟩

/-- A block for the named media applies where one of the media in force is named, or all are
meant. -/
def mediaApply (media names : List String) : Bool :=
  names.isEmpty || names.any (fun name => name = "all" || media.contains name)

/-- Takes a statement that may stand anywhere. -/
def takePlain (source : List UInt8) (token : Token) (rest : List Token) : StatementReading :=
  match token.kind with
  | .atCharset => .ok ([], Token.skipPastSemicolon rest)
  | .atPage | .atFontFace => takeDescription rest
  | _ => takeRuleset source (token :: rest)

/-- The statements of an outcome. After a fault, the tokens are those behind the statement that
begins with `start`. -/
def settle (source : List UInt8) (start : List Token) :
    StatementReading → List Statement × List Token
  | .ok (statements, rest) => (statements, rest)
  | .error failed =>
    ([.fault failed.declarations (offsetOf source failed.halt.rest) failed.halt.fault],
      Token.recover start)

theorem length_dropClose_le (tokens : List Token) : (dropClose tokens).length ≤ tokens.length := by
  cases tokens with
  | nil => simp [dropClose]
  | cons token rest => simp only [dropClose]; split <;> simp

/-- Bounds like this one are what the readers terminate by. -/
theorem length_le_of_takeBlock {source : List UInt8} {selectors : List (Selector × Specificity)}
    {tokens rest : List Token} {statements : List Statement}
    (read : takeBlock source selectors tokens = .ok (statements, rest)) :
    rest.length ≤ tokens.length := by
  have run := DeclarationRun.length_read_le source (some .closeBrace) tokens
  have close := length_dropClose_le (DeclarationRun.read source (some .closeBrace) tokens).rest
  simp only [takeBlock] at read
  split at read <;> cases read
  omega

theorem length_lt_of_takeRuleset {source : List UInt8} {tokens rest : List Token}
    {statements : List Statement} (read : takeRuleset source tokens = .ok (statements, rest)) :
    rest.length < tokens.length := by
  unfold takeRuleset at read
  split at read
  · cases read
  · next selectors behind listed =>
    have first := Selector.length_lt_of_takeList listed
    split at read
    · cases read
    · next brace inner opened =>
      have second := Token.length_lt_of_expect opened
      have third := length_le_of_takeBlock read
      omega

theorem length_le_of_takeDescription {tokens rest : List Token} {statements : List Statement}
    (read : takeDescription tokens = .ok (statements, rest)) : rest.length ≤ tokens.length := by
  fun_induction takeDescription tokens with
  | case1 => cases read; simp
  | case2 => cases read; simp
  | case3 token more =>
    cases read
    have := Token.length_skipBlock_le 0 more
    simp only [List.length_cons]; omega
  | case4 => cases read
  | case5 token more _ _ _ ih =>
    have := ih read
    simp only [List.length_cons]; omega

theorem length_le_of_takeLinkMedia {tokens rest : List Token} {nothing : Unit}
    (read : takeLinkMedia tokens = .ok (nothing, rest)) : rest.length ≤ tokens.length := by
  fun_induction takeLinkMedia tokens with
  | case1 => cases read; simp
  | case2 => cases read; simp
  | case3 => cases read
  | case4 => cases read
  | case5 token more _ _ _ ih =>
    have := ih read
    simp only [List.length_cons]; omega

theorem length_le_of_takeLink {tokens rest : List Token} {statements : List Statement}
    (read : takeLink tokens = .ok (statements, rest)) : rest.length ≤ tokens.length := by
  have gap := Token.length_skipSpace_le tokens
  unfold takeLink at read
  split at read
  · cases read
  · next token more front =>
    rw [front, List.length_cons] at gap
    split at read
    · cases read
    split at read
    · cases read
    · next nothing behind passed =>
      have := length_le_of_takeLinkMedia passed
      cases read
      omega

theorem length_lt_of_takeMediaNames {tokens rest : List Token} {names : List String}
    (read : takeMediaNames tokens = .ok (names, rest)) : rest.length < tokens.length := by
  fun_induction takeMediaNames tokens generalizing names with
  | case1 => cases read
  | case2 token more _ ih =>
    have := ih read
    simp only [List.length_cons]; omega
  | case3 token more _ ih =>
    have := ih read
    simp only [List.length_cons]; omega
  | case4 token more _ ih =>
    obtain ⟨_, named, same⟩ := Reading.map_eq_ok.mp read
    cases same
    have := ih named
    simp only [List.length_cons]; omega
  | case5 => cases read; simp
  | case6 => cases read

theorem length_lt_of_takePlain {source : List UInt8} {token : Token} {tokens rest : List Token}
    {statements : List Statement}
    (read : takePlain source token tokens = .ok (statements, rest)) :
    rest.length < (token :: tokens).length := by
  unfold takePlain at read
  split at read
  · cases read
    have := Token.length_skipPastSemicolon_le tokens
    simp only [List.length_cons]; omega
  · have := length_le_of_takeDescription read
    simp only [List.length_cons]; omega
  · have := length_le_of_takeDescription read
    simp only [List.length_cons]; omega
  · exact length_lt_of_takeRuleset read

/-- After every outcome there are fewer tokens than before, if that holds after success. -/
theorem length_settle_lt {source : List UInt8} {token : Token} {tokens : List Token}
    {reading : StatementReading}
    (success : ∀ statements rest, reading = .ok (statements, rest) →
      rest.length < (token :: tokens).length) :
    (settle source (token :: tokens) reading).2.length < (token :: tokens).length := by
  cases reading with
  | ok found => exact success found.1 found.2 rfl
  | error failed => exact Token.length_recover_lt token tokens

/-- Reads statements inside a block, up to the brace that closes it. There, neither other sheets
nor media have a meaning. -/
def readNested (source : List UInt8) (tokens : List Token) : List Statement × List Token :=
  match _front : Token.skipSpace tokens with
  | [] => ([], [])
  | token :: rest =>
    if token.kind = .closeBrace then ([], token :: rest)
    else
      let outcome := settle source (token :: rest) (takePlain source token rest)
      let more := readNested source outcome.2
      (outcome.1 ++ more.1, more.2)
  termination_by tokens.length
  decreasing_by
    have gap := Token.length_skipSpace_le tokens
    rw [_front] at gap
    exact Nat.lt_of_lt_of_le (length_settle_lt fun _ _ read => length_lt_of_takePlain read) gap

theorem length_readNested_le (source : List UInt8) (tokens : List Token) :
    (readNested source tokens).2.length ≤ tokens.length := by
  fun_induction readNested source tokens with
  | case1 => simp
  | case2 tokens token rest front =>
    have gap := Token.length_skipSpace_le tokens
    rw [front] at gap
    exact gap
  | case3 tokens token rest front _ outcome more ih =>
    have gap := Token.length_skipSpace_le tokens
    have less : outcome.2.length < (token :: rest).length :=
      length_settle_lt fun _ _ read => length_lt_of_takePlain read
    have inner : more.2.length ≤ outcome.2.length := ih
    rw [front] at gap
    exact Nat.le_trans inner (Nat.le_trans (Nat.le_of_lt less) gap)

/-- Takes a media block behind its mark. -/
def takeMedia (source : List UInt8) (media : List String) (tokens : List Token) :
    StatementReading :=
  match takeMediaNames tokens with
  | .error halt => .error ⟨[], halt⟩
  | .ok (names, rest) =>
    if mediaApply media names then
      let inner := readNested source rest
      .ok (inner.1, dropClose inner.2)
    else .ok ([.skippedMedia names], Token.skipBlock 0 rest)

/-- Takes a statement that stands in no block. -/
def takeOuter (source : List UInt8) (media : List String) (token : Token) (rest : List Token) :
    StatementReading :=
  match token.kind with
  | .atImport => takeLink rest
  | .atMedia => takeMedia source media rest
  | _ => takePlain source token rest

theorem length_lt_of_takeMedia {source : List UInt8} {media : List String}
    {tokens rest : List Token} {statements : List Statement}
    (read : takeMedia source media tokens = .ok (statements, rest)) :
    rest.length < tokens.length := by
  unfold takeMedia at read
  split at read
  · cases read
  · next names behind named =>
    have first := length_lt_of_takeMediaNames named
    split at read
    · cases read
      have inner := length_readNested_le source behind
      have close := length_dropClose_le (readNested source behind).2
      omega
    · cases read
      have := Token.length_skipBlock_le 0 behind
      omega

theorem length_lt_of_takeOuter {source : List UInt8} {media : List String} {token : Token}
    {tokens rest : List Token} {statements : List Statement}
    (read : takeOuter source media token tokens = .ok (statements, rest)) :
    rest.length < (token :: tokens).length := by
  unfold takeOuter at read
  split at read
  · have := length_le_of_takeLink read
    simp only [List.length_cons]; omega
  · have := length_lt_of_takeMedia read
    simp only [List.length_cons]; omega
  · exact length_lt_of_takePlain read

/-- Reads statements to the end. -/
def readAll (source : List UInt8) (media : List String) (tokens : List Token) : List Statement :=
  match _front : Token.skipSpace tokens with
  | [] => []
  | token :: rest =>
    let outcome := settle source (token :: rest) (takeOuter source media token rest)
    outcome.1 ++ readAll source media outcome.2
  termination_by tokens.length
  decreasing_by
    have gap := Token.length_skipSpace_le tokens
    rw [_front] at gap
    exact Nat.lt_of_lt_of_le (length_settle_lt fun _ _ read => length_lt_of_takeOuter read) gap

end Statement

/-- Reads a style sheet while some media are in force. -/
def SheetText.read (media : List String) (source : List UInt8) : SheetText :=
  let lexemes := Lexeme.read source
  { statements := Statement.readAll source media (Lexeme.tokens lexemes)
    invalid := Lexeme.invalidCount lexemes }

end StyleCascade
