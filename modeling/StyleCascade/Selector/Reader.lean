import StyleCascade.Selector.Basic
import StyleCascade.Text.Blank
import StyleCascade.Token.Reader

namespace StyleCascade

/-- The count that a condition adds to. -/
inductive Weight
  | none
  | id
  | cls
  | type
  deriving DecidableEq, Repr

/-- What a weight adds. -/
def Weight.specificity : Weight → Specificity
  | .none => .zero
  | .id => ⟨1, 0, 0⟩
  | .cls => ⟨0, 1, 0⟩
  | .type => ⟨0, 0, 1⟩

/-- A condition with its weight. The two differ for an identifier and the equal condition on its
attribute, and nowhere else. -/
abbrev Weighted := Condition × Weight

/-- Adds up the weights of conditions. -/
def specificityOf (conditions : List Weighted) : Specificity :=
  conditions.foldl (fun total weighted => total.add weighted.2.specificity) .zero

namespace Selector

/-- The comparison of an attribute with a value. -/
inductive Comparison
  | equal
  | listed
  | hyphened

/-- The condition of a comparison. -/
def Comparison.condition (key value : String) : Comparison → Condition
  | .equal => .equal key value
  | .listed => .listed key value
  | .hyphened => .hyphened key value

/-- Takes the value of an attribute condition: an identifier as it is written, or a string. -/
def takeAttributeValue : List Token → Reading String
  | [] => .error ⟨.expectedAttributeValue, []⟩
  | token :: rest =>
    if token.kind = .ident then .ok (token.text, rest)
    else if token.kind = .str then
      match Component.unquote? token.text with
      | some value => .ok (value, rest)
      | none => .error ⟨.badAttributeString, rest⟩
    else .error ⟨.expectedAttributeValue, rest⟩

/-- Takes the sign of a comparison. -/
def takeComparison : List Token → Reading Comparison
  | [] => .error ⟨.badAttributeOperator, []⟩
  | token :: rest =>
    if token.kind = .equals then .ok (.equal, rest)
    else if token.kind = .tilde then
      (Token.expect .equals .expectedEquals rest).map (fun (_, behind) => (.listed, behind))
    else if token.kind = .pipe then
      (Token.expect .equals .expectedEquals rest).map (fun (_, behind) => (.hyphened, behind))
    else .error ⟨.badAttributeOperator, token :: rest⟩

/-- Takes an attribute condition behind its bracket: a name alone, or a comparison. -/
def takeAttribute (tokens : List Token) : Except Halt (Condition × List Token) := do
  let (key, behind) ← Token.takeWord (Token.skipSpace tokens)
  match Token.skipSpace behind with
  | [] => .error ⟨.badAttributeOperator, []⟩
  | next :: rest =>
    if next.kind = .closeBracket then .ok (.present key, rest)
    else
      let (comparison, behind) ← takeComparison (next :: rest)
      let (value, behind) ← takeAttributeValue (Token.skipSpace behind)
      let (_, behind) ← Token.expect .closeBracket .expectedBracket (Token.skipSpace behind)
      .ok (comparison.condition key value, behind)

/-- The condition of a pseudo-class written as a function. -/
def pseudoFunction? (text : String) : Option Condition :=
  let chars := text.toList
  match chars.dropWhile (· ≠ '(') with
  | _ :: behind =>
    if behind.getLast? = some ')' then
      let name := Ascii.lower (String.ofList (chars.takeWhile (· ≠ '(')))
      let argument := Ascii.lower (Text.trim (String.ofList behind.dropLast))
      some (.pseudoClass
        (if name = "lang" then .lang argument else .other (name ++ "(" ++ argument ++ ")")))
    else none
  | [] => none

/-- The condition of a name behind a colon, or behind two. Four pseudo-elements take one colon. -/
def pseudoName (double : Bool) (name : String) : Condition :=
  match name with
  | "before" => .pseudoElement .before
  | "after" => .pseudoElement .after
  | "first-line" => .pseudoElement .firstLine
  | "first-letter" => .pseudoElement .firstLetter
  | name =>
    if double then .pseudoElement (.other name)
    else
      match name with
      | "link" => .pseudoClass .link
      | "visited" => .pseudoClass .visited
      | "hover" => .pseudoClass .hover
      | "active" => .pseudoClass .active
      | "focus" => .pseudoClass .focus
      | "first-child" => .pseudoClass .firstChild
      | name => .pseudoClass (.other name)

/-- Takes a name, or a function after a single colon. -/
def takePseudoName (double : Bool) : List Token → Reading Condition
  | [] => .error ⟨.expectedPseudoName, []⟩
  | token :: rest =>
    if token.kind = .ident then .ok (pseudoName double (Ascii.lower token.text), rest)
    else if token.kind = .function && !double then
      match pseudoFunction? token.text with
      | some condition => .ok (condition, rest)
      | none => .error ⟨.badPseudoFunction, rest⟩
    else .error ⟨.expectedPseudoName, rest⟩

/-- Takes what stands behind a colon. -/
def takePseudo : List Token → Reading Condition
  | [] => takePseudoName false []
  | token :: rest =>
    if token.kind = .colon then takePseudoName true rest else takePseudoName false (token :: rest)

/-- The weight of what stands behind a colon. -/
def pseudoWeight : Condition → Weight
  | .pseudoElement _ => .type
  | _ => .cls

/-- Takes the condition that a mark introduces, if it introduces one. -/
def takeCondition? (mark : TokenKind) (tokens : List Token) : Option (Reading Weighted) :=
  match mark with
  | .hash =>
    some ((Token.takeName tokens).map (fun (name, rest) => ((.equal "id" name, .id), rest)))
  | .dot =>
    some ((Token.takeName tokens).map (fun (name, rest) => ((.listed "class" name, .cls), rest)))
  | .openBracket => some ((takeAttribute tokens).map (fun (found, rest) => ((found, .cls), rest)))
  | .colon =>
    some ((takePseudo tokens).map (fun (found, rest) => ((found, pseudoWeight found), rest)))
  | _ => none

theorem length_lt_of_takeAttributeValue {tokens rest : List Token} {value : String}
    (read : takeAttributeValue tokens = .ok (value, rest)) : rest.length < tokens.length := by
  cases tokens with
  | nil => cases read
  | cons token more =>
    simp only [takeAttributeValue] at read
    split at read
    · cases read; simp
    split at read
    · split at read <;> cases read
      simp
    · cases read

theorem length_lt_of_takeComparison {tokens rest : List Token} {comparison : Comparison}
    (read : takeComparison tokens = .ok (comparison, rest)) : rest.length < tokens.length := by
  cases tokens with
  | nil => cases read
  | cons token more =>
    rw [takeComparison] at read
    split at read
    · cases read; simp
    split at read
    · obtain ⟨_, taken, same⟩ := Reading.map_eq_ok.mp read
      cases same
      have := Token.length_lt_of_expect taken
      simp only [List.length_cons]; omega
    split at read
    · obtain ⟨_, taken, same⟩ := Reading.map_eq_ok.mp read
      cases same
      have := Token.length_lt_of_expect taken
      simp only [List.length_cons]; omega
    · cases read

theorem length_lt_of_takeAttribute {tokens rest : List Token} {condition : Condition}
    (read : takeAttribute tokens = .ok (condition, rest)) : rest.length < tokens.length := by
  unfold takeAttribute at read
  obtain ⟨⟨key, behind⟩, word, read⟩ := Reading.bind_eq_ok.mp read
  have space := Token.length_skipSpace_le tokens
  have first := Token.length_lt_of_takeWord word
  have gap := Token.length_skipSpace_le behind
  simp only at read
  split at read
  · cases read
  next next more shape =>
  rw [shape, List.length_cons] at gap
  split at read
  · cases read; omega
  · obtain ⟨⟨comparison, afterSign⟩, compared, read⟩ := Reading.bind_eq_ok.mp read
    obtain ⟨⟨value, afterValue⟩, valued, read⟩ := Reading.bind_eq_ok.mp read
    obtain ⟨⟨bracket, last⟩, closed, same⟩ := Reading.bind_eq_ok.mp read
    cases same
    simp only at valued closed ⊢
    have second := length_lt_of_takeComparison compared
    rw [List.length_cons] at second
    have gapSign := Token.length_skipSpace_le afterSign
    have third := length_lt_of_takeAttributeValue valued
    have gapValue := Token.length_skipSpace_le afterValue
    have fourth := Token.length_lt_of_expect closed
    omega

theorem length_lt_of_takePseudoName {double : Bool} {tokens rest : List Token}
    {condition : Condition} (read : takePseudoName double tokens = .ok (condition, rest)) :
    rest.length < tokens.length := by
  cases tokens with
  | nil => cases read
  | cons token more =>
    simp only [takePseudoName] at read
    split at read
    · cases read; simp
    split at read
    · split at read <;> cases read
      simp
    · cases read

theorem length_lt_of_takePseudo {tokens rest : List Token} {condition : Condition}
    (read : takePseudo tokens = .ok (condition, rest)) : rest.length < tokens.length := by
  cases tokens with
  | nil => cases read
  | cons token more =>
    simp only [takePseudo] at read
    split at read
    · have := length_lt_of_takePseudoName read
      simp only [List.length_cons]; omega
    · exact length_lt_of_takePseudoName read

theorem length_lt_of_takeCondition? {mark : TokenKind} {tokens rest : List Token}
    {condition : Weighted} (read : takeCondition? mark tokens = some (.ok (condition, rest))) :
    rest.length < tokens.length := by
  unfold takeCondition? at read
  split at read
  · obtain ⟨_, taken, same⟩ := Reading.map_eq_ok.mp (Option.some.inj read)
    cases same
    exact Token.length_lt_of_takeName taken
  · obtain ⟨_, taken, same⟩ := Reading.map_eq_ok.mp (Option.some.inj read)
    cases same
    exact Token.length_lt_of_takeName taken
  · obtain ⟨_, taken, same⟩ := Reading.map_eq_ok.mp (Option.some.inj read)
    cases same
    exact length_lt_of_takeAttribute taken
  · obtain ⟨_, taken, same⟩ := Reading.map_eq_ok.mp (Option.some.inj read)
    cases same
    exact length_lt_of_takePseudo taken
  · cases read

/-- Takes conditions as long as marks introduce them. -/
def takeConditions (tokens : List Token) : Reading (List Weighted) :=
  match tokens with
  | [] => .ok ([], [])
  | mark :: rest =>
    match _found : takeCondition? mark.kind rest with
    | none => .ok ([], mark :: rest)
    | some (.error halt) => .error halt
    | some (.ok (condition, behind)) =>
      (takeConditions behind).map (fun (more, last) => (condition :: more, last))
  termination_by tokens.length
  decreasing_by
    have := length_lt_of_takeCondition? _found
    simp only [List.length_cons]; omega

/-- Takes the name of an element, or the mark for any element, where a compound begins. -/
def takeType : List Token → List Weighted × List Token
  | [] => ([], [])
  | token :: rest =>
    if token.kind = .ident then ([(.tag (Text.lowercase token.identifier), .type)], rest)
    else if token.kind = .star then ([(.universal, .none)], rest)
    else ([], token :: rest)

/-- Takes a compound, which has at least one condition. -/
def takeCompound (tokens : List Token) : Reading (List Weighted) :=
  let (type, behind) := takeType tokens
  match takeConditions behind with
  | .error halt => .error halt
  | .ok (conditions, rest) =>
    if type = [] && conditions = [] then .error ⟨.expectedSelector, rest⟩
    else .ok (type ++ conditions, rest)

theorem length_le_of_takeConditions {tokens rest : List Token} {conditions : List Weighted}
    (read : takeConditions tokens = .ok (conditions, rest)) :
    rest.length + conditions.length ≤ tokens.length := by
  fun_induction takeConditions tokens generalizing conditions rest with
  | case1 => cases read; simp
  | case2 => cases read; simp
  | case3 => cases read
  | case4 mark more condition behind found ih =>
    obtain ⟨_, taken, same⟩ := Reading.map_eq_ok.mp read
    cases same
    have := ih taken
    have := length_lt_of_takeCondition? found
    simp only [List.length_cons]; omega

theorem length_takeType (tokens : List Token) :
    (takeType tokens).2.length + (takeType tokens).1.length ≤ tokens.length := by
  cases tokens with
  | nil => simp [takeType]
  | cons token rest =>
    simp only [takeType]
    split
    · simp
    · split <;> simp

/-- Every condition of a compound takes a token at least. -/
theorem length_le_of_takeCompound {tokens rest : List Token} {compound : List Weighted}
    (read : takeCompound tokens = .ok (compound, rest)) :
    rest.length + compound.length ≤ tokens.length ∧ compound ≠ [] := by
  unfold takeCompound at read
  have typed := length_takeType tokens
  simp only at read
  split at read
  · cases read
  · next conditions last taken =>
    have more := length_le_of_takeConditions taken
    split at read
    · cases read
    · next some =>
      cases read
      rw [List.length_append]
      refine ⟨by omega, fun none => some ?_⟩
      obtain ⟨type, others⟩ := List.append_eq_nil_iff.mp none
      simp [type, others]

theorem length_lt_of_takeCompound {tokens rest : List Token} {compound : List Weighted}
    (read : takeCompound tokens = .ok (compound, rest)) : rest.length < tokens.length := by
  obtain ⟨less, some⟩ := length_le_of_takeCompound read
  have count := List.length_pos_iff.mpr some
  omega

/-- Takes the sign of a combinator. White space is one too, unless it ends the selector; then there
is none. The tokens behind start with a compound. -/
def takeCombinator? (tokens : List Token) : Option (Reading Combinator) :=
  match Token.skipSpace tokens with
  | [] => none
  | token :: rest =>
    match token.kind with
    | .comma | .openBrace => none
    | .greater => some (.ok (.child, Token.skipSpace rest))
    | .plus => some (.ok (.adjacent, Token.skipSpace rest))
    | _ =>
      if (token :: rest).length < tokens.length then some (.ok (.descendant, token :: rest))
      else some (.error ⟨.unexpectedInSelector, token :: rest⟩)

theorem length_le_of_takeCombinator? {tokens rest : List Token} {combinator : Combinator}
    (read : takeCombinator? tokens = some (.ok (combinator, rest))) :
    rest.length ≤ tokens.length := by
  unfold takeCombinator? at read
  have gap := Token.length_skipSpace_le tokens
  split at read
  · cases read
  · next token more shape =>
    rw [shape, List.length_cons] at gap
    have next := Token.length_skipSpace_le more
    split at read
    · cases read
    · cases read
    · cases read; omega
    · cases read; omega
    · split at read <;> cases read
      simp only [List.length_cons]; omega

/-- Takes further compounds, each behind its combinator. -/
def takeLinks (tokens : List Token) : Reading (List (Combinator × List Weighted)) :=
  match _sign : takeCombinator? tokens with
  | none => .ok ([], Token.skipSpace tokens)
  | some (.error halt) => .error halt
  | some (.ok (combinator, behind)) =>
    match _read : takeCompound behind with
    | .error halt => .error halt
    | .ok (compound, rest) =>
      (takeLinks rest).map (fun (links, last) => ((combinator, compound) :: links, last))
  termination_by tokens.length
  decreasing_by
    have := length_le_of_takeCombinator? _sign
    have := length_lt_of_takeCompound _read
    omega

/-- The selector of compounds in the order of their text. -/
def ofCompounds (first : List Weighted) (links : List (Combinator × List Weighted)) : Selector :=
  links.foldl (fun selector link => selector.extend link.1 (link.2.map (·.1)))
    ⟨first.map (·.1), []⟩

/-- Takes a selector with its specificity, and white space behind it. -/
def take (tokens : List Token) : Except Halt ((Selector × Specificity) × List Token) := do
  let (first, behind) ← takeCompound tokens
  let (links, rest) ← takeLinks behind
  .ok ((ofCompounds first links, specificityOf (first ++ links.flatMap (·.2))), rest)

theorem length_le_of_takeLinks {tokens rest : List Token}
    {links : List (Combinator × List Weighted)} (read : takeLinks tokens = .ok (links, rest)) :
    rest.length + (links.flatMap Prod.snd).length ≤ tokens.length := by
  fun_induction takeLinks tokens generalizing links rest with
  | case1 => cases read; exact Token.length_skipSpace_le _
  | case2 => cases read
  | case3 => cases read
  | case4 tokens combinator behind sign compound after taken ih =>
    obtain ⟨_, more, same⟩ := Reading.map_eq_ok.mp read
    cases same
    have := ih more
    have := length_le_of_takeCombinator? sign
    have := (length_le_of_takeCompound taken).1
    simp only [List.flatMap_cons, List.length_append]
    omega

theorem length_lt_of_take {tokens rest : List Token} {found : Selector × Specificity}
    (read : take tokens = .ok (found, rest)) : rest.length < tokens.length := by
  unfold take at read
  obtain ⟨⟨compound, behind⟩, first, read⟩ := Reading.bind_eq_ok.mp read
  obtain ⟨⟨links, last⟩, more, same⟩ := Reading.bind_eq_ok.mp read
  cases same
  have := length_lt_of_takeCompound first
  have := length_le_of_takeLinks more
  omega

/-- Takes the selectors in front of a block, with commas between them. -/
def takeList (tokens : List Token) : Reading (List (Selector × Specificity)) :=
  match _read : take tokens with
  | .error halt => .error halt
  | .ok (selector, behind) =>
    match _shape : Token.skipSpace behind with
    | [] => .error ⟨.expectedMoreOrBlock, []⟩
    | next :: rest =>
      if next.kind = .comma then
        (takeList (Token.skipSpace rest)).map (fun (more, last) => (selector :: more, last))
      else if next.kind = .openBrace then .ok ([selector], next :: rest)
      else .error ⟨.expectedMoreOrBlock, next :: rest⟩
  termination_by tokens.length
  decreasing_by
    have first := length_lt_of_take _read
    have gap := Token.length_skipSpace_le behind
    have := Token.length_skipSpace_le rest
    rw [_shape, List.length_cons] at gap
    omega

theorem length_lt_of_takeList {tokens rest : List Token}
    {selectors : List (Selector × Specificity)} (read : takeList tokens = .ok (selectors, rest)) :
    rest.length < tokens.length := by
  fun_induction takeList tokens generalizing selectors rest with
  | case1 => cases read
  | case2 => cases read
  | case3 tokens selector behind taken next more shape _ ih =>
    have first := length_lt_of_take taken
    have gap := Token.length_skipSpace_le behind
    have inner := Token.length_skipSpace_le more
    rw [shape, List.length_cons] at gap
    obtain ⟨_, rested, same⟩ := Reading.map_eq_ok.mp read
    cases same
    have := ih rested
    omega
  | case4 tokens selector behind taken next more shape =>
    have first := length_lt_of_take taken
    have gap := Token.length_skipSpace_le behind
    rw [shape] at gap
    cases read
    omega
  | case5 => cases read

/-- Reads a text that holds one selector and nothing else. -/
def read? (text : String) : Option (Selector × Specificity) :=
  match take (Token.skipSpace (tokensOf (Utf8.encode text))) with
  | .ok (found, rest) => if Token.skipSpace rest = [] then some found else none
  | .error _ => none

end Selector

end StyleCascade
