import StyleCascade.Proofs.Sheet.Inline

namespace StyleCascade

section Loops

variable {α : Type}

/-- What a loop does at some tokens: it ends and leaves them, or it goes round, which has a result
and leads to the next tokens. -/
inductive Turn (α : Type)
  | done (left : List Token)
  | again (result : α) (next : List Token)

/-- A round of a loop, with the tokens in front of it and behind it. -/
structure Round (α : Type) where
  before : List Token
  result : α
  after : List Token

/-- The rounds of a loop from some tokens to others. -/
inductive Rounds (turn : List Token → Turn α) : List Token → List (Round α) → List Token → Prop
  | nil (tokens : List Token) : Rounds turn tokens [] tokens
  | cons {tokens next last : List Token} {result : α} {rounds : List (Round α)}
      (goes : turn tokens = .again result next) (more : Rounds turn next rounds last) :
      Rounds turn tokens (⟨tokens, result, next⟩ :: rounds) last

/-- A round begins at one place among the tokens and ends at a later one. -/
def Round.Advances (whole : List Token) (round : Round α) : Prop :=
  ∃ start stop, start < stop ∧ stop ≤ whole.length ∧
    round.before = whole.drop start ∧ round.after = whole.drop stop

variable {turn : List Token → Turn α} {whole tokens : List Token}

theorem Round.advances_of_suffix {round : Round α} (before : round.before <:+ whole)
    (after : round.after <:+ whole) (less : round.after.length < round.before.length) :
    round.Advances whole := by
  have inside := before.length_le
  exact ⟨whole.length - round.before.length, whole.length - round.after.length, by omega, by omega,
    List.suffix_iff_eq_drop.mp before, List.suffix_iff_eq_drop.mp after⟩

/-- A loop whose rounds all take tokens comes to an end. -/
theorem exists_rounds
    (forth : ∀ {tokens result next}, tokens <:+ whole → turn tokens = .again result next →
      next <:+ whole ∧ next.length < tokens.length)
    (inside : tokens <:+ whole) :
    ∃ rounds last left, Rounds turn tokens rounds last ∧ turn last = .done left ∧
      ∀ round ∈ rounds, round.Advances whole := by
  induction size : tokens.length using Nat.strong_induction_on generalizing tokens with
  | _ _ ih =>
  subst size
  cases step : turn tokens with
  | done left => exact ⟨[], tokens, left, .nil tokens, step, by simp⟩
  | again result next =>
    obtain ⟨behind, less⟩ := forth inside step
    obtain ⟨rounds, last, left, more, ends, advance⟩ := ih next.length less behind rfl
    exact ⟨_, last, left, .cons step more, ends,
      List.forall_mem_cons.mpr ⟨Round.advances_of_suffix inside behind less, advance⟩⟩

end Loops

namespace Statement

variable {source : List UInt8} {media : List String} {nested : Bool} {token : Token}
  {tokens rest next left last : List Token} {statements : List Statement}

/-- Takes a statement, inside a block or in none. -/
def takeAt (source : List UInt8) (media : List String) (nested : Bool) (token : Token)
    (rest : List Token) : StatementReading :=
  if nested then takePlain source token rest else takeOuter source media token rest

/-- A turn of the loop that reads statements, inside a block or in none. -/
def turn (source : List UInt8) (media : List String) (nested : Bool) (tokens : List Token) :
    Turn (List Statement) :=
  match Token.skipSpace tokens with
  | [] => .done []
  | token :: rest =>
    if nested = true ∧ token.kind = .closeBrace then .done (token :: rest)
    else
      let outcome := settle source (token :: rest) (takeAt source media nested token rest)
      .again outcome.1 outcome.2

/-- A round of the loop that goes on stands before a token, and before no closing brace when it is
nested. -/
theorem of_turn_again (goes : turn source media nested tokens = .again statements next) :
    ∃ token rest, Token.skipSpace tokens = token :: rest ∧
      ¬(nested = true ∧ token.kind = .closeBrace) ∧
      settle source (token :: rest) (takeAt source media nested token rest) =
        (statements, next) := by
  unfold turn at goes
  split at goes
  · cases goes
  · next token rest front =>
    split at goes
    · cases goes
    · next inner =>
      cases goes
      exact ⟨token, rest, front, inner, rfl⟩

/-- The loop ends at the end of the tokens, or before a closing brace when it is nested. -/
theorem of_turn_done (ends : turn source media nested tokens = .done left) :
    Token.skipSpace tokens = left ∧
      (left = [] ∨ nested = true ∧ ∃ token rest, left = token :: rest ∧ token.kind = .closeBrace) := by
  unfold turn at ends
  split at ends
  · next empty => cases ends; exact ⟨empty, Or.inl rfl⟩
  · next token rest front =>
    split at ends
    · next closes =>
      cases ends
      exact ⟨front, Or.inr ⟨closes.1, token, rest, rfl, closes.2⟩⟩
    · cases ends

/-- Every statement takes at least one token. -/
theorem length_lt_of_takeAt
    (read : takeAt source media nested token tokens = .ok (statements, rest)) :
    rest.length < (token :: tokens).length := by
  unfold takeAt at read
  split at read
  · exact length_lt_of_takePlain read
  · exact length_lt_of_takeOuter read

/-- A source stands in itself, so what is left behind one of its statements is its end. -/
theorem settle_suffix (inside : token :: rest <:+ tokensOf source) :
    (settle source (token :: rest) (takeAt source media nested token rest)).2 <:+
      tokensOf source := by
  let frame := Frame.within [] (tokensOf source) []
  have texts : frame.Texts source ([] ++ source ++ []) Eq :=
    Frame.texts_within [] [] (fun _ mem => stop_le_of_mem_tokensOf mem)
  have ended : frame.Ended 0 (token :: rest) := ⟨inside, Or.inl rfl⟩
  unfold takeAt
  split
  · exact (ended.settle source source (fun _ => rfl) (ended.takePlain texts)).2.2.inside
  · exact (ended.settle source source (fun _ => rfl) (ended.takeOuter media texts)).2.2.inside

/-- After a statement that is read, and after one that is passed over, there are fewer tokens. -/
theorem turn_forth (inside : tokens <:+ tokensOf source)
    (goes : turn source media nested tokens = .again statements next) :
    next <:+ tokensOf source ∧ next.length < tokens.length := by
  obtain ⟨token, rest, front, -, outcome⟩ := of_turn_again goes
  have behind := Token.front_suffix front
  have settled : (settle source (token :: rest) (takeAt source media nested token rest)).2 = next :=
    congrArg Prod.snd outcome
  rw [← settled]
  exact ⟨settle_suffix (behind.trans inside),
    Nat.lt_of_lt_of_le (length_settle_lt fun _ _ read => length_lt_of_takeAt read) behind.length_le⟩

/-- The statements inside a block are those of the rounds. -/
theorem readNested_of_rounds {rounds : List (Round (List Statement))}
    (run : Rounds (turn source media true) tokens rounds last)
    (ends : turn source media true last = .done left) :
    readNested source tokens = (rounds.flatMap Round.result, left) := by
  induction run with
  | nil tokens =>
    obtain ⟨front, rfl | ⟨-, token, rest, rfl, closes⟩⟩ := of_turn_done ends
    · exact readNested_of_end front
    · rw [readNested_of_front front, if_pos closes]
      rfl
  | @cons tokens next last result rounds goes more ih =>
    obtain ⟨token, rest, front, inner, outcome⟩ := of_turn_again goes
    have plain : settle source (token :: rest) (takePlain source token rest) = (result, next) :=
      outcome
    rw [readNested_of_front front, if_neg (fun closes => inner ⟨rfl, closes⟩)]
    simp only [plain, ih ends, List.flatMap_cons]

/-- The statements in no block are those of the rounds, and no token is left behind them. -/
theorem readAll_of_rounds {rounds : List (Round (List Statement))}
    (run : Rounds (turn source media false) tokens rounds last)
    (ends : turn source media false last = .done left) :
    readAll source media tokens = rounds.flatMap Round.result ∧ left = [] := by
  induction run with
  | nil tokens =>
    obtain ⟨front, rfl | ⟨⟨⟩, -⟩⟩ := of_turn_done ends
    exact ⟨readAll_of_end front, rfl⟩
  | @cons tokens next last result rounds goes more ih =>
    obtain ⟨token, rest, front, -, outcome⟩ := of_turn_again goes
    have outer : settle source (token :: rest) (takeOuter source media token rest) =
        (result, next) := outcome
    obtain ⟨others, none⟩ := ih ends
    rw [readAll_of_front front, outer, others]
    exact ⟨rfl, none⟩

end Statement

namespace DeclarationRun

variable {source : List UInt8} {tokens next left last : List Token} {run : DeclarationRun}

/-- A turn of the loop that reads inline styles: after a fault it goes on behind the next
semicolon. -/
def turn (source : List UInt8) (tokens : List Token) : Turn DeclarationRun :=
  let run := read source none tokens
  match run.stop with
  | none => .done run.rest
  | some _ => .again run (Token.skipPastSemicolon run.rest)

theorem of_turn_again (goes : turn source tokens = .again run next) :
    run = read source none tokens ∧ run.stop ≠ none ∧ next = Token.skipPastSemicolon run.rest := by
  unfold turn at goes
  simp only at goes
  split at goes
  · cases goes
  · next fault stopped =>
    cases goes
    exact ⟨rfl, by rw [stopped]; exact Option.some_ne_none fault, rfl⟩

theorem of_turn_done (ends : turn source tokens = .done left) :
    (read source none tokens).stop = none ∧ left = (read source none tokens).rest := by
  unfold turn at ends
  simp only at ends
  split at ends
  · next clean => cases ends; exact ⟨clean, rfl⟩
  · cases ends

/-- Declarations that nothing closes leave no token if they have no fault. -/
theorem rest_read_of_clean (clean : (read source none tokens).stop = none) :
    (read source none tokens).rest = [] := by
  fun_induction read source none tokens with
  | case1 => rfl
  | case2 tokens token rest front closed => cases closed
  | case3 tokens token rest front _ _ ih => exact ih clean
  | case4 tokens token rest front _ _ _ declaration behind taken ih => exact ih clean
  | case5 => cases clean
  | case6 => cases clean

theorem ne_nil_of_stop (stopped : (read source none tokens).stop ≠ none) : tokens ≠ [] := by
  rintro rfl
  rw [read_nil] at stopped
  exact stopped rfl

/-- After a fault there are fewer tokens. -/
theorem turn_forth {whole : List Token} (inside : tokens <:+ whole)
    (goes : turn source tokens = .again run next) :
    next <:+ whole ∧ next.length < tokens.length := by
  obtain ⟨rfl, stopped, rfl⟩ := of_turn_again goes
  have some := List.length_pos_iff.mpr (ne_nil_of_stop stopped)
  have within := rest_read_suffix source none tokens
  have read := within.length_le
  have passed := Token.length_skipPastSemicolon_le (DeclarationRun.read source none tokens).rest
  exact ⟨((Token.skipPastSemicolon_suffix _).trans within).trans inside, by omega⟩

/-- The runs of an inline style are those of the rounds, and the last one. -/
theorem readAll_of_rounds {rounds : List (Round DeclarationRun)}
    (run : Rounds (turn source) tokens rounds last) (ends : turn source last = .done left) :
    Joins (readAll source tokens) (rounds.map Round.result) [read source none last] := by
  induction run with
  | nil tokens =>
    have whole := readAll_joins source tokens
    rw [afterFault, (of_turn_done ends).1] at whole
    exact ⟨by simpa using whole.declarations, whole.faults.trans (Nat.add_comm _ _)⟩
  | @cons tokens next last run rounds goes more ih =>
    obtain ⟨rfl, stopped, rfl⟩ := of_turn_again goes
    obtain ⟨fault, stop⟩ := Option.ne_none_iff_exists'.mp stopped
    have whole := readAll_joins source tokens
    rw [afterFault, stop] at whole
    exact whole.of_parts ((Joins.nil _).cons _) (ih ends)

end DeclarationRun

theorem InlineStyle.ofRuns_of_joins {whole one other : List DeclarationRun}
    (joins : DeclarationRun.Joins whole one other) : ofRuns whole = ofRuns (one ++ other) := by
  have faults : DeclarationRun.faultCount whole = DeclarationRun.faultCount (one ++ other) := by
    rw [joins.faults]
    exact List.countP_append.symm
  unfold ofRuns
  rw [joins.declarations, List.flatMap_append]
  exact congrArg (InlineStyle.mk _) faults

/-- Reading makes progress. The statements of a block, from any place of a source on, are read in
rounds that each end at a later place than they begin at; so are the statements of the whole source,
which leave no token, and the runs of declarations of an inline style that stop at a fault, behind
the last of which the declarations leave no token. -/
theorem reading_advances (source : List UInt8) (media : List String) :
    (∀ place, ∃ rounds last left,
      Rounds (Statement.turn source media true) ((tokensOf source).drop place) rounds last ∧
        Statement.turn source media true last = .done left ∧
        (∀ round ∈ rounds, round.Advances (tokensOf source)) ∧
        Statement.readNested source ((tokensOf source).drop place) =
          (rounds.flatMap Round.result, left)) ∧
    (∃ rounds last,
      Rounds (Statement.turn source media false) (tokensOf source) rounds last ∧
        Statement.turn source media false last = .done [] ∧
        (∀ round ∈ rounds, round.Advances (tokensOf source)) ∧
        (SheetText.read media source).statements = rounds.flatMap Round.result) ∧
    ∃ rounds last,
      Rounds (DeclarationRun.turn source) (tokensOf source) rounds last ∧
        DeclarationRun.turn source last = .done [] ∧
        (∀ round ∈ rounds, round.Advances (tokensOf source)) ∧
        InlineStyle.read source = InlineStyle.ofRuns
          (rounds.map Round.result ++ [DeclarationRun.read source none last]) := by
  refine ⟨fun place => ?_, ?_, ?_⟩
  · obtain ⟨rounds, last, left, run, ends, advance⟩ :=
      exists_rounds Statement.turn_forth (List.drop_suffix place (tokensOf source))
    exact ⟨rounds, last, left, run, ends, advance, Statement.readNested_of_rounds run ends⟩
  · obtain ⟨rounds, last, left, run, ends, advance⟩ :=
      exists_rounds Statement.turn_forth (List.suffix_refl (tokensOf source))
    obtain ⟨read, rfl⟩ := Statement.readAll_of_rounds run ends
    exact ⟨rounds, last, run, ends, advance, read⟩
  · obtain ⟨rounds, last, left, run, ends, advance⟩ :=
      exists_rounds DeclarationRun.turn_forth (List.suffix_refl (tokensOf source))
    obtain ⟨clean, leftEq⟩ := DeclarationRun.of_turn_done ends
    have none : left = [] := leftEq.trans (DeclarationRun.rest_read_of_clean clean)
    exact ⟨rounds, last, run, none ▸ ends, advance,
      InlineStyle.ofRuns_of_joins (DeclarationRun.readAll_of_rounds run ends)⟩

end StyleCascade
