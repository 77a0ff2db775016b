import StyleCascade.Proofs.Token.Append
import StyleCascade.Token.Reader
import StyleCascade.Token.Skip

namespace StyleCascade

namespace Token

/-- Tokens that close `depth` blocks of before and every block that they open, and that end with
the last of these braces. A mark of a character set is not among them: what it passes over may
hold braces. -/
inductive Closed : Nat → List Token → Prop
  | done : Closed 0 []
  | closing {depth : Nat} {token : Token} {rest : List Token} (brace : token.kind = .closeBrace)
      (behind : Closed depth rest) : Closed (depth + 1) (token :: rest)
  | opening {depth : Nat} {token : Token} {rest : List Token} (brace : token.kind = .openBrace)
      (behind : Closed (depth + 1) rest) : Closed depth (token :: rest)
  | other {depth : Nat} {token : Token} {rest : List Token} (noOpen : token.kind ≠ .openBrace)
      (noClose : token.kind ≠ .closeBrace) (noCharset : token.kind ≠ .atCharset)
      (more : rest ≠ []) (behind : Closed depth rest) : Closed depth (token :: rest)

namespace Closed

variable {depth : Nat} {token : Token} {rest : List Token}

theorem ne_nil {tokens : List Token} (closed : Closed (depth + 1) tokens) : tokens ≠ [] := by
  rintro rfl
  cases closed

theorem of_open (closed : Closed depth (token :: rest)) (brace : token.kind = .openBrace) :
    Closed (depth + 1) rest := by
  cases closed with
  | closing close => rw [brace] at close; cases close
  | opening _ behind => exact behind
  | other noOpen => exact absurd brace noOpen

theorem of_close (closed : Closed depth (token :: rest)) (brace : token.kind = .closeBrace) :
    ∃ less, depth = less + 1 ∧ Closed less rest := by
  cases closed with
  | closing _ behind => exact ⟨_, rfl, behind⟩
  | opening opened => rw [brace] at opened; cases opened
  | other _ noClose => exact absurd brace noClose

theorem of_other (closed : Closed depth (token :: rest)) (noOpen : token.kind ≠ .openBrace)
    (noClose : token.kind ≠ .closeBrace) : rest ≠ [] ∧ Closed depth rest := by
  cases closed with
  | closing brace => exact absurd brace noClose
  | opening brace => exact absurd brace noOpen
  | other _ _ _ more behind => exact ⟨more, behind⟩

theorem ne_atCharset (closed : Closed depth (token :: rest)) : token.kind ≠ .atCharset := by
  cases closed with
  | closing brace => rw [brace]; decide
  | opening brace => rw [brace]; decide
  | other _ _ noCharset => exact noCharset

end Closed

/-- How many more blocks are open behind tokens than in front of them. -/
def level (tokens : List Token) : Int :=
  (tokens.countP (fun token => token.kind = .openBrace) : Int) -
    tokens.countP (fun token => token.kind = .closeBrace)

theorem level_cons_open {token : Token} (brace : token.kind = .openBrace) (rest : List Token) :
    level (token :: rest) = level rest + 1 := by
  have noClose : token.kind ≠ .closeBrace := by rw [brace]; decide
  simp only [level, List.countP_cons, decide_eq_true_eq, if_pos brace, if_neg noClose]
  omega

theorem level_cons_close {token : Token} (brace : token.kind = .closeBrace) (rest : List Token) :
    level (token :: rest) = level rest - 1 := by
  have noOpen : token.kind ≠ .openBrace := by rw [brace]; decide
  simp only [level, List.countP_cons, decide_eq_true_eq, if_pos brace, if_neg noOpen]
  omega

theorem level_cons_other {token : Token} (noOpen : token.kind ≠ .openBrace)
    (noClose : token.kind ≠ .closeBrace) (rest : List Token) :
    level (token :: rest) = level rest := by
  simp only [level, List.countP_cons, decide_eq_true_eq, if_neg noOpen, if_neg noClose]
  omega

theorem level_nil : level [] = 0 := by
  simp [level]

section

variable {depth : Nat} {token : Token} {rest : List Token}

/-- Where the level of tokens never falls below the blocks that are open in front, so it is with the
level of the tokens behind the first one. -/
theorem levels_of_open (opens : token.kind = .openBrace)
    (levels : ∀ front, front <+: token :: rest → 0 ≤ depth + level front) :
    ∀ front, front <+: rest → 0 ≤ (depth + 1 : Nat) + level front := by
  intro front before
  have above := levels _ ((List.prefix_cons_inj token).mpr before)
  rw [level_cons_open opens] at above
  omega

theorem levels_of_close (closes : token.kind = .closeBrace)
    (levels : ∀ front, front <+: token :: rest → 0 ≤ depth + level front) :
    ∃ less, depth = less + 1 ∧ ∀ front, front <+: rest → 0 ≤ less + level front := by
  have inner : ∀ front, front <+: rest → 0 ≤ depth + (level front - 1) := by
    intro front before
    rw [← level_cons_close closes]
    exact levels _ ((List.prefix_cons_inj token).mpr before)
  have first := inner [] List.nil_prefix
  rw [level_nil] at first
  refine ⟨depth - 1, by omega, fun front before => ?_⟩
  have above := inner front before
  omega

theorem levels_of_other (noOpen : token.kind ≠ .openBrace) (noClose : token.kind ≠ .closeBrace)
    (levels : ∀ front, front <+: token :: rest → 0 ≤ depth + level front) :
    ∀ front, front <+: rest → 0 ≤ depth + level front := by
  intro front before
  rw [← level_cons_other noOpen noClose]
  exact levels _ ((List.prefix_cons_inj token).mpr before)

end

/-- Tokens whose level never falls below where `depth` blocks are open, and comes out there. -/
theorem closed_of_level {depth : Nat} {tokens : List Token}
    (noCharset : ∀ token ∈ tokens, token.kind ≠ .atCharset)
    (last : ∀ token, tokens.getLast? = some token → token.kind = .closeBrace)
    (levels : ∀ front, front <+: tokens → 0 ≤ depth + level front)
    (balanced : depth + level tokens = 0) : Closed depth tokens := by
  -- along the tokens, with the blocks that are open in front of each
  induction tokens generalizing depth with
  | nil =>
    have none : depth = 0 := by rw [level_nil] at balanced; omega
    rw [none]
    exact .done
  | cons token rest ih =>
    have behind := fun other mem => noCharset other (List.mem_cons_of_mem token mem)
    have lastBehind : ∀ other, rest.getLast? = some other → other.kind = .closeBrace := by
      intro other found
      refine last other ?_
      rw [List.getLast?_cons, found]
      rfl
    by_cases opened : token.kind = .openBrace
    · rw [level_cons_open opened] at balanced
      exact .opening opened (ih behind lastBehind (levels_of_open opened levels) (by omega))
    by_cases closed : token.kind = .closeBrace
    · rw [level_cons_close closed] at balanced
      obtain ⟨less, rfl, inner⟩ := levels_of_close closed levels
      exact .closing closed (ih behind lastBehind inner (by omega))
    · rw [level_cons_other opened closed] at balanced
      have more : rest ≠ [] := by
        rintro rfl
        exact closed (last token rfl)
      exact .other opened closed (noCharset token List.mem_cons_self) more
        (ih behind lastBehind (levels_of_other opened closed levels) balanced)

section

variable {depth : Nat} {token : Token} {rest : List Token}

theorem skipBlock_open (brace : token.kind = .openBrace) :
    skipBlock depth (token :: rest) = skipBlock (depth + 1) rest := by
  rw [skipBlock_cons, brace]

theorem skipBlock_close_zero (brace : token.kind = .closeBrace) :
    skipBlock 0 (token :: rest) = rest := by
  rw [skipBlock_cons, brace]

theorem skipBlock_close_succ (brace : token.kind = .closeBrace) :
    skipBlock (depth + 1) (token :: rest) = skipBlock depth rest := by
  rw [skipBlock_cons, brace]

theorem skipBlock_other (noOpen : token.kind ≠ .openBrace) (noClose : token.kind ≠ .closeBrace) :
    skipBlock depth (token :: rest) = skipBlock depth rest := by
  rw [skipBlock_cons]
  split
  · next opened => exact absurd opened noOpen
  · next closed => exact absurd closed noClose
  · next closed => exact absurd closed noClose
  · rfl

theorem skipStatement_open (brace : token.kind = .openBrace) :
    skipStatement depth (token :: rest) = skipStatement (depth + 1) rest := by
  rw [skipStatement_cons, brace]

theorem skipStatement_close_zero (brace : token.kind = .closeBrace) :
    skipStatement 0 (token :: rest) = token :: rest := by
  rw [skipStatement_cons, brace]

theorem skipStatement_close_one (brace : token.kind = .closeBrace) :
    skipStatement 1 (token :: rest) = rest := by
  rw [skipStatement_cons, brace]

theorem skipStatement_close_succ (brace : token.kind = .closeBrace) :
    skipStatement (depth + 2) (token :: rest) = skipStatement (depth + 1) rest := by
  rw [skipStatement_cons, brace]

theorem skipStatement_semicolon (mark : token.kind = .semicolon) :
    skipStatement 0 (token :: rest) = rest := by
  simp only [skipStatement_cons, mark]

theorem skipStatement_other (noOpen : token.kind ≠ .openBrace) (noClose : token.kind ≠ .closeBrace)
    (inner : ¬(token.kind = .semicolon ∧ depth = 0)) :
    skipStatement depth (token :: rest) = skipStatement depth rest := by
  rw [skipStatement_cons]
  split
  · next mark => exact absurd ⟨mark, rfl⟩ inner
  · next opened => exact absurd opened noOpen
  · next closed => exact absurd closed noClose
  · next closed => exact absurd closed noClose
  · next closed => exact absurd closed noClose
  · rfl

end

end Token

/-- The tokens of a source, as they stand in another one: each of them has its place and its bytes
there, and others may follow. Only white space may be written in another way. -/
structure Frame where
  tokens : List Token
  move : Token → Token
  tail : List Token
  kind_move : ∀ token, (move token).kind = token.kind
  text_move : ∀ token, token.kind ≠ .space → (move token).text = token.text

namespace Frame

attribute [simp] kind_move

/-- Tokens of the source, as they stand in the other one, with the tokens that follow there. -/
def extend (frame : Frame) (tokens : List Token) : List Token :=
  tokens.map frame.move ++ frame.tail

theorem text_of_kind (frame : Frame) {token : Token} {kind : TokenKind}
    (same : token.kind = kind) (solid : kind ≠ .space) :
    (frame.move token).text = token.text :=
  frame.text_move token (same ▸ solid)

theorem identifier_of_kind (frame : Frame) {token : Token} {kind : TokenKind}
    (same : token.kind = kind) (solid : kind ≠ .space) :
    (frame.move token).identifier = token.identifier :=
  congrArg Component.unescapeText (frame.text_of_kind same solid)

theorem extend_nil (frame : Frame) : frame.extend [] = frame.tail :=
  rfl

@[simp] theorem extend_cons (frame : Frame) (token : Token) (rest : List Token) :
    frame.extend (token :: rest) = frame.move token :: frame.extend rest :=
  rfl

@[simp] theorem length_extend (frame : Frame) (tokens : List Token) :
    (frame.extend tokens).length = tokens.length + frame.tail.length := by
  rw [extend, List.length_append, List.length_map]

/-- The last tokens of the source, with `depth` blocks open. If others follow, all blocks are
closed before these. -/
structure Ended (frame : Frame) (depth : Nat) (tokens : List Token) : Prop where
  inside : tokens <:+ frame.tokens
  closed : frame.tail = [] ∨ Token.Closed depth tokens

/-- The same for tokens that are not yet at their end, if others follow. -/
structure Sealed (frame : Frame) (depth : Nat) (tokens : List Token) : Prop
    extends Ended frame depth tokens where
  more : frame.tail = [] ∨ tokens ≠ []

variable {frame : Frame} {depth : Nat} {token : Token} {tokens rest : List Token}

theorem Ended.behind (ended : frame.Ended depth (token :: rest)) : rest <:+ frame.tokens :=
  (List.suffix_cons token rest).trans ended.inside

theorem Ended.sealed_cons (ended : frame.Ended depth (token :: rest)) :
    frame.Sealed depth (token :: rest) :=
  ⟨ended, Or.inr (List.cons_ne_nil _ _)⟩

theorem Ended.sealed_of_skipSpace (ended : frame.Ended depth tokens)
    (front : Token.skipSpace tokens = token :: rest) : frame.Sealed depth tokens := by
  cases tokens with
  | nil => cases front
  | cons => exact ended.sealed_cons

/-- Inside a block there is more, since the brace that closes it is still to come. -/
theorem Ended.sealed_of_pos (ended : frame.Ended depth tokens) (opened : 0 < depth) :
    frame.Sealed depth tokens := by
  cases depth with
  | zero => cases opened
  | succ less => exact ⟨ended, ended.closed.imp id Token.Closed.ne_nil⟩

theorem Ended.of_close (ended : frame.Ended (depth + 1) (token :: rest))
    (brace : token.kind = .closeBrace) : frame.Ended depth rest := by
  refine ⟨ended.behind, ended.closed.imp id (fun closed => ?_)⟩
  obtain ⟨less, same, behind⟩ := closed.of_close brace
  cases same
  exact behind

theorem Ended.of_open (ended : frame.Ended depth (token :: rest))
    (brace : token.kind = .openBrace) : frame.Sealed (depth + 1) rest :=
  Ended.sealed_of_pos ⟨ended.behind, ended.closed.imp id (fun closed => closed.of_open brace)⟩
    (Nat.succ_pos depth)

theorem Ended.of_other (ended : frame.Ended depth (token :: rest))
    (noOpen : token.kind ≠ .openBrace) (noClose : token.kind ≠ .closeBrace) :
    frame.Sealed depth rest :=
  { inside := ended.behind
    closed := ended.closed.imp id (fun closed => (closed.of_other noOpen noClose).2)
    more := ended.closed.imp id (fun closed => (closed.of_other noOpen noClose).1) }

theorem Sealed.of_kind {kind : TokenKind} (sealed : frame.Sealed depth (token :: rest))
    (same : token.kind = kind) (noBrace : kind ≠ .openBrace ∧ kind ≠ .closeBrace) :
    frame.Sealed depth rest :=
  sealed.of_other (same ▸ noBrace.1) (same ▸ noBrace.2)

/-- Where no block is open, a closing brace may stand only if no tokens follow the source. -/
theorem Ended.tail_eq_nil_of_close (ended : frame.Ended 0 (token :: rest))
    (brace : token.kind = .closeBrace) : frame.tail = [] := by
  obtain empty | closed := ended.closed
  · exact empty
  · obtain ⟨less, same, -⟩ := closed.of_close brace
    cases same

theorem Sealed.tail_eq_nil (sealed : frame.Sealed depth []) : frame.tail = [] :=
  sealed.more.resolve_right (fun more => more rfl)

theorem Sealed.extend_nil (sealed : frame.Sealed depth []) : frame.extend [] = [] :=
  sealed.tail_eq_nil

/-- White space is passed over in the other source as in the source. -/
theorem Sealed.skipSpace (sealed : frame.Sealed depth tokens) :
    Token.skipSpace (frame.extend tokens) = frame.extend (Token.skipSpace tokens) ∧
      frame.Sealed depth (Token.skipSpace tokens) := by
  induction tokens with
  | nil =>
    rw [sealed.extend_nil]
    exact ⟨sealed.extend_nil.symm, sealed⟩
  | cons token rest ih =>
    by_cases space : token.kind = .space
    · have step : Token.skipSpace (token :: rest) = Token.skipSpace rest := by
        simp [Token.skipSpace, space]
      have far : Token.skipSpace (frame.extend (token :: rest)) =
          Token.skipSpace (frame.extend rest) := by
        simp [Token.skipSpace, space]
      rw [step, far]
      exact ih (sealed.of_kind space (by decide))
    · have step : Token.skipSpace (token :: rest) = token :: rest := by
        simp [Token.skipSpace, space]
      have far : Token.skipSpace (frame.extend (token :: rest)) =
          frame.extend (token :: rest) := by
        simp [Token.skipSpace, space]
      rw [step, far]
      exact ⟨rfl, sealed⟩

theorem Sealed.skipSpace_nil (sealed : frame.Sealed depth tokens)
    (empty : Token.skipSpace tokens = []) :
    Token.skipSpace (frame.extend tokens) = [] ∧ frame.Sealed depth [] := by
  obtain ⟨spaced, start⟩ := sealed.skipSpace
  rw [empty] at spaced start
  exact ⟨spaced.trans start.extend_nil, start⟩

/-- Skipping space stops at the same token on both sides of a change. -/
theorem Sealed.skipSpace_cons (sealed : frame.Sealed depth tokens)
    (front : Token.skipSpace tokens = token :: rest) :
    Token.skipSpace (frame.extend tokens) =
        frame.move token :: frame.extend rest ∧
      frame.Sealed depth (token :: rest) := by
  obtain ⟨spaced, start⟩ := sealed.skipSpace
  rw [front] at spaced start
  exact ⟨spaced, start⟩

/-- The rest of a block is passed over inside the source. -/
theorem Sealed.skipBlock (inner : Nat)
    (sealed : frame.Sealed (depth + 1 + inner) tokens) :
    Token.skipBlock inner (frame.extend tokens) = frame.extend (Token.skipBlock inner tokens) ∧
      frame.Ended depth (Token.skipBlock inner tokens) := by
  induction tokens generalizing inner with
  | nil =>
    rw [sealed.extend_nil]
    exact ⟨sealed.extend_nil.symm, sealed.inside, Or.inl sealed.tail_eq_nil⟩
  | cons token rest ih =>
    rw [extend_cons]
    by_cases opened : token.kind = .openBrace
    · simp only [Token.skipBlock_open, frame.kind_move, opened]
      exact ih (inner + 1) (sealed.of_open opened)
    by_cases closed : token.kind = .closeBrace
    · cases inner with
      | zero =>
        simp only [Token.skipBlock_close_zero, frame.kind_move, closed, true_and]
        exact sealed.of_close closed
      | succ less =>
        have behind : frame.Ended (depth + 1 + less) rest := sealed.of_close closed
        simp only [Token.skipBlock_close_succ, frame.kind_move, closed]
        exact ih _ (behind.sealed_of_pos (by omega))
    · rw [Token.skipBlock_other opened closed,
        Token.skipBlock_other (by rwa [frame.kind_move]) (by rwa [frame.kind_move])]
      exact ih _ (sealed.of_other opened closed)

/-- A statement is passed over inside the source. -/
theorem Sealed.skipStatement (inner : Nat)
    (sealed : frame.Sealed (depth + inner) tokens) :
    Token.skipStatement inner (frame.extend tokens) =
        frame.extend (Token.skipStatement inner tokens) ∧
      frame.Ended depth (Token.skipStatement inner tokens) := by
  induction tokens generalizing inner with
  | nil =>
    rw [sealed.extend_nil]
    exact ⟨sealed.extend_nil.symm, sealed.inside, Or.inl sealed.tail_eq_nil⟩
  | cons token rest ih =>
    rw [extend_cons]
    by_cases opened : token.kind = .openBrace
    · simp only [Token.skipStatement_open, frame.kind_move, opened]
      exact ih (inner + 1) (sealed.of_open opened)
    by_cases closed : token.kind = .closeBrace
    · -- the statement ends before its outer block, with its own block, or further on
      match inner with
      | 0 =>
        simp only [Token.skipStatement_close_zero, frame.kind_move, closed, extend_cons, true_and]
        exact sealed.toEnded
      | 1 =>
        simp only [Token.skipStatement_close_one, frame.kind_move, closed, true_and]
        exact sealed.of_close closed
      | less + 2 =>
        have behind : frame.Ended (depth + (less + 1)) rest := sealed.of_close closed
        simp only [Token.skipStatement_close_succ, frame.kind_move, closed]
        exact ih _ (behind.sealed_of_pos (by omega))
    have behind := sealed.of_other opened closed
    by_cases last : token.kind = .semicolon ∧ inner = 0
    · obtain ⟨semicolon, rfl⟩ := last
      simp only [Token.skipStatement_semicolon, frame.kind_move, semicolon, true_and]
      exact behind.toEnded
    · rw [Token.skipStatement_other opened closed last,
        Token.skipStatement_other (by rwa [frame.kind_move]) (by rwa [frame.kind_move])
          (by rwa [frame.kind_move])]
      exact ih _ behind

/-- After a fault, reading goes on inside the source. -/
theorem Ended.recover (ended : frame.Ended depth (token :: rest))
    (lone : token.kind = .closeBrace → frame.tail = []) :
    Token.recover (frame.extend (token :: rest)) =
        frame.extend (Token.recover (token :: rest)) ∧
      frame.Ended depth (Token.recover (token :: rest)) := by
  by_cases closed : token.kind = .closeBrace
  · rw [extend_cons, Token.recover, Token.recover, if_pos closed, frame.kind_move,
      if_pos closed]
    exact ⟨rfl, ended.behind, Or.inl (lone closed)⟩
  · rw [extend_cons, Token.recover, Token.recover, if_neg closed, frame.kind_move,
      if_neg closed, ← extend_cons]
    exact ended.sealed_cons.skipStatement 0

theorem skipPastSemicolon_extend (alone : frame.tail = []) (tokens : List Token) :
    Token.skipPastSemicolon (frame.extend tokens) =
      frame.extend (Token.skipPastSemicolon tokens) := by
  induction tokens with
  | nil => rw [extend_nil, alone]; exact alone.symm
  | cons token rest ih =>
    rw [extend_cons, Token.skipPastSemicolon, Token.skipPastSemicolon, frame.kind_move]
    split
    · rfl
    · exact ih

/-- Reading from tokens that may go on: the same result, up to its place, with the tokens behind it
extended, or a halt with the same fault. -/
def Same (frame : Frame) (depth : Nat) {α : Type} (move : α → α)
    (one other : Except Halt (α × List Token)) : Prop :=
  match one with
  | .ok (value, rest) =>
    other = .ok (move value, frame.extend rest) ∧ frame.Sealed depth rest
  | .error halt => ∃ far, other = .error far ∧ far.fault = halt.fault

namespace Same

variable {α β : Type} {move : α → α} {moved : β → β} {one other : Except Halt (α × List Token)}

theorem ok {value : α} (sealed : frame.Sealed depth rest) :
    frame.Same depth move (.ok (value, rest)) (.ok (move value, frame.extend rest)) :=
  ⟨rfl, sealed⟩

theorem error {halt far : Halt} (fault : far.fault = halt.fault) :
    frame.Same depth move (.error halt) (.error far) :=
  ⟨far, rfl, fault⟩

theorem of_ok {value : α} (same : frame.Same depth move one other)
    (read : one = .ok (value, rest)) :
    other = .ok (move value, frame.extend rest) ∧ frame.Sealed depth rest := by
  subst read
  exact same

theorem of_error {halt : Halt} (same : frame.Same depth move one other)
    (read : one = .error halt) : ∃ far, other = .error far ∧ far.fault = halt.fault := by
  subst read
  exact same

/-- A change of the result alone. -/
theorem map {near far : α × List Token → β × List Token}
    (same : frame.Same depth move one other)
    (agree : ∀ value rest, (near (value, rest)).2 = rest ∧
      far (move value, frame.extend rest) = (moved (near (value, rest)).1, frame.extend rest)) :
    frame.Same depth moved (one.map near) (other.map far) := by
  cases one with
  | error halt =>
    obtain ⟨far, rfl, fault⟩ := same
    exact error fault
  | ok found =>
    obtain ⟨rfl, sealed⟩ := same
    obtain ⟨keeps, moves⟩ := agree found.1 found.2
    simp only [Same, Except.map, moves, keeps]
    exact ⟨trivial, sealed⟩

/-- Whatever holds of two halts with the same fault, and of what follows the same result, holds of
what follows both readings. -/
theorem bind_cases {agree : Except Halt (β × List Token) → Except Halt (β × List Token) → Prop}
    {near far : α × List Token → Except Halt (β × List Token)}
    (same : frame.Same depth move one other)
    (stopped : ∀ halt stop : Halt, stop.fault = halt.fault → agree (.error halt) (.error stop))
    (next : ∀ value rest, one = .ok (value, rest) → frame.Sealed depth rest →
      agree (near (value, rest)) (far (move value, frame.extend rest))) :
    agree (one >>= near) (other >>= far) := by
  cases one with
  | error halt =>
    obtain ⟨far, rfl, fault⟩ := same
    exact stopped halt far fault
  | ok found =>
    obtain ⟨rfl, sealed⟩ := same
    exact next found.1 found.2 rfl sealed

/-- Two readings in a row are the same on both sides if each is. The second one starts from a rest
that is sealed again. -/
theorem bind {after : Nat} {near far : α × List Token → Except Halt (β × List Token)}
    (same : frame.Same depth move one other)
    (next : ∀ value rest, one = .ok (value, rest) → frame.Sealed depth rest →
      frame.Same after moved (near (value, rest)) (far (move value, frame.extend rest))) :
    frame.Same after moved (one >>= near) (other >>= far) :=
  same.bind_cases (fun _ _ fault => error fault) next

end Same

namespace Sealed

/-- A token that is no brace is taken in the other source as in the source. -/
theorem expect (sealed : frame.Sealed depth tokens) (kind : TokenKind)
    (fault : SyntaxFault) (noBrace : kind ≠ .openBrace ∧ kind ≠ .closeBrace) :
    frame.Same depth (frame.move) (Token.expect kind fault tokens)
      (Token.expect kind fault (frame.extend tokens)) := by
  cases tokens with
  | nil =>
    rw [sealed.extend_nil]
    exact Same.error rfl
  | cons token rest =>
    rw [extend_cons, Token.expect, Token.expect, frame.kind_move]
    split
    · next right => exact Same.ok (sealed.of_kind right noBrace)
    · exact Same.error rfl

/-- The brace of a block is taken in the other source as in the source. -/
theorem expectOpen (sealed : frame.Sealed depth tokens) (fault : SyntaxFault) :
    frame.Same (depth + 1) (frame.move)
      (Token.expect .openBrace fault tokens)
      (Token.expect .openBrace fault (frame.extend tokens)) := by
  cases tokens with
  | nil =>
    rw [sealed.extend_nil]
    exact Same.error rfl
  | cons token rest =>
    rw [extend_cons, Token.expect, Token.expect, frame.kind_move]
    split
    · next right => exact Same.ok (sealed.of_open right)
    · exact Same.error rfl

theorem takeName (sealed : frame.Sealed depth tokens) :
    frame.Same depth id (Token.takeName tokens) (Token.takeName (frame.extend tokens)) := by
  cases tokens with
  | nil =>
    rw [sealed.extend_nil]
    exact Same.error rfl
  | cons token rest =>
    rw [extend_cons, Token.takeName, Token.takeName, Token.expect, Token.expect, frame.kind_move]
    split
    · next ident =>
      simp only [Except.map, frame.identifier_of_kind ident (by decide)]
      exact Same.ok (sealed.of_kind ident (by decide))
    · exact Same.error rfl

theorem takeWord (sealed : frame.Sealed depth tokens) :
    frame.Same depth id (Token.takeWord tokens) (Token.takeWord (frame.extend tokens)) :=
  sealed.takeName.map (fun _ _ => ⟨rfl, rfl⟩)

end Sealed

end Frame

end StyleCascade
