import StyleCascade.Proofs.Declared.Frame

namespace StyleCascade

namespace Token

/-- The tokens that are left behind a reading, or from the place where it gave up. -/
def remaining {α : Type} : Reading α → List Token
  | .ok (_, rest) => rest
  | .error halt => halt.rest

theorem skipSpace_suffix (tokens : List Token) : skipSpace tokens <:+ tokens :=
  List.dropWhile_suffix _

theorem front_suffix {token : Token} {tokens rest : List Token}
    (front : skipSpace tokens = token :: rest) : token :: rest <:+ tokens :=
  front ▸ skipSpace_suffix tokens

theorem remaining_expect_suffix (kind : TokenKind) (fault : SyntaxFault) (tokens : List Token) :
    remaining (expect kind fault tokens) <:+ tokens := by
  cases tokens with
  | nil => exact List.suffix_refl _
  | cons token rest =>
    rw [expect]
    split
    · exact List.suffix_cons token rest
    · exact List.suffix_refl _

theorem remaining_map {α β : Type} (reading : Reading α) (change : α → β) :
    remaining (reading.map fun (value, rest) => (change value, rest)) = remaining reading := by
  cases reading <;> rfl

theorem remaining_takeWord_suffix (tokens : List Token) :
    remaining (takeWord tokens) <:+ tokens := by
  rw [takeWord, remaining_map, takeName, remaining_map]
  exact remaining_expect_suffix _ _ tokens

end Token

namespace Declaration

theorem remaining_takeValue_suffix (tokens : List Token) :
    Token.remaining (takeValue tokens) <:+ tokens := by
  induction tokens with
  | nil => exact List.suffix_refl _
  | cons token rest ih =>
    have spaced := (Token.skipSpace_suffix rest).trans (List.suffix_cons token rest)
    rw [takeValue]
    split
    · exact List.suffix_refl _
    split
    · simp only
      split <;> exact spaced
    split
    · exact List.suffix_refl _
    · have whole := ih.trans (List.suffix_cons token rest)
      cases read : takeValue rest <;> rwa [read] at whole

theorem remaining_take_suffix (source : List UInt8) (tokens : List Token) :
    Token.remaining (take source tokens) <:+ tokens := by
  have named := Token.remaining_takeWord_suffix tokens
  rw [take]
  cases word : Token.takeWord tokens with
  | error halt => rwa [word] at named
  | ok found =>
    obtain ⟨name, behind⟩ := found
    rw [word] at named
    have marked := Token.remaining_expect_suffix .colon .expectedColon (Token.skipSpace behind)
    have toColon := (marked.trans (Token.skipSpace_suffix behind)).trans named
    simp only [bind, Except.bind]
    cases mark : Token.expect .colon .expectedColon (Token.skipSpace behind) with
    | error halt => rwa [mark] at toColon
    | ok found =>
      obtain ⟨colon, middle⟩ := found
      rw [mark] at toColon
      have valued := remaining_takeValue_suffix (Token.skipSpace middle)
      have toValue := (valued.trans (Token.skipSpace_suffix middle)).trans toColon
      simp only
      cases read : takeValue (Token.skipSpace middle) with
      | error halt => rwa [read] at toValue
      | ok found =>
        obtain ⟨⟨value, important⟩, rest⟩ := found
        rw [read] at toValue
        simp only
        split <;> exact toValue

end Declaration

namespace Frame

variable {frame : Frame} {near far : List UInt8} {tokens : List Token} {closing : Option TokenKind}

/-- The tokens behind the source begin with a semicolon or a closing brace, or there are none. -/
def Stopped (frame : Frame) : Prop :=
  Declaration.endsValue frame.tail = true

/-- A result at its place in the other source, or the same fault; the tokens behind it are
extended. -/
def outcome (frame : Frame) {α : Type} (move : α → α) : Reading α → Reading α
  | .ok (value, rest) => .ok (move value, frame.extend rest)
  | .error halt => .error ⟨halt.fault, frame.extend halt.rest⟩

namespace Stopped

/-- What may be put behind a value is something that ends the value. -/
theorem head_kind (stopped : frame.Stopped) {token : Token} {rest : List Token}
    (head : frame.tail = token :: rest) :
    token.kind = .semicolon ∨ token.kind = .closeBrace := by
  rw [Stopped, head] at stopped
  simpa [Declaration.endsValue] using stopped

theorem endsValue_extend (stopped : frame.Stopped) (tokens : List Token) :
    Declaration.endsValue (frame.extend tokens) = Declaration.endsValue tokens := by
  cases tokens with
  | nil => exact stopped
  | cons token rest => simp only [extend_cons, Declaration.endsValue, frame.kind_move]

theorem skipSpace_tail (stopped : frame.Stopped) : Token.skipSpace frame.tail = frame.tail := by
  cases head : frame.tail with
  | nil => rfl
  | cons token rest =>
    have solid : token.kind ≠ .space := by
      obtain mark | mark := stopped.head_kind head <;> rw [mark] <;> decide
    simp [Token.skipSpace, solid]

theorem skipSpace_extend (stopped : frame.Stopped) (tokens : List Token) :
    Token.skipSpace (frame.extend tokens) = frame.extend (Token.skipSpace tokens) := by
  induction tokens with
  | nil => exact stopped.skipSpace_tail
  | cons token rest ih =>
    rw [extend_cons, Token.skipSpace, Token.skipSpace, List.dropWhile_cons, List.dropWhile_cons,
      frame.kind_move]
    split
    · exact ih
    · rfl

/-- A token of any other kind than the two that end a declaration is expected alike before and after
the change. -/
theorem expect_extend (stopped : frame.Stopped) (kind : TokenKind)
    (other : kind ≠ .semicolon ∧ kind ≠ .closeBrace) (fault : SyntaxFault) (tokens : List Token) :
    Token.expect kind fault (frame.extend tokens) =
      frame.outcome frame.move (Token.expect kind fault tokens) := by
  cases tokens with
  | nil =>
    rw [extend_nil, Token.expect, outcome, extend_nil]
    cases head : frame.tail with
    | nil => rfl
    | cons token rest =>
      have wrong : token.kind ≠ kind := by
        rintro rfl
        obtain mark | mark := stopped.head_kind head
        · exact other.1 mark
        · exact other.2 mark
      rw [Token.expect, if_neg wrong]
  | cons token rest =>
    rw [extend_cons, Token.expect, Token.expect, frame.kind_move]
    split <;> rfl

theorem takeWord_extend (stopped : frame.Stopped) (tokens : List Token) :
    Token.takeWord (frame.extend tokens) = frame.outcome id (Token.takeWord tokens) := by
  have taken := stopped.expect_extend .ident (by decide) .expectedIdentifier tokens
  rw [Token.takeWord, Token.takeWord, Token.takeName, Token.takeName, taken]
  cases word : Token.expect .ident .expectedIdentifier tokens with
  | error halt => rfl
  | ok found =>
    obtain ⟨token, rest⟩ := found
    have ident := (Token.expect_ok word).2
    simp only [outcome, Except.map, frame.identifier_of_kind ident (by decide), id_eq]

/-- So the value is cut at the same place. -/
theorem takeValue_extend (stopped : frame.Stopped) (tokens : List Token) :
    Declaration.takeValue (frame.extend tokens) =
      frame.outcome (Prod.map (List.map frame.move) id) (Declaration.takeValue tokens) := by
  induction tokens with
  | nil =>
    rw [extend_nil, Declaration.takeValue, outcome, extend_nil]
    cases head : frame.tail with
    | nil => rfl
    | cons token rest =>
      have ends : Declaration.endsValue (token :: rest) = true := head ▸ stopped
      rw [Declaration.takeValue, if_pos ends]
      rfl
  | cons token rest ih =>
    have ends := stopped.endsValue_extend (token :: rest)
    rw [extend_cons] at ends ⊢
    rw [Declaration.takeValue, Declaration.takeValue, ends, frame.kind_move]
    split
    · rfl
    split
    · simp only [stopped.skipSpace_extend, stopped.endsValue_extend]
      split <;> rfl
    split
    · rfl
    · rw [ih]
      cases Declaration.takeValue rest <;> rfl

/-- In front of a stop a declaration is the one that the source alone has there. -/
theorem take_extend (stopped : frame.Stopped) (texts : frame.Texts near far Eq)
    (inside : tokens <:+ frame.tokens) :
    Declaration.take far (frame.extend tokens) =
      frame.outcome id (Declaration.take near tokens) := by
  rw [Declaration.take, Declaration.take, stopped.takeWord_extend]
  cases word : Token.takeWord tokens with
  | error halt => rfl
  | ok found =>
    obtain ⟨name, behind⟩ := found
    obtain ⟨token, rfl, ident, -⟩ := Token.takeWord_ok word
    simp only [outcome, bind, Except.bind, id_eq, stopped.skipSpace_extend,
      stopped.expect_extend .colon (by decide)]
    cases mark : Token.expect .colon .expectedColon (Token.skipSpace behind) with
    | error halt => rfl
    | ok found =>
      obtain ⟨colon, middle⟩ := found
      obtain ⟨colonNext, colonKind⟩ := Token.expect_ok mark
      simp only [outcome, stopped.skipSpace_extend, stopped.takeValue_extend]
      cases read : Declaration.takeValue (Token.skipSpace middle) with
      | error halt => rfl
      | ok found =>
        obtain ⟨⟨value, important⟩, rest⟩ := found
        have cut : Declaration.valueTokens? (token :: behind) = some value := by
          simp only [Declaration.valueTokens?, colonNext, if_pos (And.intro ident colonKind), read]
        simp only [Prod.map, List.map_eq_nil_iff, id_eq]
        split
        · rfl
        · rw [texts _ _ inside cut]

end Stopped

end Frame

namespace DeclarationRun

/-- A run of declarations does not see the space in front of it. -/
theorem read_skipSpace (source : List UInt8) (closing : Option TokenKind)
    {tokens others : List Token} (same : Token.skipSpace tokens = Token.skipSpace others) :
    read source closing tokens = read source closing others := by
  cases front : Token.skipSpace others with
  | nil => rw [read_of_end front, read_of_end (same.trans front)]
  | cons token rest => rw [read_of_front front, read_of_front (same.trans front)]

/-- A run that goes on, with tokens of the frame behind it, where another run ends: at a fault it
stops, and at the end of its tokens it goes over into the run behind them. -/
def followed (run : DeclarationRun) (frame : Frame) (next : DeclarationRun) : DeclarationRun :=
  match run.stop with
  | none => { next with declarations := run.declarations ++ next.declarations }
  | some fault => ⟨run.declarations, some fault, frame.extend run.rest⟩

theorem followed_after (run next : DeclarationRun) (frame : Frame) (declaration : Declaration) :
    (run.after declaration).followed frame next = (run.followed frame next).after declaration := by
  cases stop : run.stop <;> simp only [followed, after, stop, List.cons_append]

theorem rest_read_suffix (source : List UInt8) (closing : Option TokenKind) (tokens : List Token) :
    (read source closing tokens).rest <:+ tokens := by
  fun_induction read source closing tokens with
  | case1 => exact List.nil_suffix
  | case2 tokens token rest front => exact Token.front_suffix front
  | case3 tokens token rest front _ _ ih =>
    exact (ih.trans (List.suffix_cons token rest)).trans (Token.front_suffix front)
  | case4 tokens token rest front _ _ _ declaration last taken ih =>
    have left := Declaration.remaining_take_suffix source (token :: rest)
    rw [taken] at left
    exact (ih.trans left).trans (Token.front_suffix front)
  | case5 tokens token rest front _ _ _ halt taken =>
    have left := Declaration.remaining_take_suffix source (token :: rest)
    rw [taken] at left
    exact left.trans (Token.front_suffix front)
  | case6 tokens token rest front => exact Token.front_suffix front

/-- In front of a stop, a run takes the declarations that the source alone has there. -/
theorem read_extend {frame : Frame} {near far : List UInt8} {tokens : List Token}
    {closing : Option TokenKind} (stopped : frame.Stopped) (texts : frame.Texts near far Eq)
    (inside : tokens <:+ frame.tokens) (inner : ∀ token ∈ tokens, closing ≠ some token.kind) :
    read far closing (frame.extend tokens) =
      (read near none tokens).followed frame (read far closing frame.tail) := by
  have frontFar {token : Token} {tokens rest : List Token}
      (front : Token.skipSpace tokens = token :: rest) :
      Token.skipSpace (frame.extend tokens) = frame.move token :: frame.extend rest := by
    rw [stopped.skipSpace_extend, front, Frame.extend_cons]
  fun_induction read near none tokens with
  | case1 tokens empty =>
    have same : Token.skipSpace (frame.extend tokens) = Token.skipSpace frame.tail := by
      rw [stopped.skipSpace_extend, empty, stopped.skipSpace_tail, Frame.extend_nil]
    rw [read_skipSpace far closing same]
    rfl
  | case2 tokens token rest front closed => cases closed
  | case3 tokens token rest front _ semicolon ih =>
    have suffix := Token.front_suffix front
    have goesOn := inner token (suffix.subset List.mem_cons_self)
    have rests := (List.suffix_cons token rest).trans suffix
    rw [read_of_front (frontFar front), frame.kind_move, if_neg goesOn, if_pos semicolon]
    exact ih (rests.trans inside) (fun other mem => inner other (rests.subset mem))
  | case4 tokens token rest front _ noSemicolon ident declaration last taken ih =>
    have suffix := Token.front_suffix front
    have goesOn := inner token (suffix.subset List.mem_cons_self)
    have left := Declaration.remaining_take_suffix near (token :: rest)
    rw [taken] at left
    have rests := left.trans suffix
    have same := stopped.take_extend texts (suffix.trans inside)
    rw [taken, Frame.extend_cons] at same
    rw [read_of_front (frontFar front), frame.kind_move, if_neg goesOn, if_neg noSemicolon,
      if_pos ident, same, followed_after,
      ← ih (rests.trans inside) (fun other mem => inner other (rests.subset mem))]
    rfl
  | case5 tokens token rest front _ noSemicolon ident halt taken =>
    have suffix := Token.front_suffix front
    have goesOn := inner token (suffix.subset List.mem_cons_self)
    have same := stopped.take_extend texts (suffix.trans inside)
    rw [taken, Frame.extend_cons] at same
    rw [read_of_front (frontFar front), frame.kind_move, if_neg goesOn, if_neg noSemicolon,
      if_pos ident, same]
    rfl
  | case6 tokens token rest front _ noSemicolon noIdent =>
    have goesOn := inner token ((Token.front_suffix front).subset List.mem_cons_self)
    rw [read_of_front (frontFar front), frame.kind_move, if_neg goesOn, if_neg noSemicolon,
      if_neg noIdent]
    rfl

end DeclarationRun

end StyleCascade
