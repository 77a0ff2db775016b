import StyleCascade.Proofs.Declared.Frame
import StyleCascade.Proofs.Selector.Frame
import StyleCascade.Sheet.Reader

namespace StyleCascade

namespace Statement

/-- Two statements with the same effect or the same fault, but for values that compare. The places
of faults do not matter. -/
inductive Alike (alike : String → String → Prop) : Statement → Statement → Prop
  | ruleset {selectors : List (Selector × Specificity)} {one other : List Declaration}
      (declarations : List.Forall₂ (Declaration.Alike alike) one other) :
      Alike alike (.ruleset selectors one) (.ruleset selectors other)
  | link (url : String) : Alike alike (.link url) (.link url)
  | skippedMedia (media : List String) : Alike alike (.skippedMedia media) (.skippedMedia media)
  | fault {one other : List Declaration} {place another : Nat} {cause : SyntaxFault}
      (declarations : List.Forall₂ (Declaration.Alike alike) one other) :
      Alike alike (.fault one place cause) (.fault other another cause)

/-- How statements inside a block go on at a token. -/
theorem readNested_of_front {source : List UInt8} {token : Token} {tokens rest : List Token}
    (front : Token.skipSpace tokens = token :: rest) :
    readNested source tokens =
      if token.kind = .closeBrace then ([], token :: rest)
      else
        let outcome := settle source (token :: rest) (takePlain source token rest)
        let more := readNested source outcome.2
        (outcome.1 ++ more.1, more.2) := by
  rw [readNested]
  split
  · next empty => rw [front] at empty; cases empty
  · next same => rw [front] at same; cases same; rfl

theorem readNested_of_end {source : List UInt8} {tokens : List Token}
    (empty : Token.skipSpace tokens = []) : readNested source tokens = ([], []) := by
  rw [readNested]
  split
  · rfl
  · next front => rw [empty] at front; cases front

/-- How statements in no block go on at a token. -/
theorem readAll_of_front {source : List UInt8} {media : List String} {token : Token}
    {tokens rest : List Token} (front : Token.skipSpace tokens = token :: rest) :
    readAll source media tokens =
      (settle source (token :: rest) (takeOuter source media token rest)).1 ++
        readAll source media
          (settle source (token :: rest) (takeOuter source media token rest)).2 := by
  rw [readAll]
  split
  · next empty => rw [front] at empty; cases empty
  · next same => rw [front] at same; cases same; rfl

theorem readAll_of_end {source : List UInt8} {media : List String} {tokens : List Token}
    (empty : Token.skipSpace tokens = []) : readAll source media tokens = [] := by
  rw [readAll]
  split
  · rfl
  · next front => rw [empty] at front; cases front

end Statement

theorem Token.skipPastSemicolon_suffix (tokens : List Token) :
    Token.skipPastSemicolon tokens <:+ tokens := by
  induction tokens with
  | nil => exact List.suffix_refl []
  | cons token rest ih =>
    rw [Token.skipPastSemicolon]
    split
    · exact List.suffix_cons token rest
    · exact ih.trans (List.suffix_cons token rest)

namespace Frame

variable {frame : Frame} {near far : List UInt8} {alike : String → String → Prop} {depth : Nat}
  {token : Token} {tokens rest : List Token}

/-- A statement in another source: it comes to statements that compare, with the tokens behind it
extended, or it fails in the same way. -/
def SameStatement (frame : Frame) (depth : Nat) (alike : String → String → Prop)
    (one other : StatementReading) : Prop :=
  match one with
  | .ok (statements, rest) =>
    ∃ moved, other = .ok (moved, frame.extend rest) ∧
      List.Forall₂ (Statement.Alike alike) statements moved ∧ frame.Ended depth rest
  | .error failed =>
    ∃ stop, other = .error stop ∧
      List.Forall₂ (Declaration.Alike alike) failed.declarations stop.declarations ∧
      stop.halt.fault = failed.halt.fault

/-- A statement without an effect. -/
theorem SameStatement.nothing (ended : frame.Ended depth rest) :
    frame.SameStatement depth alike (.ok ([], rest)) (.ok ([], frame.extend rest)) :=
  ⟨[], rfl, .nil, ended⟩

/-- Two readings that fail for the same fault are the same statement as long as the declarations
before the fault are alike. -/
theorem SameStatement.error {one other : List Declaration} {halt stop : Halt}
    (declarations : List.Forall₂ (Declaration.Alike alike) one other)
    (fault : stop.fault = halt.fault) :
    frame.SameStatement depth alike (.error ⟨one, halt⟩) (.error ⟨other, stop⟩) :=
  ⟨_, rfl, declarations, fault⟩

/-- The brace that closes a block ends it in the other source as well. -/
theorem Sealed.dropClose (sealed : frame.Sealed (depth + 1) tokens)
    (closes : ∀ token behind, tokens = token :: behind → token.kind = .closeBrace) :
    Statement.dropClose (frame.extend tokens) = frame.extend (Statement.dropClose tokens) ∧
      frame.Ended depth (Statement.dropClose tokens) := by
  cases tokens with
  | nil =>
    rw [sealed.extend_nil]
    exact ⟨sealed.extend_nil.symm, sealed.inside, Or.inl sealed.tail_eq_nil⟩
  | cons token rest =>
    have brace := closes token rest rfl
    rw [extend_cons, Statement.dropClose, Statement.dropClose, frame.kind_move, if_pos brace,
      if_pos brace]
    exact ⟨rfl, sealed.of_close brace⟩

/-- A block is read alike in a changed source, its closing brace being the last thing it looks at.
-/
theorem Sealed.takeBlock {selectors : List (Selector × Specificity)}
    (texts : frame.Texts near far alike) (sealed : frame.Sealed (depth + 1) tokens) :
    frame.SameStatement depth alike (Statement.takeBlock near selectors tokens)
      (Statement.takeBlock far selectors (frame.extend tokens)) := by
  have run := sealed.readRun texts
  simp only [Statement.takeBlock, run.stop]
  cases stop : (DeclarationRun.read near (some .closeBrace) tokens).stop with
  | some cause => exact SameStatement.error run.declarations rfl
  | none =>
    obtain ⟨rest, behind⟩ := run.rest stop
    obtain ⟨dropped, ended⟩ := behind.dropClose (run.closes stop)
    simp only [rest, dropped]
    exact ⟨_, rfl, .cons (.ruleset run.declarations) .nil, ended⟩

/-- So is a rule with its selectors. -/
theorem Sealed.takeRuleset (texts : frame.Texts near far alike)
    (sealed : frame.Sealed depth tokens) :
    frame.SameStatement depth alike (Statement.takeRuleset near tokens)
      (Statement.takeRuleset far (frame.extend tokens)) := by
  unfold Statement.takeRuleset
  cases listed : Selector.takeList tokens with
  | error halt =>
    obtain ⟨stop, listed', fault⟩ := sealed.takeList.of_error listed
    rw [listed']
    exact SameStatement.error .nil fault
  | ok found =>
    obtain ⟨listed', after⟩ := sealed.takeList.of_ok listed
    have brace := after.expectOpen .expectedBlock
    rw [listed']
    simp only
    cases opened : Token.expect .openBrace .expectedBlock found.2 with
    | error halt =>
      obtain ⟨stop, opened', fault⟩ := brace.of_error opened
      rw [opened']
      exact SameStatement.error .nil fault
    | ok last =>
      obtain ⟨opened', inner⟩ := brace.of_ok opened
      rw [opened']
      exact inner.takeBlock texts

theorem Sealed.takeDescription (sealed : frame.Sealed depth tokens) :
    frame.SameStatement depth alike (Statement.takeDescription tokens)
      (Statement.takeDescription (frame.extend tokens)) := by
  induction tokens with
  | nil =>
    rw [sealed.extend_nil, Statement.takeDescription]
    exact ⟨[], congrArg (fun rest => Except.ok ([], rest)) sealed.extend_nil.symm, .nil,
      sealed.toEnded⟩
  | cons token rest ih =>
    rw [extend_cons, Statement.takeDescription, Statement.takeDescription, frame.kind_move]
    split
    · next semicolon =>
      exact SameStatement.nothing (sealed.of_kind semicolon (by decide)).toEnded
    · next opened =>
      obtain ⟨skipped, ended⟩ := (sealed.of_open opened).skipBlock 0
      rw [skipped]
      exact SameStatement.nothing ended
    · exact SameStatement.error .nil rfl
    · next noOpen noClose => exact ih (sealed.of_other noOpen noClose)

theorem Sealed.takeLinkMedia (sealed : frame.Sealed depth tokens) :
    frame.Same depth id (Statement.takeLinkMedia tokens)
      (Statement.takeLinkMedia (frame.extend tokens)) := by
  induction tokens with
  | nil =>
    rw [sealed.extend_nil, Statement.takeLinkMedia]
    exact ⟨congrArg (fun rest => Except.ok ((), rest)) sealed.extend_nil.symm, sealed⟩
  | cons token rest ih =>
    rw [extend_cons, Statement.takeLinkMedia, Statement.takeLinkMedia, frame.kind_move]
    split
    · next semicolon => exact Same.ok (sealed.of_kind semicolon (by decide))
    · exact Same.error rfl
    · exact Same.error rfl
    · next noOpen noClose => exact ih (sealed.of_other noOpen noClose)

/-- The address of another sheet is a token that is neither a brace nor white space. -/
theorem kind_of_address? {url : String} (found : Statement.address? token = some url) :
    token.kind = .str ∨ token.kind = .function := by
  unfold Statement.address? at found
  split at found
  · next kind _ => exact Or.inl kind
  · next kind _ => exact Or.inr kind
  · cases found

theorem address?_move (frame : Frame) (token : Token) :
    Statement.address? (frame.move token) = Statement.address? token := by
  by_cases space : token.kind = .space
  · simp only [Statement.address?, frame.kind_move, space]
  · simp only [Statement.address?, frame.kind_move, frame.text_move token space]

theorem Sealed.takeLink (sealed : frame.Sealed depth tokens) :
    frame.SameStatement depth alike (Statement.takeLink tokens)
      (Statement.takeLink (frame.extend tokens)) := by
  unfold Statement.takeLink
  cases shape : Token.skipSpace tokens with
  | nil =>
    rw [(sealed.skipSpace_nil shape).1]
    exact SameStatement.error .nil rfl
  | cons token rest =>
    obtain ⟨spaced, start⟩ := sealed.skipSpace_cons shape
    simp only [spaced, frame.address?_move]
    cases found : Statement.address? token with
    | none => exact SameStatement.error .nil rfl
    | some url =>
      have noBrace : token.kind ≠ .openBrace ∧ token.kind ≠ .closeBrace := by
        obtain kind | kind := kind_of_address? found <;> rw [kind] <;> decide
      have same := (start.of_other noBrace.1 noBrace.2).takeLinkMedia
      cases passed : Statement.takeLinkMedia rest with
      | error halt =>
        obtain ⟨stop, passed', fault⟩ := same.of_error passed
        simp only [passed']
        exact SameStatement.error .nil fault
      | ok last =>
        obtain ⟨passed', behind⟩ := same.of_ok passed
        simp only [passed']
        exact ⟨_, rfl, .cons (.link url) .nil, behind.toEnded⟩

/-- The names of media end with the brace that opens their block. -/
theorem Sealed.takeMediaNames (sealed : frame.Sealed depth tokens) :
    frame.Same (depth + 1) id (Statement.takeMediaNames tokens)
      (Statement.takeMediaNames (frame.extend tokens)) := by
  induction tokens with
  | nil =>
    rw [sealed.extend_nil]
    exact Same.error rfl
  | cons token rest ih =>
    rw [extend_cons, Statement.takeMediaNames, Statement.takeMediaNames, frame.kind_move]
    split
    · next space => exact ih (sealed.of_kind space (by decide))
    · next comma => exact ih (sealed.of_kind comma (by decide))
    · next ident =>
      rw [frame.identifier_of_kind ident (by decide)]
      exact (ih (sealed.of_kind ident (by decide))).map (fun _ _ => ⟨rfl, rfl⟩)
    · next opened => exact Same.ok (sealed.of_open opened)
    · exact Same.error rfl

/-- A mark of a character set stands only in a source that nothing follows. -/
theorem Ended.takeCharset (ended : frame.Ended depth (token :: rest))
    (charset : token.kind = .atCharset) :
    Token.skipPastSemicolon (frame.extend rest) = frame.extend (Token.skipPastSemicolon rest) ∧
      frame.Ended depth (Token.skipPastSemicolon rest) := by
  have alone : frame.tail = [] :=
    ended.closed.resolve_right (fun closed => closed.ne_atCharset charset)
  exact ⟨skipPastSemicolon_extend alone rest,
    (Token.skipPastSemicolon_suffix rest).trans ended.behind, Or.inl alone⟩

/-- So is any statement that is neither a media rule nor an import. -/
theorem Ended.takePlain (texts : frame.Texts near far alike)
    (ended : frame.Ended depth (token :: rest)) :
    frame.SameStatement depth alike (Statement.takePlain near token rest)
      (Statement.takePlain far (frame.move token) (frame.extend rest)) := by
  unfold Statement.takePlain
  rw [frame.kind_move]
  split
  · next charset =>
    obtain ⟨skipped, behind⟩ := ended.takeCharset charset
    rw [skipped]
    exact SameStatement.nothing behind
  · next page => exact (ended.sealed_cons.of_kind page (by decide)).takeDescription
  · next font => exact (ended.sealed_cons.of_kind font (by decide)).takeDescription
  · exact ended.sealed_cons.takeRuleset texts

/-- Whatever a statement comes to, reading goes on inside the source. -/
theorem Ended.settle {one other : StatementReading} (near far : List UInt8)
    (ended : frame.Ended depth (token :: rest))
    (lone : token.kind = .closeBrace → frame.tail = [])
    (same : frame.SameStatement depth alike one other) :
    List.Forall₂ (Statement.Alike alike) (Statement.settle near (token :: rest) one).1
        (Statement.settle far (frame.extend (token :: rest)) other).1 ∧
      (Statement.settle far (frame.extend (token :: rest)) other).2 =
        frame.extend (Statement.settle near (token :: rest) one).2 ∧
      frame.Ended depth (Statement.settle near (token :: rest) one).2 := by
  cases one with
  | ok found =>
    obtain ⟨moved, rfl, like, behind⟩ := same
    exact ⟨like, rfl, behind⟩
  | error failed =>
    obtain ⟨stop, rfl, declarations, fault⟩ := same
    obtain ⟨recovered, behind⟩ := ended.recover lone
    refine ⟨?_, recovered, behind⟩
    simp only [Statement.settle, fault]
    exact .cons (.fault declarations) .nil

/-- The statements inside a block are read up to the brace that closes it. -/
theorem Sealed.readNested (texts : frame.Texts near far alike)
    (sealed : frame.Sealed (depth + 1) tokens) :
    List.Forall₂ (Statement.Alike alike) (Statement.readNested near tokens).1
        (Statement.readNested far (frame.extend tokens)).1 ∧
      Statement.dropClose (Statement.readNested far (frame.extend tokens)).2 =
        frame.extend (Statement.dropClose (Statement.readNested near tokens).2) ∧
      frame.Ended depth (Statement.dropClose (Statement.readNested near tokens).2) := by
  fun_induction Statement.readNested near tokens with
  | case1 tokens empty =>
    obtain ⟨spaced, start⟩ := sealed.skipSpace_nil empty
    rw [Statement.readNested_of_end spaced]
    exact ⟨.nil, start.extend_nil.symm, start.inside, Or.inl start.tail_eq_nil⟩
  | case2 tokens token rest front brace =>
    obtain ⟨spaced, start⟩ := sealed.skipSpace_cons front
    rw [Statement.readNested_of_front spaced, frame.kind_move, if_pos brace]
    obtain ⟨dropped, ended⟩ :=
      start.dropClose (fun other behind same => (List.cons.inj same).1 ▸ brace)
    exact ⟨.nil, dropped, ended⟩
  | case3 tokens token rest front noClose outcome more ih =>
    obtain ⟨spaced, start⟩ := sealed.skipSpace_cons front
    -- what is left behind the statement still closes the block
    have same := start.takePlain texts
    obtain ⟨like, behind, ended⟩ :=
      start.settle near far (fun brace => absurd brace noClose) same
    rw [Statement.readNested_of_front spaced, frame.kind_move, if_neg noClose]
    rw [extend_cons] at like behind
    obtain ⟨likeMore, rest, last⟩ := ih (ended.sealed_of_pos (Nat.succ_pos depth))
    simp only [behind]
    exact ⟨List.rel_append like likeMore, rest, last⟩

/-- So is a media rule with all its inner statements. -/
theorem Sealed.takeMedia (media : List String) (texts : frame.Texts near far alike)
    (sealed : frame.Sealed depth tokens) :
    frame.SameStatement depth alike (Statement.takeMedia near media tokens)
      (Statement.takeMedia far media (frame.extend tokens)) := by
  unfold Statement.takeMedia
  cases named : Statement.takeMediaNames tokens with
  | error halt =>
    obtain ⟨stop, named', fault⟩ := sealed.takeMediaNames.of_error named
    rw [named']
    exact SameStatement.error .nil fault
  | ok found =>
    obtain ⟨named', inner⟩ := sealed.takeMediaNames.of_ok named
    rw [named']
    simp only [id_eq]
    split
    · obtain ⟨like, dropped, ended⟩ := inner.readNested texts
      rw [dropped]
      exact ⟨_, rfl, like, ended⟩
    · obtain ⟨skipped, ended⟩ := inner.skipBlock 0
      rw [skipped]
      exact ⟨_, rfl, .cons (.skippedMedia found.1) .nil, ended⟩

/-- So is any statement of a sheet. -/
theorem Ended.takeOuter (media : List String) (texts : frame.Texts near far alike)
    (ended : frame.Ended depth (token :: rest)) :
    frame.SameStatement depth alike (Statement.takeOuter near media token rest)
      (Statement.takeOuter far media (frame.move token) (frame.extend rest)) := by
  unfold Statement.takeOuter
  rw [frame.kind_move]
  split
  · next mark => exact (ended.sealed_cons.of_kind mark (by decide)).takeLink
  · next mark => exact (ended.sealed_cons.of_kind mark (by decide)).takeMedia media texts
  · exact ended.takePlain texts

/-- The statements of a source are read in another one, and then those of what follows there. -/
theorem Ended.readAll (media : List String) (texts : frame.Texts near far alike)
    (ended : frame.Ended 0 tokens) :
    ∃ moved,
      Statement.readAll far media (frame.extend tokens) =
        moved ++ Statement.readAll far media frame.tail ∧
      List.Forall₂ (Statement.Alike alike) (Statement.readAll near media tokens) moved := by
  fun_induction Statement.readAll near media tokens with
  | case1 tokens empty =>
    -- a closed source ends with a brace, so only white space that nothing follows is left
    cases tokens with
    | nil => exact ⟨[], rfl, .nil⟩
    | cons token rest =>
      obtain ⟨spaced, start⟩ := ended.sealed_cons.skipSpace_nil empty
      rw [Statement.readAll_of_end spaced, start.tail_eq_nil, Statement.readAll_of_end rfl]
      exact ⟨[], rfl, .nil⟩
  | case2 tokens token rest front outcome ih =>
    obtain ⟨spaced, start⟩ := (ended.sealed_of_skipSpace front).skipSpace_cons front
    have same := start.takeOuter media texts
    obtain ⟨like, behind, after⟩ := start.settle near far start.tail_eq_nil_of_close same
    rw [extend_cons] at like behind
    obtain ⟨moved, read, likeMore⟩ := ih after
    rw [Statement.readAll_of_front spaced, behind, read, ← List.append_assoc]
    exact ⟨_, rfl, List.rel_append like likeMore⟩

end Frame

end StyleCascade
