import StyleCascade.Proofs.Sheet.Append

namespace StyleCascade

namespace Declaration

theorem ident_of_take {source : List UInt8} {token : Token} {tokens rest : List Token}
    {declaration : Declaration} (read : take source (token :: tokens) = .ok (declaration, rest)) :
    token.kind = .ident := by
  obtain ⟨⟨name, behind⟩, word, -⟩ := Reading.bind_eq_ok.mp read
  obtain ⟨first, same, ident, -⟩ := Token.takeWord_ok word
  cases same
  exact ident

/-- The text of a declaration is cut at the tokens of its value. -/
theorem valueTokens?_of_take {source : List UInt8} {tokens rest : List Token}
    {declaration : Declaration} (read : take source tokens = .ok (declaration, rest)) :
    ∃ value, valueTokens? tokens = some value ∧ declaration.value = valueText source value := by
  unfold take at read
  obtain ⟨⟨name, behind⟩, word, read⟩ := Reading.bind_eq_ok.mp read
  obtain ⟨⟨colon, middle⟩, mark, read⟩ := Reading.bind_eq_ok.mp read
  obtain ⟨⟨⟨value, important⟩, last⟩, taken, read⟩ := Reading.bind_eq_ok.mp read
  simp only at read
  split at read <;> cases read
  obtain ⟨token, rfl, ident, -⟩ := Token.takeWord_ok word
  obtain ⟨front, kind⟩ := Token.expect_ok mark
  refine ⟨value, ?_, rfl⟩
  simp only [valueTokens?, front, if_pos (And.intro ident kind), taken]

end Declaration

namespace DeclarationRun

/-- The values of the declarations that a run reads, as tokens. -/
def values (source : List UInt8) (closing : Option TokenKind) (tokens : List Token) :
    List (List Token) :=
  match _front : Token.skipSpace tokens with
  | [] => []
  | token :: rest =>
    if closing = some token.kind then []
    else if token.kind = .semicolon then values source closing rest
    else
      match _taken : Declaration.take source (token :: rest) with
      | .ok (_, behind) =>
        (Declaration.valueTokens? (token :: rest)).toList ++ values source closing behind
      | .error _ => []
  termination_by tokens.length
  decreasing_by
    · have := Token.length_skipSpace_le tokens
      rw [_front, List.length_cons] at this
      omega
    · have := Token.length_skipSpace_le tokens
      have := Declaration.length_lt_of_take _taken
      rw [_front] at *
      omega

variable {source : List UInt8} {closing : Option TokenKind} {token : Token}
  {tokens rest : List Token}

theorem values_of_end (empty : Token.skipSpace tokens = []) : values source closing tokens =
    [] := by
  rw [values]
  split
  · rfl
  · next front => rw [empty] at front; cases front

/-- How the values go on at a token. -/
theorem values_of_front (front : Token.skipSpace tokens = token :: rest) :
    values source closing tokens =
      if closing = some token.kind then []
      else if token.kind = .semicolon then values source closing rest
      else
        match Declaration.take source (token :: rest) with
        | .ok (_, behind) =>
          (Declaration.valueTokens? (token :: rest)).toList ++ values source closing behind
        | .error _ => [] := by
  rw [values]
  split
  · next empty => rw [front] at empty; cases empty
  · next same =>
    rw [front] at same; cases same
    cases taken : Declaration.take source (token :: rest) <;> rfl

/-- The texts of a run are cut at its values. -/
theorem texts_read (source : List UInt8) (closing : Option TokenKind) (tokens : List Token) :
    (read source closing tokens).declarations.map Declaration.value =
      (values source closing tokens).map (Declaration.valueText source) := by
  fun_induction read source closing tokens with
  | case1 tokens empty => rw [values_of_end empty]; rfl
  | case2 tokens token rest front closes => rw [values_of_front front, if_pos closes]; rfl
  | case3 tokens token rest front inner semicolon ih =>
    rw [values_of_front front, if_neg inner, if_pos semicolon, ih]
  | case4 tokens token rest front inner noSemicolon ident declaration behind taken ih =>
    obtain ⟨value, cut, text⟩ := Declaration.valueTokens?_of_take taken
    rw [values_of_front front, if_neg inner, if_neg noSemicolon]
    simp only [taken, cut, after, List.map_cons, text, ih, Option.toList_some, List.cons_append,
      List.nil_append]
  | case5 tokens token rest front inner noSemicolon ident halt taken =>
    rw [values_of_front front, if_neg inner, if_neg noSemicolon]
    simp only [taken, List.map_nil]
  | case6 tokens token rest front inner noSemicolon noIdent =>
    rw [values_of_front front, if_neg inner, if_neg noSemicolon]
    cases taken : Declaration.take source (token :: rest) with
    | error halt => rfl
    | ok found => exact absurd (Declaration.ident_of_take taken) noIdent

end DeclarationRun

namespace Statement

/-- The texts of the values of a ruleset. What was read of a faulty statement has no effect. -/
def texts : Statement → List String
  | .ruleset _ declarations => declarations.map Declaration.value
  | _ => []

/-- The values of a block, unless a fault costs it. -/
def blockValues (source : List UInt8) (tokens : List Token) : List (List Token) :=
  match (DeclarationRun.read source (some .closeBrace) tokens).stop with
  | some _ => []
  | none => DeclarationRun.values source (some .closeBrace) tokens

/-- The values of a ruleset. -/
def rulesetValues (source : List UInt8) (tokens : List Token) : List (List Token) :=
  match Selector.takeList tokens with
  | .error _ => []
  | .ok (_, behind) =>
    match Token.expect .openBrace .expectedBlock behind with
    | .error _ => []
    | .ok (_, rest) => blockValues source rest

/-- The values of a statement that may stand anywhere. -/
def plainValues (source : List UInt8) (token : Token) (rest : List Token) : List (List Token) :=
  match token.kind with
  | .atCharset | .atPage | .atFontFace => []
  | _ => rulesetValues source (token :: rest)

/-- The values of the statements inside a block. -/
def nestedValues (source : List UInt8) (tokens : List Token) : List (List Token) :=
  match _front : Token.skipSpace tokens with
  | [] => []
  | token :: rest =>
    if token.kind = .closeBrace then []
    else
      plainValues source token rest ++
        nestedValues source (settle source (token :: rest) (takePlain source token rest)).2
  termination_by tokens.length
  decreasing_by
    have gap := Token.length_skipSpace_le tokens
    rw [_front] at gap
    exact Nat.lt_of_lt_of_le (length_settle_lt fun _ _ read => length_lt_of_takePlain read) gap

/-- The values of a statement that stands in no block. -/
def outerValues (source : List UInt8) (media : List String) (token : Token) (rest : List Token) :
    List (List Token) :=
  match token.kind with
  | .atImport => []
  | .atMedia =>
    match takeMediaNames rest with
    | .error _ => []
    | .ok (names, inner) => if mediaApply media names then nestedValues source inner else []
  | _ => plainValues source token rest

/-- The values of the declarations that a sheet keeps, as tokens: those of its rulesets, also inside
media blocks that apply. -/
def values (source : List UInt8) (media : List String) (tokens : List Token) :
    List (List Token) :=
  match _front : Token.skipSpace tokens with
  | [] => []
  | token :: rest =>
    outerValues source media token rest ++
      values source media (settle source (token :: rest) (takeOuter source media token rest)).2
  termination_by tokens.length
  decreasing_by
    have gap := Token.length_skipSpace_le tokens
    rw [_front] at gap
    exact Nat.lt_of_lt_of_le (length_settle_lt fun _ _ read => length_lt_of_takeOuter read) gap

variable {source : List UInt8} {media : List String} {token : Token} {tokens rest : List Token}

theorem nestedValues_of_end (empty : Token.skipSpace tokens = []) :
    nestedValues source tokens = [] := by
  rw [nestedValues]
  split
  · rfl
  · next front => rw [empty] at front; cases front

/-- The values of the block of a media rule, one statement at a time. -/
theorem nestedValues_of_front (front : Token.skipSpace tokens = token :: rest) :
    nestedValues source tokens =
      if token.kind = .closeBrace then []
      else
        plainValues source token rest ++
          nestedValues source (settle source (token :: rest) (takePlain source token rest)).2 := by
  rw [nestedValues]
  split
  · next empty => rw [front] at empty; cases empty
  · next same => rw [front] at same; cases same; rfl

theorem values_of_end (empty : Token.skipSpace tokens = []) : values source media tokens = [] := by
  rw [values]
  split
  · rfl
  · next front => rw [empty] at front; cases front

/-- The values of a sheet, one statement at a time. -/
theorem values_of_front (front : Token.skipSpace tokens = token :: rest) :
    values source media tokens =
      outerValues source media token rest ++
        values source media
          (settle source (token :: rest) (takeOuter source media token rest)).2 := by
  rw [values]
  split
  · next empty => rw [front] at empty; cases empty
  · next same => rw [front] at same; cases same; rfl

/-- The texts of the rulesets that a reading comes to are cut at values. -/
def Cuts (source : List UInt8) (reading : StatementReading) (values : List (List Token)) : Prop :=
  ∀ start, (settle source start reading).1.flatMap texts =
    values.map (Declaration.valueText source)

theorem Cuts.error (failed : StatementHalt) : Cuts source (.error failed) [] :=
  fun _ => rfl

theorem Cuts.nothing (rest : List Token) : Cuts source (.ok ([], rest)) [] :=
  fun _ => rfl

theorem takeBlock_cuts (source : List UInt8) (selectors : List (Selector × Specificity))
    (tokens : List Token) :
    Cuts source (takeBlock source selectors tokens) (blockValues source tokens) := by
  cases stop : (DeclarationRun.read source (some .closeBrace) tokens).stop with
  | some cause =>
    simp only [takeBlock, blockValues, stop]
    exact Cuts.error _
  | none =>
    intro start
    simp only [takeBlock, blockValues, stop, settle, List.flatMap_cons, List.flatMap_nil,
      List.append_nil, texts]
    exact DeclarationRun.texts_read source (some .closeBrace) tokens

theorem takeRuleset_cuts (source : List UInt8) (tokens : List Token) :
    Cuts source (takeRuleset source tokens) (rulesetValues source tokens) := by
  unfold takeRuleset rulesetValues
  cases listed : Selector.takeList tokens with
  | error halt => exact Cuts.error _
  | ok found =>
    simp only
    cases opened : Token.expect .openBrace .expectedBlock found.2 with
    | error halt => exact Cuts.error _
    | ok inner => exact takeBlock_cuts source found.1 inner.2

theorem takeDescription_cuts (source : List UInt8) (tokens : List Token) :
    Cuts source (takeDescription tokens) [] := by
  fun_induction takeDescription tokens with
  | case1 => exact Cuts.nothing _
  | case2 => exact Cuts.nothing _
  | case3 => exact Cuts.nothing _
  | case4 => exact Cuts.error _
  | case5 token rest _ _ _ ih => exact ih

theorem takePlain_cuts (source : List UInt8) (token : Token) (rest : List Token) :
    Cuts source (takePlain source token rest) (plainValues source token rest) := by
  unfold takePlain plainValues
  cases token.kind
  case atCharset => exact Cuts.nothing _
  case atPage | atFontFace => exact takeDescription_cuts source rest
  all_goals exact takeRuleset_cuts source (token :: rest)

theorem texts_readNested (source : List UInt8) (tokens : List Token) :
    (readNested source tokens).1.flatMap texts =
      (nestedValues source tokens).map (Declaration.valueText source) := by
  fun_induction readNested source tokens with
  | case1 tokens empty => rw [nestedValues_of_end empty]; rfl
  | case2 tokens token rest front closes => rw [nestedValues_of_front front, if_pos closes]; rfl
  | case3 tokens token rest front inner outcome more ih =>
    rw [nestedValues_of_front front, if_neg inner, List.flatMap_append, List.map_append,
      takePlain_cuts source token rest (token :: rest), ih]

theorem takeLink_cuts (source : List UInt8) (tokens : List Token) :
    Cuts source (takeLink tokens) [] := by
  unfold takeLink
  split
  · exact Cuts.error _
  · split
    · exact Cuts.error _
    · split
      · exact Cuts.error _
      · exact fun _ => rfl

theorem takeOuter_cuts (source : List UInt8) (media : List String) (token : Token)
    (rest : List Token) :
    Cuts source (takeOuter source media token rest) (outerValues source media token rest) := by
  unfold takeOuter outerValues
  cases token.kind
  case atImport => exact takeLink_cuts source rest
  case atMedia =>
    simp only [takeMedia]
    cases named : takeMediaNames rest with
    | error halt => exact Cuts.error _
    | ok found =>
      simp only
      split
      · exact fun _ => texts_readNested source found.2
      · exact fun _ => rfl
  all_goals exact takePlain_cuts source token rest

/-- The texts of the rulesets of a sheet are cut at its values, in their order. -/
theorem texts_readAll (source : List UInt8) (media : List String) (tokens : List Token) :
    (readAll source media tokens).flatMap texts =
      (values source media tokens).map (Declaration.valueText source) := by
  fun_induction readAll source media tokens with
  | case1 tokens empty => rw [values_of_end empty]; rfl
  | case2 tokens token rest front outcome ih =>
    rw [values_of_front front, List.flatMap_append, List.map_append,
      takeOuter_cuts source media token rest (token :: rest), ih]

section Same

variable {alike : String → String → Prop}

theorem declarations_eq_of_texts {one other : List Declaration}
    (like : List.Forall₂ (Declaration.Alike alike) one other)
    (same : other.map Declaration.value = one.map Declaration.value) : other = one := by
  induction like with
  | nil => rfl
  | @cons first second rest more like _ ih =>
    obtain ⟨value, values⟩ := List.cons.inj same
    obtain ⟨name, -, important⟩ := like
    cases first
    cases second
    simp only at name value important
    rw [name, value, important, ih values]

theorem Alike.length_texts {one other : Statement} (like : Alike alike one other) :
    other.texts.length = one.texts.length := by
  cases like with
  | ruleset declarations => simp only [texts, List.length_map, declarations.length_eq]
  | _ => rfl

theorem Alike.bare_of_texts {one other : Statement} (like : Alike alike one other)
    (same : other.texts = one.texts) : other.bare = one.bare := by
  cases like with
  | ruleset declarations => rw [declarations_eq_of_texts declarations same]
  | _ => rfl

/-- Statements that differ in nothing but texts are the same where they have the same texts. -/
theorem map_bare_of_texts {statements moved : List Statement}
    (like : List.Forall₂ (Alike alike) statements moved)
    (same : moved.flatMap texts = statements.flatMap texts) :
    moved.map bare = statements.map bare := by
  induction like with
  | nil => rfl
  | cons first _ ih =>
    obtain ⟨one, more⟩ := List.append_inj same first.length_texts
    rw [List.map_cons, List.map_cons, first.bare_of_texts one, ih more]

end Same

end Statement

namespace Frame

variable {frame : Frame} {near far : List UInt8} {depth : Nat} {token : Token}
  {tokens rest : List Token}

/-- Any two texts compare, where only the tokens matter. -/
theorem texts_any (frame : Frame) (near far : List UInt8) :
    frame.Texts near far (fun _ _ => True) :=
  fun _ _ _ _ => trivial

/-- Values of declarations of the source, and the same in the other one, with their tokens at their
places there. -/
structure SameValues (frame : Frame) (one other : List (List Token)) : Prop where
  moved : other = one.map (List.map frame.move)
  cut : ∀ value ∈ one, ∃ start, start <:+ frame.tokens ∧
    Declaration.valueTokens? start = some value

theorem SameValues.nil : frame.SameValues [] [] :=
  ⟨rfl, List.forall_mem_nil _⟩

theorem SameValues.of_cut (inside : tokens <:+ frame.tokens) :
    frame.SameValues (Declaration.valueTokens? tokens).toList
      ((Declaration.valueTokens? tokens).map (List.map frame.move)).toList := by
  cases cut : Declaration.valueTokens? tokens with
  | none => exact SameValues.nil
  | some value => exact ⟨rfl, List.forall_mem_singleton.mpr ⟨tokens, inside, cut⟩⟩

theorem SameValues.append {one other more moreFar : List (List Token)}
    (first : frame.SameValues one other) (behind : frame.SameValues more moreFar) :
    frame.SameValues (one ++ more) (other ++ moreFar) :=
  ⟨by rw [first.moved, behind.moved, List.map_append],
    List.forall_mem_append.mpr ⟨first.cut, behind.cut⟩⟩

namespace Sealed

theorem valueTokens? (sealed : frame.Sealed depth (token :: rest)) (ident : token.kind = .ident) :
    Declaration.valueTokens? (frame.extend (token :: rest)) =
      (Declaration.valueTokens? (token :: rest)).map (List.map frame.move) := by
  have after := sealed.of_kind ident (by decide)
  rw [extend_cons, Declaration.valueTokens?, Declaration.valueTokens?, frame.kind_move]
  cases front : Token.skipSpace rest with
  | nil => simp only [(after.skipSpace_nil front).1, Option.map_none]
  | cons colon middle =>
    obtain ⟨spaced, start⟩ := after.skipSpace_cons front
    simp only [spaced, frame.kind_move]
    by_cases marks : token.kind = .ident ∧ colon.kind = .colon
    · obtain ⟨gap, inner⟩ := (start.of_kind marks.2 (by decide)).skipSpace
      simp only [if_pos marks, gap]
      cases taken : Declaration.takeValue (Token.skipSpace middle) with
      | error halt =>
        obtain ⟨stop, moved, -⟩ := inner.takeValue.of_error taken
        simp only [moved, Option.map_none]
      | ok found =>
        obtain ⟨moved, -⟩ := inner.takeValue.of_ok taken
        simp only [moved, Prod.map, Option.map_some]
    · simp only [if_neg marks, Option.map_none]

/-- The values of a run stand in the other source with their tokens at their places. -/
theorem runValues (near far : List UInt8) (sealed : frame.Sealed depth tokens) :
    frame.SameValues (DeclarationRun.values near (some .closeBrace) tokens)
      (DeclarationRun.values far (some .closeBrace) (frame.extend tokens)) := by
  fun_induction DeclarationRun.values near (some .closeBrace) tokens with
  | case1 tokens empty =>
    rw [DeclarationRun.values_of_end (sealed.skipSpace_nil empty).1]
    exact SameValues.nil
  | case2 tokens token rest front closing =>
    obtain ⟨spaced, start⟩ := sealed.skipSpace_cons front
    rw [DeclarationRun.values_of_front spaced, frame.kind_move, if_pos closing]
    exact SameValues.nil
  | case3 tokens token rest front inner semicolon ih =>
    obtain ⟨spaced, start⟩ := sealed.skipSpace_cons front
    rw [DeclarationRun.values_of_front spaced, frame.kind_move, if_neg inner, if_pos semicolon]
    exact ih (start.of_kind semicolon (by decide))
  | case4 tokens token rest front inner noSemicolon declaration behind taken ih =>
    obtain ⟨spaced, start⟩ := sealed.skipSpace_cons front
    have same := start.takeDeclaration (frame.texts_any near far)
    rw [taken] at same
    obtain ⟨moved, takenFar, -, after⟩ := same
    have cut := start.valueTokens? (Declaration.ident_of_take taken)
    rw [extend_cons] at takenFar cut
    rw [DeclarationRun.values_of_front spaced, frame.kind_move, if_neg inner, if_neg noSemicolon]
    simp only [takenFar, cut]
    exact (SameValues.of_cut start.inside).append (ih after)
  | case5 tokens token rest front inner noSemicolon halt taken =>
    obtain ⟨spaced, start⟩ := sealed.skipSpace_cons front
    have same := start.takeDeclaration (frame.texts_any near far)
    rw [taken] at same
    obtain ⟨stop, takenFar, -⟩ := same
    rw [extend_cons] at takenFar
    rw [DeclarationRun.values_of_front spaced, frame.kind_move, if_neg inner, if_neg noSemicolon]
    simp only [takenFar]
    exact SameValues.nil

theorem blockValues (near far : List UInt8) (sealed : frame.Sealed depth tokens) :
    frame.SameValues (Statement.blockValues near tokens)
      (Statement.blockValues far (frame.extend tokens)) := by
  have run := sealed.readRun (frame.texts_any near far)
  unfold Statement.blockValues
  rw [run.stop]
  split
  · exact SameValues.nil
  · exact sealed.runValues near far

theorem rulesetValues (near far : List UInt8) (sealed : frame.Sealed depth tokens) :
    frame.SameValues (Statement.rulesetValues near tokens)
      (Statement.rulesetValues far (frame.extend tokens)) := by
  unfold Statement.rulesetValues
  cases listed : Selector.takeList tokens with
  | error halt =>
    obtain ⟨stop, listedFar, -⟩ := sealed.takeList.of_error listed
    rw [listedFar]
    exact SameValues.nil
  | ok found =>
    obtain ⟨listedFar, after⟩ := sealed.takeList.of_ok listed
    simp only [listedFar]
    cases opened : Token.expect .openBrace .expectedBlock found.2 with
    | error halt =>
      obtain ⟨stop, openedFar, -⟩ := (after.expectOpen .expectedBlock).of_error opened
      rw [openedFar]
      exact SameValues.nil
    | ok last =>
      obtain ⟨openedFar, inner⟩ := (after.expectOpen .expectedBlock).of_ok opened
      rw [openedFar]
      exact inner.blockValues near far

theorem plainValues (near far : List UInt8) (sealed : frame.Sealed depth (token :: rest)) :
    frame.SameValues (Statement.plainValues near token rest)
      (Statement.plainValues far (frame.move token) (frame.extend rest)) := by
  have ruleset := sealed.rulesetValues near far
  unfold Statement.plainValues
  rw [frame.kind_move]
  split
  · exact SameValues.nil
  · exact SameValues.nil
  · exact SameValues.nil
  · exact ruleset

theorem nestedValues (near far : List UInt8) (sealed : frame.Sealed (depth + 1) tokens) :
    frame.SameValues (Statement.nestedValues near tokens)
      (Statement.nestedValues far (frame.extend tokens)) := by
  fun_induction Statement.nestedValues near tokens with
  | case1 tokens empty =>
    rw [Statement.nestedValues_of_end (sealed.skipSpace_nil empty).1]
    exact SameValues.nil
  | case2 tokens token rest front closes =>
    obtain ⟨spaced, start⟩ := sealed.skipSpace_cons front
    rw [Statement.nestedValues_of_front spaced, frame.kind_move, if_pos closes]
    exact SameValues.nil
  | case3 tokens token rest front noClose ih =>
    obtain ⟨spaced, start⟩ := sealed.skipSpace_cons front
    have same := start.takePlain (frame.texts_any near far)
    obtain ⟨-, behind, ended⟩ := start.settle near far (fun brace => absurd brace noClose) same
    rw [extend_cons] at behind
    rw [Statement.nestedValues_of_front spaced, frame.kind_move, if_neg noClose, behind]
    exact (start.plainValues near far).append (ih (ended.sealed_of_pos (Nat.succ_pos depth)))

/-- The values of a statement are cut alike before and after the change, token by token. -/
theorem outerValues (near far : List UInt8) (media : List String)
    (sealed : frame.Sealed depth (token :: rest)) :
    frame.SameValues (Statement.outerValues near media token rest)
      (Statement.outerValues far media (frame.move token) (frame.extend rest)) := by
  have plain := sealed.plainValues near far
  unfold Statement.outerValues
  rw [frame.kind_move]
  split
  · exact SameValues.nil
  · next mark =>
    have inner := sealed.of_kind mark (by decide)
    cases named : Statement.takeMediaNames rest with
    | error halt =>
      obtain ⟨stop, namedFar, -⟩ := inner.takeMediaNames.of_error named
      rw [namedFar]
      exact SameValues.nil
    | ok found =>
      obtain ⟨namedFar, block⟩ := inner.takeMediaNames.of_ok named
      simp only [namedFar, id_eq]
      split
      · exact block.nestedValues near far
      · exact SameValues.nil
  · exact plain

end Sealed

/-- The values of a sheet stand in the other source with their tokens at their places. -/
theorem Ended.values (near far : List UInt8) (media : List String) (alone : frame.tail = [])
    (ended : frame.Ended 0 tokens) :
    frame.SameValues (Statement.values near media tokens)
      (Statement.values far media (frame.extend tokens)) := by
  fun_induction Statement.values near media tokens with
  | case1 tokens empty =>
    have sealed : frame.Sealed 0 tokens := ⟨ended, Or.inl alone⟩
    rw [Statement.values_of_end (sealed.skipSpace_nil empty).1]
    exact SameValues.nil
  | case2 tokens token rest front ih =>
    obtain ⟨spaced, start⟩ := (ended.sealed_of_skipSpace front).skipSpace_cons front
    have same := start.takeOuter media (frame.texts_any near far)
    obtain ⟨-, behind, after⟩ := start.settle near far start.tail_eq_nil_of_close same
    rw [extend_cons] at behind
    rw [Statement.values_of_front spaced, behind]
    exact (start.outerValues near far media).append (ih after)

end Frame

end StyleCascade
