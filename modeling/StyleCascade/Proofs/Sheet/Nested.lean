import StyleCascade.Proofs.Selector.Grammar
import StyleCascade.Proofs.Sheet.Frame
import StyleCascade.Proofs.Token.Enclosed

namespace StyleCascade

open Token (Braceless Enclosed)

namespace Declaration

/-- A value holds no brace, so reading one cannot leave the block. -/
theorem braceless_of_takeValue {tokens rest : List Token} {value : List Token × Bool}
    (read : takeValue tokens = .ok (value, rest)) :
    ∃ front, tokens = front ++ rest ∧ Braceless front := by
  induction tokens generalizing value with
  | nil => cases read; exact ⟨[], rfl, .nil⟩
  | cons token more ih =>
    rw [takeValue] at read
    split at read
    · cases read; exact ⟨[], rfl, .nil⟩
    next inner =>
    have noClose : token.kind ≠ .closeBrace := by
      intro close
      simp [endsValue, close] at inner
    split at read
    · next important =>
      obtain ⟨gap, spaced, split⟩ := Token.exists_spaces more
      simp only at read
      split at read <;> cases read
      exact ⟨token :: gap, congrArg (token :: ·) split,
        .of_kind important spaced.braceless (by decide)⟩
    split at read
    · cases read
    next noOpen =>
    obtain ⟨_, taken, same⟩ := Reading.map_eq_ok.mp read
    cases same
    obtain ⟨front, split, plain⟩ := ih taken
    exact ⟨token :: front, congrArg (token :: ·) split, .cons noOpen noClose plain⟩

/-- A declaration takes no brace. -/
theorem braceless_of_take {source : List UInt8} {tokens rest : List Token}
    {declaration : Declaration} (read : take source tokens = .ok (declaration, rest)) :
    ∃ front, tokens = front ++ rest ∧ Braceless front := by
  unfold take at read
  obtain ⟨⟨name, behind⟩, named, read⟩ := Reading.bind_eq_ok.mp read
  obtain ⟨⟨colon, afterColon⟩, marked, read⟩ := Reading.bind_eq_ok.mp read
  obtain ⟨⟨value, last⟩, valued, read⟩ := Reading.bind_eq_ok.mp read
  simp only at read
  split at read <;> cases read
  obtain ⟨word, rfl, ident, -⟩ := Token.takeWord_ok named
  obtain ⟨gap, spaced, split⟩ := Token.exists_spaces behind
  obtain ⟨splitColon, isColon⟩ := Token.expect_ok marked
  obtain ⟨gapColon, spacedColon, splitValue⟩ := Token.exists_spaces afterColon
  obtain ⟨front, splitFront, plain⟩ := braceless_of_takeValue valued
  refine ⟨word :: (gap ++ colon :: (gapColon ++ front)), ?_, ?_⟩
  · rw [split, splitColon, splitValue, splitFront]
    simp only [List.append_assoc, List.cons_append]
  · refine .of_kind ident (spaced.braceless.append ?_) (by decide)
    exact .of_kind isColon (spacedColon.braceless.append plain) (by decide)

end Declaration

/-- Declarations that end without a fault take no brace, and stop at the end of their block. -/
theorem DeclarationRun.braceless_of_read {source : List UInt8} {tokens : List Token}
    (clean : (DeclarationRun.read source (some .closeBrace) tokens).stop = none) :
    ∃ front, tokens = front ++ (DeclarationRun.read source (some .closeBrace) tokens).rest ∧
      Braceless front ∧
      ∀ token ∈ (DeclarationRun.read source (some .closeBrace) tokens).rest.head?,
        token.kind = .closeBrace := by
  fun_induction DeclarationRun.read source (some .closeBrace) tokens with
  | case1 tokens front =>
    obtain ⟨gap, spaced, split⟩ := Token.exists_spaces tokens
    rw [front] at split
    exact ⟨gap, split, spaced.braceless, fun _ none => by cases none⟩
  | case2 tokens token rest front closes =>
    obtain ⟨gap, spaced, split⟩ := Token.exists_spaces tokens
    rw [front] at split
    refine ⟨gap, split, spaced.braceless, ?_⟩
    rintro _ ⟨⟩
    exact (Option.some.inj closes).symm
  | case3 tokens token rest front _ semicolon ih =>
    obtain ⟨gap, spaced, split⟩ := Token.exists_spaces tokens
    obtain ⟨others, splitOthers, plain, ends⟩ := ih clean
    refine ⟨gap ++ token :: others, ?_, ?_, ends⟩
    · rw [List.append_assoc, List.cons_append, ← splitOthers, ← front]
      exact split
    · exact spaced.braceless.append (.of_kind semicolon plain (by decide))
  | case4 tokens token rest front _ _ _ declaration behind taken ih =>
    obtain ⟨gap, spaced, split⟩ := Token.exists_spaces tokens
    obtain ⟨first, splitFirst, plainFirst⟩ := Declaration.braceless_of_take taken
    obtain ⟨others, splitOthers, plain, ends⟩ := ih clean
    refine ⟨gap ++ (first ++ others), ?_, ?_, ends⟩
    · rw [split, front, splitFirst, List.append_assoc, List.append_assoc]
      exact congrArg (fun rest => gap ++ (first ++ rest)) splitOthers
    · exact spaced.braceless.append (plainFirst.append plain)
  | case5 => cases clean
  | case6 => cases clean

/-- Selectors take no brace. -/
theorem Selector.braceless_of_takeList {tokens rest : List Token}
    {selectors : List (Selector × Specificity)} (read : takeList tokens = .ok (selectors, rest)) :
    ∃ front, tokens = front ++ rest ∧ Braceless front := by
  fun_induction takeList tokens generalizing selectors rest with
  | case1 => cases read
  | case2 => cases read
  | case3 tokens selector behind taken next more shape comma ih =>
    obtain ⟨front, split, plain⟩ := braceless_of_take taken
    obtain ⟨gap, spaced, splitGap⟩ := Token.exists_spaces behind
    obtain ⟨gapComma, spacedComma, splitComma⟩ := Token.exists_spaces more
    obtain ⟨_, rested, same⟩ := Reading.map_eq_ok.mp read
    cases same
    obtain ⟨others, splitOthers, plainOthers⟩ := ih rested
    refine ⟨front ++ (gap ++ next :: (gapComma ++ others)), ?_, ?_⟩
    · rw [split, splitGap, shape, splitComma, splitOthers]
      simp only [List.append_assoc, List.cons_append]
    · refine plain.append (spaced.braceless.append ?_)
      exact .of_kind comma (spacedComma.braceless.append plainOthers) (by decide)
  | case4 tokens selector behind taken next more shape =>
    obtain ⟨front, split, plain⟩ := braceless_of_take taken
    obtain ⟨gap, spaced, splitGap⟩ := Token.exists_spaces behind
    cases read
    refine ⟨front ++ gap, ?_, plain.append spaced.braceless⟩
    rw [split, splitGap, shape, List.append_assoc]
  | case5 => cases read

namespace Token.Enclosed

variable {brace token : Token} {after tokens rest : List Token} {source : List UInt8}
  {statements : List Statement}

/-- A block inside a media rule closes before the brace of that rule, so the rest is still inside
it. -/
theorem takeBlock {selectors : List (Selector × Specificity)}
    (enclosed : Enclosed brace after 1 tokens)
    (read : Statement.takeBlock source selectors tokens = .ok (statements, rest)) :
    Enclosed brace after 0 rest := by
  simp only [Statement.takeBlock] at read
  split at read
  · cases read
  next clean =>
  cases read
  obtain ⟨front, split, plain, ends⟩ := DeclarationRun.braceless_of_read clean
  rw [split] at enclosed
  have stopped := enclosed.of_braceless plain
  generalize (DeclarationRun.read source (some .closeBrace) tokens).rest = left at stopped ends
  cases left with
  | nil => exact absurd rfl stopped.ne_nil
  | cons token more =>
    have close := ends token rfl
    rw [Statement.dropClose, if_pos close]
    exact stopped.of_close close

/-- A ruleset opens one brace and closes it. -/
theorem takeRuleset (enclosed : Enclosed brace after 0 tokens)
    (read : Statement.takeRuleset source tokens = .ok (statements, rest)) :
    Enclosed brace after 0 rest := by
  unfold Statement.takeRuleset at read
  split at read
  · cases read
  next selectors behind listed =>
  obtain ⟨front, split, plain⟩ := Selector.braceless_of_takeList listed
  rw [split] at enclosed
  have opening := enclosed.of_braceless plain
  split at read
  · cases read
  next opens inner opened =>
  obtain ⟨rfl, isOpen⟩ := Token.expect_ok opened
  exact (opening.of_open isOpen).takeBlock read

theorem takeDescription (enclosed : Enclosed brace after 0 tokens)
    (read : Statement.takeDescription tokens = .ok (statements, rest)) :
    Enclosed brace after 0 rest := by
  fun_induction Statement.takeDescription tokens with
  | case1 => exact absurd rfl enclosed.ne_nil
  | case2 token more semicolon =>
    cases read
    exact enclosed.of_kind semicolon (by decide)
  | case3 token more opens =>
    cases read
    exact (enclosed.of_open opens).skipBlock
  | case4 => cases read
  | case5 token more noSemicolon noOpen noClose ih =>
    exact ih (enclosed.of_other noOpen noClose) read

/-- A statement stops inside the block it stands in, if it does not look for a semicolon behind
that. -/
theorem settle (enclosed : Enclosed brace after 0 (token :: rest))
    (noClose : token.kind ≠ .closeBrace)
    (terminated : token.kind = .atCharset → Terminated rest) :
    Enclosed brace after 0 (Statement.settle source (token :: rest)
      (Statement.takePlain source token rest)).2 := by
  cases read : Statement.takePlain source token rest with
  | error failed => exact enclosed.recover noClose
  | ok found =>
    obtain ⟨statements, behind⟩ := found
    unfold Statement.takePlain at read
    split at read
    · next charset =>
      cases read
      exact (enclosed.of_kind charset (by decide)).skipPastSemicolon (terminated charset)
    · next page => exact (enclosed.of_kind page (by decide)).takeDescription read
    · next font => exact (enclosed.of_kind font (by decide)).takeDescription read
    · exact enclosed.takeRuleset read

end Token.Enclosed

namespace Statement

/-- The statements that reading comes to inside a block: the token that each begins with, and all
tokens behind that. -/
def starts (source : List UInt8) (tokens : List Token) : List (Token × List Token) :=
  match _front : Token.skipSpace tokens with
  | [] => []
  | token :: rest =>
    if token.kind = .closeBrace then []
    else
      (token, rest) ::
        starts source (settle source (token :: rest) (takePlain source token rest)).2
  termination_by tokens.length
  decreasing_by
    have gap := Token.length_skipSpace_le tokens
    rw [_front] at gap
    exact Nat.lt_of_lt_of_le (length_settle_lt fun _ _ read => length_lt_of_takePlain read) gap

section

variable {source : List UInt8} {brace : Token} {after tokens : List Token}

/-- Statements that all stop inside a block are read up to the brace that closes it. -/
theorem readNested_of_enclosed (enclosed : Enclosed brace after 0 tokens)
    (terminated : ∀ start ∈ starts source tokens,
      start.1.kind = .atCharset → Token.Terminated start.2) :
    (readNested source tokens).2 = brace :: after := by
  fun_induction starts source tokens with
  | case1 tokens front =>
    have inside := enclosed.skipSpace
    rw [front] at inside
    exact absurd rfl inside.ne_nil
  | case2 tokens token rest front closes =>
    have inside := enclosed.skipSpace
    rw [front] at inside
    rw [readNested_of_front front, if_pos closes]
    exact inside.of_close_zero closes
  | case3 tokens token rest front noClose ih =>
    have inside := enclosed.skipSpace
    rw [front] at inside
    obtain ⟨first, others⟩ := List.forall_mem_cons.mp terminated
    rw [readNested_of_front front, if_neg noClose]
    exact ih (inside.settle noClose first) others

/-- Reading ends where it ends from each statement on that it comes to. -/
theorem readNested_of_start {token : Token} {rest : List Token}
    (start : (token, rest) ∈ starts source tokens) :
    (readNested source tokens).2 =
      (readNested source (settle source (token :: rest) (takePlain source token rest)).2).2 := by
  fun_induction starts source tokens with
  | case1 => cases start
  | case2 => cases start
  | case3 tokens first more front noClose ih =>
    rw [readNested_of_front front, if_neg noClose]
    obtain same | later := List.mem_cons.mp start
    · cases same
      rfl
    · exact ih later

/-- The statements of a block are read up to the brace that closes it, which is the first one with
which more are closed than opened, if each character set that reading comes to has a semicolon of
its own. A character set with no semicolon in front of that brace takes the brace. -/
theorem readNested_closing (source : List UInt8) {inside after : List Token} {brace : Token}
    (inner : ∀ front, front <+: inside → 0 ≤ Token.level front)
    (falls : Token.level (inside ++ [brace]) < 0) :
    ((∀ start ∈ starts source (inside ++ brace :: after),
        start.1.kind = .atCharset → Token.Terminated start.2) →
      (readNested source (inside ++ brace :: after)).2 = brace :: after) ∧
    ∀ mark skipped, (mark, skipped ++ brace :: after) ∈ starts source (inside ++ brace :: after) →
      mark.kind = .atCharset → (∀ token ∈ skipped, token.kind ≠ .semicolon) →
        (readNested source (inside ++ brace :: after)).2.length < (brace :: after).length := by
  have enclosed : Enclosed brace after 0 (inside ++ brace :: after) :=
    Token.enclosed_of_level (by simpa using inner) (by simpa using falls)
  refine ⟨readNested_of_enclosed enclosed, fun mark skipped start charset noEnd => ?_⟩
  have passed : (settle source (mark :: (skipped ++ brace :: after))
      (takePlain source mark (skipped ++ brace :: after))).2 = Token.skipPastSemicolon after := by
    have noSemicolon : brace.kind ≠ .semicolon := by rw [enclosed.closes]; decide
    have beyond := Token.skipPastSemicolon_append noEnd (brace :: after)
    rw [Token.skipPastSemicolon, if_neg noSemicolon] at beyond
    rw [takePlain, charset]
    exact beyond
  rw [readNested_of_start start, passed]
  have less := Token.length_skipPastSemicolon_le after
  have rest := length_readNested_le source (Token.skipPastSemicolon after)
  rw [List.length_cons]
  omega

/-- In front of the closing brace there are a rule with a block in it, a character set with its
semicolon, a block without selectors, and selectors without a block. -/
theorem readNested_closing_malformed :
    let source := Ascii.bytes
      "@media all\x7bp\x7ba\x7b\x7d;b:c\x7d @charset \"x\";\x7b;\x7d h1 \x7d h2\x7bcolor:red\x7d"
    let tokens := (tokensOf source).drop 4
    let inside := tokens.take 21
    let brace : Token := ⟨.closeBrace, 42, [Ascii.byte '\x7d']⟩
    let after := tokens.drop 22
    tokens = inside ++ brace :: after ∧
      (∀ front, front <+: inside → 0 ≤ Token.level front) ∧ Token.level (inside ++ [brace]) < 0 ∧
      (∀ start ∈ starts source (inside ++ brace :: after),
        start.1.kind = .atCharset → Token.Terminated start.2) ∧
      (starts source (inside ++ brace :: after)).length = 4 ∧
      (readNested source (inside ++ brace :: after)).2 = brace :: after := by
  intro source tokens inside brace after
  have balanced : Token.Balanced inside := by decide +kernel
  have falls : Token.level (inside ++ [brace]) < 0 := by decide +kernel
  have terminated : ∀ start ∈ starts source (inside ++ brace :: after),
      start.1.kind = .atCharset → Token.Terminated start.2 := by decide +kernel
  exact ⟨by decide +kernel, balanced.inner, falls, terminated, by decide +kernel,
    (readNested_closing source balanced.inner falls).1 terminated⟩

/-- A character set without a semicolon takes the closing brace of its block, and the rule behind
the block with it. -/
theorem readNested_charset_escapes :
    let source := Ascii.bytes "@media all\x7b@charset \"x\"\x7dp\x7bcolor:red\x7d"
    let tokens := (tokensOf source).drop 4
    let inside := tokens.take 3
    let brace : Token := ⟨.closeBrace, 23, [Ascii.byte '\x7d']⟩
    let after := tokens.drop 4
    tokens = inside ++ brace :: after ∧
      (∀ front, front <+: inside → 0 ≤ Token.level front) ∧ Token.level (inside ++ [brace]) < 0 ∧
      after ≠ [] ∧ (readNested source (inside ++ brace :: after)).2 = [] := by
  intro source tokens inside brace after
  have balanced : Token.Balanced inside := by decide +kernel
  exact ⟨by decide +kernel, balanced.inner, by decide +kernel, by decide +kernel,
    by decide +kernel⟩

end

end Statement

end StyleCascade
