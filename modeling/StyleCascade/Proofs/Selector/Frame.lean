import StyleCascade.Proofs.Token.Frame
import StyleCascade.Selector.Reader

namespace StyleCascade

namespace Selector

theorem takeConditions_of_none {mark : Token} {rest : List Token}
    (none : takeCondition? mark.kind rest = none) :
    takeConditions (mark :: rest) = .ok ([], mark :: rest) := by
  rw [takeConditions]
  split
  · rfl
  · next found => rw [none] at found; cases found
  · next found => rw [none] at found; cases found

theorem takeConditions_of_error {mark : Token} {rest : List Token} {halt : Halt}
    (stopped : takeCondition? mark.kind rest = some (.error halt)) :
    takeConditions (mark :: rest) = .error halt := by
  rw [takeConditions]
  split
  · next none => rw [stopped] at none; cases none
  · next found => rw [stopped] at found; cases found; rfl
  · next found => rw [stopped] at found; cases found

/-- One step of the conditions that was taken. -/
theorem takeConditions_of_ok {mark : Token} {rest behind : List Token} {condition : Weighted}
    (taken : takeCondition? mark.kind rest = some (.ok (condition, behind))) :
    takeConditions (mark :: rest) =
      (takeConditions behind).map (fun (more, last) => (condition :: more, last)) := by
  rw [takeConditions]
  split
  · next none => rw [taken] at none; cases none
  · next found => rw [taken] at found; cases found
  · next found => rw [taken] at found; cases found; rfl

theorem takeLinks_of_none {tokens : List Token} (none : takeCombinator? tokens = none) :
    takeLinks tokens = .ok ([], Token.skipSpace tokens) := by
  rw [takeLinks]
  split
  · rfl
  · next found => rw [none] at found; cases found
  · next found => rw [none] at found; cases found

theorem takeLinks_of_error {tokens : List Token} {halt : Halt}
    (stopped : takeCombinator? tokens = some (.error halt)) : takeLinks tokens = .error halt := by
  rw [takeLinks]
  split
  · next none => rw [stopped] at none; cases none
  · next found => rw [stopped] at found; cases found; rfl
  · next found => rw [stopped] at found; cases found

theorem takeLinks_of_halt {tokens behind : List Token} {combinator : Combinator} {halt : Halt}
    (sign : takeCombinator? tokens = some (.ok (combinator, behind)))
    (stopped : takeCompound behind = .error halt) : takeLinks tokens = .error halt := by
  rw [takeLinks]
  split
  · next none => rw [sign] at none; cases none
  · next found => rw [sign] at found; cases found
  · next found =>
    rw [sign] at found; cases found
    split
    · next same => rw [stopped] at same; cases same; rfl
    · next taken => rw [stopped] at taken; cases taken

/-- One step of the links that was taken. -/
theorem takeLinks_of_ok {tokens behind rest : List Token} {combinator : Combinator}
    {compound : List Weighted} (sign : takeCombinator? tokens = some (.ok (combinator, behind)))
    (taken : takeCompound behind = .ok (compound, rest)) :
    takeLinks tokens =
      (takeLinks rest).map (fun (links, last) => ((combinator, compound) :: links, last)) := by
  rw [takeLinks]
  split
  · next none => rw [sign] at none; cases none
  · next found => rw [sign] at found; cases found
  · next found =>
    rw [sign] at found; cases found
    split
    · next stopped => rw [taken] at stopped; cases stopped
    · next same => rw [taken] at same; cases same; rfl

/-- A name with nothing behind it that belongs to a selector is the whole selector. -/
theorem take_name {word : Token} {rest : List Token} (ident : word.kind = .ident)
    (alone : takeConditions rest = .ok ([], rest)) (last : takeCombinator? rest = none) :
    take (word :: rest) =
      .ok ((⟨[.tag (Text.lowercase word.identifier)], []⟩, ⟨0, 0, 1⟩),
        Token.skipSpace rest) := by
  have compound : takeCompound (word :: rest) =
      .ok ([(.tag (Text.lowercase word.identifier), .type)], rest) := by
    simp [takeCompound, takeType, ident, alone]
  have links := takeLinks_of_none last
  rw [take, compound]
  simp only [bind, Except.bind, links]
  rfl

theorem takeList_of_error {tokens : List Token} {halt : Halt}
    (stopped : take tokens = .error halt) : takeList tokens = .error halt := by
  rw [takeList]
  split
  · next found => rw [stopped] at found; cases found; rfl
  · next found => rw [stopped] at found; cases found

/-- One step of a selector list that was taken: a comma goes on, an opening brace ends the list, and
everything else is a fault. -/
theorem takeList_of_ok {tokens behind rest : List Token} {next : Token}
    {selector : Selector × Specificity} (taken : take tokens = .ok (selector, behind))
    (shape : Token.skipSpace behind = next :: rest) :
    takeList tokens =
      if next.kind = .comma then
        (takeList (Token.skipSpace rest)).map (fun (more, last) => (selector :: more, last))
      else if next.kind = .openBrace then .ok ([selector], next :: rest)
      else .error ⟨.expectedMoreOrBlock, next :: rest⟩ := by
  rw [takeList]
  split
  · next found => rw [taken] at found; cases found
  · next found =>
    rw [taken] at found; cases found
    split
    · next empty => rw [shape] at empty; cases empty
    · next same => rw [shape] at same; cases same; rfl

theorem takeList_of_end {tokens behind : List Token} {selector : Selector × Specificity}
    (taken : take tokens = .ok (selector, behind)) (shape : Token.skipSpace behind = []) :
    takeList tokens = .error ⟨.expectedMoreOrBlock, []⟩ := by
  rw [takeList]
  split
  · next found => rw [taken] at found; cases found
  · next found =>
    rw [taken] at found; cases found
    split
    · rfl
    · next more => rw [shape] at more; cases more

end Selector

namespace Frame

namespace Sealed

variable {frame : Frame} {depth : Nat} {tokens : List Token}

/-- A selector is read alike whatever stands behind its block. The lemmas follow one another as the
readers call each other. -/
theorem takeAttributeValue (sealed : frame.Sealed depth tokens) :
    frame.Same depth id (Selector.takeAttributeValue tokens)
      (Selector.takeAttributeValue (frame.extend tokens)) := by
  cases tokens with
  | nil =>
    rw [sealed.extend_nil]
    exact Same.error rfl
  | cons token rest =>
    rw [extend_cons, Selector.takeAttributeValue, Selector.takeAttributeValue, frame.kind_move]
    split
    · next ident =>
      rw [frame.text_of_kind ident (by decide)]
      exact Same.ok (sealed.of_kind ident (by decide))
    split
    · next str =>
      have behind := sealed.of_kind str (by decide)
      rw [frame.text_of_kind str (by decide)]
      cases Component.unquote? token.text with
      | some value => exact Same.ok behind
      | none => exact Same.error rfl
    · exact Same.error rfl

theorem takeComparison (sealed : frame.Sealed depth tokens) :
    frame.Same depth id (Selector.takeComparison tokens)
      (Selector.takeComparison (frame.extend tokens)) := by
  cases tokens with
  | nil =>
    rw [sealed.extend_nil]
    exact Same.error rfl
  | cons token rest =>
    rw [extend_cons, Selector.takeComparison, Selector.takeComparison, frame.kind_move]
    split
    · next sign => exact Same.ok (sealed.of_kind sign (by decide))
    split
    · next sign =>
      have behind := sealed.of_kind sign (by decide)
      exact (behind.expect _ _ (by decide)).map (fun _ _ => ⟨rfl, rfl⟩)
    split
    · next sign =>
      have behind := sealed.of_kind sign (by decide)
      exact (behind.expect _ _ (by decide)).map (fun _ _ => ⟨rfl, rfl⟩)
    · exact Same.error rfl

theorem takeAttribute (sealed : frame.Sealed depth tokens) :
    frame.Same depth id (Selector.takeAttribute tokens)
      (Selector.takeAttribute (frame.extend tokens)) := by
  obtain ⟨spaced, start⟩ := sealed.skipSpace
  rw [Selector.takeAttribute, Selector.takeAttribute, spaced]
  refine start.takeWord.bind (fun key behind _ after => ?_)
  simp only [id_eq]
  cases shape : Token.skipSpace behind with
  | nil =>
    rw [(after.skipSpace_nil shape).1]
    exact Same.error rfl
  | cons token rest =>
    obtain ⟨spaced, next⟩ := after.skipSpace_cons shape
    simp only [spaced]
    rw [frame.kind_move]
    split
    · next closing => exact Same.ok (next.of_kind closing (by decide))
    rw [← extend_cons]
    refine next.takeComparison.bind (fun comparison behind _ after => ?_)
    obtain ⟨spaced, next⟩ := after.skipSpace
    simp only [spaced, id_eq]
    refine next.takeAttributeValue.bind (fun value behind _ after => ?_)
    obtain ⟨spaced, next⟩ := after.skipSpace
    simp only [spaced, id_eq]
    refine (next.expect .closeBracket .expectedBracket (by decide)).bind ?_
    exact fun _ _ _ last => Same.ok last

theorem takePseudoName {double : Bool} (sealed : frame.Sealed depth tokens) :
    frame.Same depth id (Selector.takePseudoName double tokens)
      (Selector.takePseudoName double (frame.extend tokens)) := by
  cases tokens with
  | nil =>
    rw [sealed.extend_nil]
    exact Same.error rfl
  | cons token rest =>
    rw [extend_cons, Selector.takePseudoName, Selector.takePseudoName, frame.kind_move]
    split
    · next ident =>
      rw [frame.text_of_kind ident (by decide)]
      exact Same.ok (sealed.of_kind ident (by decide))
    split
    · next function =>
      rw [Bool.and_eq_true, decide_eq_true_eq] at function
      have behind := sealed.of_kind function.1 (by decide)
      rw [frame.text_of_kind function.1 (by decide)]
      cases Selector.pseudoFunction? token.text with
      | some condition => exact Same.ok behind
      | none => exact Same.error rfl
    · exact Same.error rfl

theorem takePseudo (sealed : frame.Sealed depth tokens) :
    frame.Same depth id (Selector.takePseudo tokens)
      (Selector.takePseudo (frame.extend tokens)) := by
  cases tokens with
  | nil =>
    rw [sealed.extend_nil]
    exact Same.error rfl
  | cons token rest =>
    rw [extend_cons, Selector.takePseudo, Selector.takePseudo, frame.kind_move]
    split
    · next colon => exact (sealed.of_kind colon (by decide)).takePseudoName
    · exact sealed.takePseudoName

/-- A mark introduces a condition in the other source if it does in the source. -/
theorem takeCondition? {mark : Token} (sealed : frame.Sealed depth (mark :: tokens)) :
    let moved := frame.move mark
    (Selector.takeCondition? mark.kind tokens = none ∧
        Selector.takeCondition? moved.kind (frame.extend tokens) = none) ∨
      ∃ near far, Selector.takeCondition? mark.kind tokens = some near ∧
        Selector.takeCondition? moved.kind (frame.extend tokens) = some far ∧
        frame.Same depth id near far := by
  intro moved
  rw [show moved.kind = mark.kind from frame.kind_move mark]
  unfold Selector.takeCondition?
  split
  · next sign =>
    refine Or.inr ⟨_, _, rfl, rfl, ?_⟩
    exact (sealed.of_kind sign (by decide)).takeName.map (fun _ _ => ⟨rfl, rfl⟩)
  · next sign =>
    refine Or.inr ⟨_, _, rfl, rfl, ?_⟩
    exact (sealed.of_kind sign (by decide)).takeName.map (fun _ _ => ⟨rfl, rfl⟩)
  · next sign =>
    refine Or.inr ⟨_, _, rfl, rfl, ?_⟩
    exact (sealed.of_kind sign (by decide)).takeAttribute.map (fun _ _ => ⟨rfl, rfl⟩)
  · next sign =>
    refine Or.inr ⟨_, _, rfl, rfl, ?_⟩
    exact (sealed.of_kind sign (by decide)).takePseudo.map (fun _ _ => ⟨rfl, rfl⟩)
  · exact Or.inl ⟨rfl, rfl⟩

/-- The induction over the conditions of a compound. -/
theorem takeConditions (sealed : frame.Sealed depth tokens) :
    frame.Same depth id (Selector.takeConditions tokens)
      (Selector.takeConditions (frame.extend tokens)) := by
  fun_induction Selector.takeConditions tokens with
  | case1 =>
    rw [sealed.extend_nil, Selector.takeConditions]
    exact ⟨congrArg (fun rest => Except.ok ([], rest)) sealed.extend_nil.symm, sealed⟩
  | case2 mark rest none =>
    obtain ⟨-, far⟩ | ⟨near, far, found, -, -⟩ := sealed.takeCondition?
    · rw [extend_cons, Selector.takeConditions_of_none far]
      exact Same.ok sealed
    · rw [none] at found; cases found
  | case3 mark rest halt found =>
    obtain ⟨none, -⟩ | ⟨near, far, same, found', agree⟩ := sealed.takeCondition?
    · rw [found] at none; cases none
    · rw [found] at same; cases same
      obtain ⟨stop, rfl, fault⟩ := agree
      rw [extend_cons, Selector.takeConditions_of_error found']
      exact Same.error fault
  | case4 mark rest condition behind found ih =>
    obtain ⟨none, -⟩ | ⟨near, far, same, found', agree⟩ := sealed.takeCondition?
    · rw [found] at none; cases none
    · rw [found] at same; cases same
      obtain ⟨rfl, after⟩ := agree
      rw [extend_cons, Selector.takeConditions_of_ok found']
      exact (ih after).map (fun _ _ => ⟨rfl, rfl⟩)

/-- What names an element is told by the first token. -/
theorem takeType (sealed : frame.Sealed depth tokens) :
    Selector.takeType (frame.extend tokens) =
        ((Selector.takeType tokens).1, frame.extend (Selector.takeType tokens).2) ∧
      frame.Sealed depth (Selector.takeType tokens).2 := by
  cases tokens with
  | nil =>
    rw [sealed.extend_nil]
    exact ⟨congrArg (Prod.mk []) sealed.extend_nil.symm, sealed⟩
  | cons token rest =>
    rw [extend_cons, Selector.takeType, Selector.takeType, frame.kind_move]
    split
    · next ident =>
      rw [frame.identifier_of_kind ident (by decide)]
      exact ⟨rfl, sealed.of_kind ident (by decide)⟩
    split
    · next star => exact ⟨rfl, sealed.of_kind star (by decide)⟩
    · exact ⟨rfl, sealed⟩

theorem takeCompound (sealed : frame.Sealed depth tokens) :
    frame.Same depth id (Selector.takeCompound tokens)
      (Selector.takeCompound (frame.extend tokens)) := by
  obtain ⟨typed, after⟩ := sealed.takeType
  simp only [Selector.takeCompound, typed]
  cases read : Selector.takeConditions (Selector.takeType tokens).2 with
  | error halt =>
    obtain ⟨far, stopped, fault⟩ := after.takeConditions.of_error read
    rw [stopped]
    exact Same.error fault
  | ok found =>
    obtain ⟨went, last⟩ := after.takeConditions.of_ok read
    rw [went]
    simp only [id_eq]
    split
    · exact Same.error rfl
    · exact Same.ok last

/-- Behind a compound there is a combinator in the other source if there is one in the source. -/
theorem takeCombinator? (sealed : frame.Sealed depth tokens) :
    (Selector.takeCombinator? tokens = none ∧
        Selector.takeCombinator? (frame.extend tokens) = none) ∨
      ∃ near far, Selector.takeCombinator? tokens = some near ∧
        Selector.takeCombinator? (frame.extend tokens) = some far ∧
        frame.Same depth id near far := by
  unfold Selector.takeCombinator?
  cases shape : Token.skipSpace tokens with
  | nil =>
    rw [(sealed.skipSpace_nil shape).1]
    exact Or.inl ⟨rfl, rfl⟩
  | cons token rest =>
    obtain ⟨spaced, start⟩ := sealed.skipSpace_cons shape
    simp only [spaced]
    rw [frame.kind_move]
    split
    · exact Or.inl ⟨rfl, rfl⟩
    · exact Or.inl ⟨rfl, rfl⟩
    · next sign =>
      obtain ⟨spaced, behind⟩ := (start.of_kind sign (by decide)).skipSpace
      rw [spaced]
      exact Or.inr ⟨_, _, rfl, rfl, Same.ok behind⟩
    · next sign =>
      obtain ⟨spaced, behind⟩ := (start.of_kind sign (by decide)).skipSpace
      rw [spaced]
      exact Or.inr ⟨_, _, rfl, rfl, Same.ok behind⟩
    · simp only [List.length_cons, length_extend]
      by_cases space : rest.length + 1 < tokens.length
      · rw [if_pos space, if_pos (by omega)]
        exact Or.inr ⟨_, _, rfl, rfl, Same.ok start⟩
      · rw [if_neg space, if_neg (by omega)]
        exact Or.inr ⟨_, _, rfl, rfl, Same.error rfl⟩

theorem takeLinks (sealed : frame.Sealed depth tokens) :
    frame.Same depth id (Selector.takeLinks tokens)
      (Selector.takeLinks (frame.extend tokens)) := by
  fun_induction Selector.takeLinks tokens with
  | case1 tokens none =>
    obtain ⟨-, none'⟩ | ⟨near, far, found, -, -⟩ := sealed.takeCombinator?
    · obtain ⟨spaced, behind⟩ := sealed.skipSpace
      rw [Selector.takeLinks_of_none none', spaced]
      exact Same.ok behind
    · rw [none] at found; cases found
  | case2 tokens halt stopped =>
    obtain ⟨none, -⟩ | ⟨near, far, found, found', agree⟩ := sealed.takeCombinator?
    · rw [stopped] at none; cases none
    · rw [stopped] at found; cases found
      obtain ⟨stop, rfl, fault⟩ := agree
      rw [Selector.takeLinks_of_error found']
      exact Same.error fault
  | case3 tokens combinator behind sign halt stopped =>
    obtain ⟨none, -⟩ | ⟨near, far, found, found', agree⟩ := sealed.takeCombinator?
    · rw [sign] at none; cases none
    · rw [sign] at found; cases found
      obtain ⟨rfl, after⟩ := agree
      obtain ⟨stop, stopped', fault⟩ := after.takeCompound.of_error stopped
      rw [Selector.takeLinks_of_halt found' stopped']
      exact Same.error fault
  | case4 tokens combinator behind sign compound rest taken ih =>
    obtain ⟨none, -⟩ | ⟨near, far, found, found', agree⟩ := sealed.takeCombinator?
    · rw [sign] at none; cases none
    · rw [sign] at found; cases found
      obtain ⟨rfl, after⟩ := agree
      obtain ⟨taken', last⟩ := after.takeCompound.of_ok taken
      rw [Selector.takeLinks_of_ok found' taken']
      exact (ih last).map (fun _ _ => ⟨rfl, rfl⟩)

theorem take (sealed : frame.Sealed depth tokens) :
    frame.Same depth id (Selector.take tokens) (Selector.take (frame.extend tokens)) :=
  sealed.takeCompound.bind fun _ _ _ after => after.takeLinks.bind fun _ _ _ last => Same.ok last

theorem takeList (sealed : frame.Sealed depth tokens) :
    frame.Same depth id (Selector.takeList tokens)
      (Selector.takeList (frame.extend tokens)) := by
  fun_induction Selector.takeList tokens with
  | case1 tokens halt stopped =>
    obtain ⟨far, stopped', fault⟩ := sealed.take.of_error stopped
    rw [Selector.takeList_of_error stopped']
    exact Same.error fault
  | case2 tokens selector behind taken shape =>
    obtain ⟨taken', after⟩ := sealed.take.of_ok taken
    obtain ⟨spaced, -⟩ := after.skipSpace_nil shape
    rw [Selector.takeList_of_end taken' spaced]
    exact Same.error rfl
  | case3 tokens selector behind taken next rest shape comma ih =>
    obtain ⟨taken', after⟩ := sealed.take.of_ok taken
    obtain ⟨spaced, last⟩ := after.skipSpace_cons shape
    obtain ⟨spaced', inner⟩ := (last.of_kind comma (by decide)).skipSpace
    rw [Selector.takeList_of_ok taken' spaced, frame.kind_move, if_pos comma, spaced']
    exact (ih inner).map (fun _ _ => ⟨rfl, rfl⟩)
  | case4 tokens selector behind taken next rest shape noComma opened =>
    obtain ⟨taken', after⟩ := sealed.take.of_ok taken
    obtain ⟨spaced, last⟩ := after.skipSpace_cons shape
    rw [Selector.takeList_of_ok taken' spaced, frame.kind_move, if_neg noComma, if_pos opened]
    exact Same.ok last
  | case5 tokens selector behind taken next rest shape noComma noOpen =>
    obtain ⟨taken', after⟩ := sealed.take.of_ok taken
    obtain ⟨spaced, last⟩ := after.skipSpace_cons shape
    rw [Selector.takeList_of_ok taken' spaced, frame.kind_move, if_neg noComma, if_neg noOpen]
    exact Same.error rfl

end Sealed

end Frame

end StyleCascade
