import Mathlib.Data.List.Basic
import Mathlib.Data.List.TakeWhile
import StyleCascade.Proofs.Selector.Grammar
import StyleCascade.Proofs.Token.Whole

namespace StyleCascade

/-- A token whose text can be read as what its kind tells. -/
structure Token.Readable (token : Token) : Prop where
  quoted : token.kind = .str → (Component.unquote? token.text).isSome = true
  called : token.kind = .function → (Selector.pseudoFunction? token.text).isSome = true

namespace Selector

theorem pseudoFunction?_of_parens {text : String} {name arguments : List Char}
    (shape : text.toList = name ++ '(' :: (arguments ++ [')'])) :
    (pseudoFunction? text).isSome = true := by
  have mem : '(' ∈ text.toList := by rw [shape]; simp
  have last : text.toList.getLast? = some ')' := by
    rw [shape, ← List.cons_append, ← List.append_assoc, List.getLast?_concat]
  simp only [pseudoFunction?]
  split
  · next opening behind front =>
    have suffix : opening :: behind <:+ text.toList := front ▸ List.dropWhile_suffix _
    have paren : opening = '(' := by
      have stops := List.head?_dropWhile_not (fun c => decide (c ≠ '(')) text.toList
      rw [front] at stops
      simpa using stops
    obtain ⟨before, whole⟩ := suffix
    have closing : behind.getLast? = some ')' := by
      cases behind with
      | nil =>
        rw [← whole, List.getLast?_concat, paren] at last
        cases last
      | cons c more =>
        rw [← whole, List.getLast?_append_of_ne_nil _ (List.cons_ne_nil _ _),
          List.getLast?_cons_cons] at last
        exact last
    rw [if_pos closing]
    rfl
  · next none =>
    exact absurd (List.dropWhile_eq_nil_iff.mp none '(' mem) (by decide)

end Selector

theorem Token.readable_of_mem {source : List UInt8} {token : Token}
    (mem : token ∈ tokensOf source) : token.Readable := by
  refine ⟨Token.unquote?_of_str mem, fun function => ?_⟩
  obtain ⟨name, arguments, shape⟩ := Token.text_of_function mem function
  exact Selector.pseudoFunction?_of_parens shape

namespace Selector

open Grammar
open Token (Spaces)

section

variable {tokens rest : List Token}

theorem takeAttributeValue_of_operand {operand : Token} {value : String}
    (compared : Operand operand value) (readable : operand.Readable) :
    takeAttributeValue (operand :: rest) = .ok (value, rest) := by
  cases compared with
  | word ident => rw [takeAttributeValue, if_pos ident]
  | quoted str =>
    obtain ⟨value, found⟩ := Option.isSome_iff_exists.mp (readable.quoted str)
    have noIdent : operand.kind ≠ .ident := by rw [str]; decide
    rw [takeAttributeValue, if_neg noIdent, if_pos str]
    simp only [found, eq_unquoted_of_unquote? found]

theorem takeComparison_of_sign {comparison : Comparison} (sign : Sign tokens comparison) :
    takeComparison (tokens ++ rest) = .ok (comparison, rest) := by
  cases sign with
  | equal equals =>
    simp only [List.cons_append, List.nil_append, takeComparison, equals, if_true]
  | listed tilde equals =>
    simp [takeComparison, tilde, Token.expect_of_kind equals, Except.map]
  | hyphened pipe equals =>
    simp [takeComparison, pipe, Token.expect_of_kind equals, Except.map]

theorem Grammar.Sign.front {comparison : Comparison} (sign : Sign tokens comparison) :
    ∃ first more, tokens = first :: more ∧ first.kind ≠ .space ∧ first.kind ≠ .closeBracket := by
  cases sign with
  | equal equals => exact ⟨_, _, rfl, by rw [equals]; decide, by rw [equals]; decide⟩
  | listed tilde => exact ⟨_, _, rfl, by rw [tilde]; decide, by rw [tilde]; decide⟩
  | hyphened pipe => exact ⟨_, _, rfl, by rw [pipe]; decide, by rw [pipe]; decide⟩

/-- Whatever the grammar derives between brackets is what the reader takes, and it stops at the
closing one. -/
theorem takeAttribute_of_bracketed {condition : Condition} {closing : Token}
    (bracketed : Bracketed tokens condition) (readable : ∀ token ∈ tokens, token.Readable)
    (closes : closing.kind = .closeBracket) :
    takeAttribute (tokens ++ closing :: rest) = .ok (condition, rest) := by
  have solid {token : Token} {kind : TokenKind} (same : token.kind = kind) (other : kind ≠ .space)
      (behind : List Token) : Token.skipSpace (token :: behind) = token :: behind :=
    Token.skipSpace_of_solid (same ▸ other)
  cases bracketed with
  | @present before after word spaced ident spacedAfter =>
    rw [List.append_assoc, List.cons_append, takeAttribute, Token.skipSpace_append spaced,
      solid ident (by decide), Token.takeWord_of_ident ident]
    simp only [bind, Except.bind]
    rw [Token.skipSpace_append spacedAfter, solid closes (by decide)]
    simp only [closes, if_true]
  | @compared before after sign gap last word operand comparison value spaced ident spacedAfter
      compares spacedSign compared spacedLast =>
    obtain ⟨first, more, rfl, noSpace, noClosing⟩ := compares.front
    have operandSolid : operand.kind ≠ .space := by
      cases compared with
      | word ident => rw [ident]; decide
      | quoted str => rw [str]; decide
    have sound : operand.Readable := readable operand (by simp)
    have signed : takeComparison
        (first :: (more ++ (gap ++ (operand :: (last ++ closing :: rest))))) =
          .ok (comparison, gap ++ (operand :: (last ++ closing :: rest))) :=
      takeComparison_of_sign compares
    rw [List.append_assoc, List.cons_append, takeAttribute, Token.skipSpace_append spaced,
      solid ident (by decide), Token.takeWord_of_ident ident]
    simp only [bind, Except.bind, List.append_assoc, List.cons_append]
    rw [Token.skipSpace_append spacedAfter, Token.skipSpace_of_solid noSpace]
    simp only [if_neg noClosing, signed]
    rw [Token.skipSpace_append spacedSign, Token.skipSpace_of_solid operandSolid,
      takeAttributeValue_of_operand compared sound]
    simp only
    rw [Token.skipSpace_append spacedLast, solid closes (by decide), Token.expect_of_kind closes]

/-- A condition is taken behind the mark that introduces it. -/
theorem takeCondition?_of_simple {condition : Weighted} (simple : Simple tokens condition)
    (readable : ∀ token ∈ tokens, token.Readable) :
    ∃ mark inner, tokens = mark :: inner ∧
      mark.kind ∈ [TokenKind.hash, .dot, .openBracket, .colon] ∧
      ∀ rest, takeCondition? mark.kind (inner ++ rest) = some (.ok (condition, rest)) := by
  cases simple with
  | @id mark word hash ident =>
    refine ⟨mark, [word], rfl, by rw [hash]; decide, fun rest => ?_⟩
    simp [takeCondition?, hash, Token.takeName_of_ident ident, Except.map]
  | @cls mark word dot ident =>
    refine ⟨mark, [word], rfl, by rw [dot]; decide, fun rest => ?_⟩
    simp [takeCondition?, dot, Token.takeName_of_ident ident, Except.map]
  | @attr opening closing inner condition opens bracketed closes =>
    refine ⟨opening, inner ++ [closing], rfl, by rw [opens]; decide, fun rest => ?_⟩
    have inside : ∀ token ∈ inner, token.Readable :=
      fun token mem => readable token (by simp [mem])
    have taken : takeAttribute (inner ++ closing :: rest) = .ok (condition, rest) :=
      takeAttribute_of_bracketed bracketed inside closes
    simp [takeCondition?, opens, taken, Except.map]
  | @name mark word colon ident =>
    refine ⟨mark, [word], rfl, by rw [colon]; decide, fun rest => ?_⟩
    simp [takeCondition?, colon, takePseudo, takePseudoName, ident, Except.map, pseudo]
  | @doubleName mark second word colon again ident =>
    refine ⟨mark, [second, word], rfl, by rw [colon]; decide, fun rest => ?_⟩
    simp [takeCondition?, colon, takePseudo, again, takePseudoName, ident, Except.map, pseudo]
  | @call mark word colon function =>
    refine ⟨mark, [word], rfl, by rw [colon]; decide, fun rest => ?_⟩
    have sound : word.Readable := readable word (by simp)
    obtain ⟨found, shape⟩ := Option.isSome_iff_exists.mp (sound.called function)
    obtain rfl := eq_called_of_pseudoFunction? shape
    simp [takeCondition?, colon, takePseudo, takePseudoName, function, shape, Except.map, pseudo]

/-- What may stand behind a compound: nothing, or what joins it to another one. -/
def Ends (rest : List Token) : Prop :=
  ∀ token ∈ rest.head?, token.kind ∈ [TokenKind.space, .greater, .plus]

theorem Ends.nil : Ends [] :=
  fun _ none => by cases none

theorem Ends.cons {token : Token} (kind : token.kind ∈ [TokenKind.space, .greater, .plus])
    (behind : List Token) : Ends (token :: behind) :=
  fun _ head => by cases head; exact kind

theorem Ends.of_spaces {gap : List Token} (spaced : Spaces gap) (ends : Ends rest) :
    Ends (gap ++ rest) := by
  cases gap with
  | nil => exact ends
  | cons token gap => exact .cons (by rw [spaced.of_cons.1]; decide) _

theorem Ends.of_joint {combinator : Combinator} (joint : Joint tokens combinator)
    (behind : List Token) : Ends (tokens ++ behind) := by
  cases joint with
  | descendant spaced filled =>
    cases tokens with
    | nil => exact absurd rfl filled
    | cons token gap => exact .cons (by rw [spaced.of_cons.1]; decide) _
  | child spaced greater =>
    rw [List.append_assoc]
    exact .of_spaces spaced (.cons (by rw [greater]; decide) _)
  | adjacent spaced plus =>
    rw [List.append_assoc]
    exact .of_spaces spaced (.cons (by rw [plus]; decide) _)

theorem Ends.of_links {links : List (Combinator × List Weighted)} {after : List Token}
    (linked : Links tokens links) (spaced : Spaces after) : Ends (tokens ++ after) := by
  cases linked with
  | nil =>
    have ends := Ends.of_spaces spaced .nil
    rwa [List.append_nil] at ends
  | cons joins =>
    rw [List.append_assoc]
    exact .of_joint joins _

theorem takeConditions_of_ends (ends : Ends rest) : takeConditions rest = .ok ([], rest) := by
  cases rest with
  | nil => rw [takeConditions]
  | cons token rest =>
    refine takeConditions_of_none ?_
    have kind := ends token rfl
    simp only [List.mem_cons, List.not_mem_nil, or_false] at kind
    obtain same | same | same := kind <;> rw [same] <;> rfl

/-- By induction on the derivation: each condition is taken up to where the next one begins. -/
theorem takeConditions_of_simples {conditions : List Weighted}
    (simples : Simples tokens conditions) (readable : ∀ token ∈ tokens, token.Readable)
    (ends : Ends rest) : takeConditions (tokens ++ rest) = .ok (conditions, rest) := by
  induction simples with
  | nil => exact takeConditions_of_ends ends
  | @cons front others condition more first _ ih =>
    obtain ⟨readableFirst, readableOthers⟩ := List.forall_mem_append.mp readable
    obtain ⟨mark, inner, rfl, -, taken⟩ := takeCondition?_of_simple first readableFirst
    rw [List.append_assoc, List.cons_append, takeConditions_of_ok (taken (others ++ rest)),
      ih readableOthers]
    rfl

/-- The kinds of tokens that begin a compound. -/
def starts : List TokenKind :=
  [.ident, .star, .hash, .dot, .openBracket, .colon]

/-- A derived run of conditions that is not empty begins with one of the four marks by which the
reader knows a condition. -/
theorem Grammar.Simples.front {conditions : List Weighted} (simples : Simples tokens conditions)
    (filled : tokens ≠ []) :
    conditions ≠ [] ∧ ∃ first more, tokens = first :: more ∧
      first.kind ∈ [TokenKind.hash, .dot, .openBracket, .colon] := by
  cases simples with
  | nil => exact absurd rfl filled
  | cons simple =>
    refine ⟨List.cons_ne_nil _ _, ?_⟩
    cases simple with
    | id hash => exact ⟨_, _, rfl, by rw [hash]; decide⟩
    | cls dot => exact ⟨_, _, rfl, by rw [dot]; decide⟩
    | attr opens => exact ⟨_, _, rfl, by rw [opens]; decide⟩
    | name colon => exact ⟨_, _, rfl, by rw [colon]; decide⟩
    | doubleName colon => exact ⟨_, _, rfl, by rw [colon]; decide⟩
    | call colon => exact ⟨_, _, rfl, by rw [colon]; decide⟩

/-- A compound is never empty, and the kind of its first token tells it from a combinator. -/
theorem Grammar.Compound.front {conditions : List Weighted}
    (compound : Grammar.Compound tokens conditions) :
    ∃ first more, tokens = first :: more ∧ first.kind ∈ starts := by
  obtain ⟨head, simples, filled⟩ := compound
  cases head with
  | none =>
    obtain ⟨-, first, more, rfl, kind⟩ := simples.front filled
    exact ⟨first, more, rfl, List.mem_of_mem_drop (i := 2) kind⟩
  | name ident => exact ⟨_, _, rfl, by rw [ident]; decide⟩
  | any star => exact ⟨_, _, rfl, by rw [star]; decide⟩

theorem Grammar.Simples.eq_nil {conditions : List Weighted} (simples : Simples [] conditions) :
    conditions = [] := by
  generalize shape : ([] : List Token) = tokens at simples
  cases simples with
  | nil => rfl
  | cons first => cases first <;> cases shape

/-- A compound has conditions. -/
theorem Grammar.Compound.filled {conditions : List Weighted}
    (compound : Grammar.Compound tokens conditions) : conditions ≠ [] := by
  obtain ⟨head, simples, filled⟩ := compound
  cases head with
  | none => exact (simples.front filled).1
  | name => exact List.cons_ne_nil _ _
  | any => exact List.cons_ne_nil _ _

theorem takeType_of_head {type conditions : List Weighted} {others : List Token}
    (head : Head tokens type) (simples : Simples others conditions) (ends : Ends rest) :
    takeType (tokens ++ (others ++ rest)) = (type, others ++ rest) := by
  cases head with
  | name ident => simp only [List.cons_append, List.nil_append, takeType, ident, if_true]
  | any star => simp [takeType, star]
  | none =>
    have other : ∀ token ∈ (others ++ rest).head?, token.kind ≠ .ident ∧ token.kind ≠ .star := by
      intro token front
      by_cases empty : others = []
      · subst empty
        have kind := ends token front
        constructor <;> (intro same; rw [same] at kind; revert kind; decide)
      · obtain ⟨-, first, more, rfl, kind⟩ := simples.front empty
        cases front
        constructor <;> (intro same; rw [same] at kind; revert kind; decide)
    cases shape : others ++ rest with
    | nil => rfl
    | cons token behind =>
      obtain ⟨noIdent, noStar⟩ := other token (by rw [shape]; rfl)
      rw [List.nil_append, takeType, if_neg noIdent, if_neg noStar]

theorem takeCompound_of_compound {conditions : List Weighted}
    (compound : Grammar.Compound tokens conditions) (readable : ∀ token ∈ tokens, token.Readable)
    (ends : Ends rest) : takeCompound (tokens ++ rest) = .ok (conditions, rest) := by
  have filled := compound.filled
  obtain @⟨front, others, type, conditions, head, simples, -⟩ := compound
  obtain ⟨-, readableOthers⟩ := List.forall_mem_append.mp readable
  have some : ¬(decide (type = []) && decide (conditions = [])) = true := by
    simp only [Bool.and_eq_true, decide_eq_true_eq]
    exact fun none => filled (List.append_eq_nil_iff.mpr none)
  rw [List.append_assoc, takeCompound, takeType_of_head head simples ends]
  simp only [takeConditions_of_simples simples readableOthers ends]
  rw [if_neg some]

theorem takeCombinator?_of_joint {combinator : Combinator} {first : Token} {behind : List Token}
    (joint : Joint tokens combinator) (start : first.kind ∈ starts) :
    takeCombinator? (tokens ++ first :: behind) = some (.ok (combinator, first :: behind)) := by
  have solid : first.kind ≠ .space := by
    intro same
    rw [same] at start
    revert start
    decide
  have front : Token.skipSpace (first :: behind) = first :: behind := Token.skipSpace_of_solid solid
  cases joint with
  | descendant spaced filled =>
    have less : (first :: behind).length < (tokens ++ first :: behind).length := by
      have := List.length_pos_iff.mpr filled
      rw [List.length_append]; omega
    rw [takeCombinator?, Token.skipSpace_append spaced, front]
    simp only [starts, List.mem_cons, List.not_mem_nil, or_false] at start
    obtain same | same | same | same | same | same := start <;> simp only [same, if_pos less]
  | @child before after sign spaced greater spacedAfter =>
    have solidSign : sign.kind ≠ .space := by rw [greater]; decide
    rw [List.append_assoc, List.cons_append, takeCombinator?, Token.skipSpace_append spaced,
      Token.skipSpace_of_solid solidSign]
    simp only [greater, Token.skipSpace_append spacedAfter, front]
  | @adjacent before after sign spaced plus spacedAfter =>
    have solidSign : sign.kind ≠ .space := by rw [plus]; decide
    rw [List.append_assoc, List.cons_append, takeCombinator?, Token.skipSpace_append spaced,
      Token.skipSpace_of_solid solidSign]
    simp only [plus, Token.skipSpace_append spacedAfter, front]

/-- The induction over the links. Space at the end is passed and is no descendant combinator. -/
theorem takeLinks_of_links {links : List (Combinator × List Weighted)} {after : List Token}
    (linked : Links tokens links) (readable : ∀ token ∈ tokens, token.Readable)
    (spaced : Spaces after) : takeLinks (tokens ++ after) = .ok (links, []) := by
  induction linked with
  | nil =>
    have none : takeCombinator? after = none := by
      rw [takeCombinator?, Token.skipSpace_of_spaces spaced]
    rw [List.nil_append, takeLinks_of_none none, Token.skipSpace_of_spaces spaced]
  | @cons joint front others combinator compound more joins next linked ih =>
    obtain ⟨-, readableBehind⟩ := List.forall_mem_append.mp readable
    obtain ⟨readableFront, readableOthers⟩ := List.forall_mem_append.mp readableBehind
    obtain ⟨first, rest, shape, start⟩ := next.front
    have sign : takeCombinator? (joint ++ (front ++ (others ++ after))) =
        some (.ok (combinator, front ++ (others ++ after))) := by
      rw [shape]
      exact takeCombinator?_of_joint joins start
    have taken := takeCompound_of_compound next readableFront (Ends.of_links linked spaced)
    rw [List.append_assoc, List.append_assoc, takeLinks_of_ok sign taken, ih readableOthers]
    rfl

/-- A selector of the grammar is taken as a whole, with the white space around it. -/
theorem take_of_padded {first : List Weighted} {links : List (Combinator × List Weighted)}
    (padded : Padded tokens first links) (readable : ∀ token ∈ tokens, token.Readable) :
    take (Token.skipSpace tokens) =
      .ok ((ofCompounds first links, specificityOf (first ++ links.flatMap (·.2))), []) := by
  obtain @⟨before, tokens, after, first, links, spaced, complex, spacedAfter⟩ := padded
  obtain ⟨-, readableBehind⟩ := List.forall_mem_append.mp readable
  obtain ⟨readableTokens, -⟩ := List.forall_mem_append.mp readableBehind
  obtain @⟨front, rest, first, links, compound, linked⟩ := complex
  obtain ⟨readableFront, readableRest⟩ := List.forall_mem_append.mp readableTokens
  obtain ⟨start, more, shape, kind⟩ := compound.front
  have solid : Token.skipSpace (front ++ (rest ++ after)) = front ++ (rest ++ after) := by
    rw [shape]
    refine Token.skipSpace_of_solid (fun same => ?_)
    rw [same] at kind
    revert kind
    decide
  have ends := Ends.of_links linked spacedAfter
  rw [Token.skipSpace_append spaced, List.append_assoc, solid, take,
    takeCompound_of_compound compound readableFront ends]
  simp only [bind, Except.bind, takeLinks_of_links linked readableRest spacedAfter]

/-- The parts of a selector are listed from its subject outwards. -/
theorem parts_extend (selector : Selector) (combinator : Combinator) (compound : Compound) :
    (selector.extend combinator compound).parts =
      compound.map .condition ++ .combinator combinator :: selector.parts := by
  simp only [extend, parts, List.flatMap_cons, List.cons_append]

/-- Putting the compounds in front one after the other turns their order around. -/
theorem parts_ofCompounds (first : List Weighted) (links : List (Combinator × List Weighted)) :
    (ofCompounds first links).parts = listed first links := by
  have step (start : Selector) :
      (links.foldl (fun selector link => selector.extend link.1 (link.2.map (·.1))) start).parts =
        links.reverse.flatMap (fun link =>
          link.2.map (fun weighted => SelectorPart.condition weighted.1) ++
            [.combinator link.1]) ++ start.parts := by
    induction links generalizing start with
    | nil => rfl
    | cons link links ih =>
      rw [List.foldl_cons, ih, parts_extend, List.reverse_cons, List.flatMap_append,
        List.map_map, List.append_assoc]
      simp [Function.comp_def]
  rw [ofCompounds, step, listed]
  simp [parts, Function.comp_def]

theorem counted_cons (weighted : Weighted) (conditions : List Weighted) :
    counted (weighted :: conditions) = weighted.2.specificity.add (counted conditions) := by
  obtain ⟨condition, weight⟩ := weighted
  cases weight <;>
    simp [counted, Specificity.add, Weight.specificity, Specificity.zero, Nat.add_comm]

theorem specificityOf_eq_counted (conditions : List Weighted) :
    specificityOf conditions = counted conditions := by
  have step (total : Specificity) :
      conditions.foldl (fun total weighted => total.add weighted.2.specificity) total =
        total.add (counted conditions) := by
    induction conditions generalizing total with
    | nil => rfl
    | cons weighted conditions ih =>
      rw [List.foldl_cons, ih, counted_cons]
      simp only [Specificity.add, Nat.add_assoc]
  rw [specificityOf, step]
  simp [Specificity.add, Specificity.zero]

theorem eq_of_parts {selector other : Selector} (same : selector.parts = other.parts) :
    selector = other := by
  rw [← ofParts_parts selector, same, ofParts_parts]

/-- From the grammar to the reader, over a whole text. -/
theorem read?_of_padded {text : String} {first : List Weighted}
    {links : List (Combinator × List Weighted)}
    (padded : Padded (tokensOf (Utf8.encode text)) first links) :
    read? text =
      some (ofCompounds first links, specificityOf (first ++ links.flatMap (·.2))) := by
  rw [read?, take_of_padded padded (fun _ mem => Token.readable_of_mem mem)]
  rfl

/-- And from the reader to the grammar. -/
theorem padded_of_read? {text : String} {found : Selector × Specificity}
    (read : read? text = some found) :
    ∃ first links, Padded (tokensOf (Utf8.encode text)) first links ∧
      found = (ofCompounds first links, specificityOf (first ++ links.flatMap (·.2))) := by
  obtain ⟨before, spaced, split⟩ := Token.exists_spaces (tokensOf (Utf8.encode text))
  rw [read?] at read
  cases taken : take (Token.skipSpace (tokensOf (Utf8.encode text))) with
  | error halt => rw [taken] at read; cases read
  | ok outcome =>
    obtain ⟨result, rest⟩ := outcome
    rw [taken] at read
    simp only at read
    split at read
    · next nothing =>
      cases read
      obtain ⟨front, after, first, links, shape, complex, spacedAfter, same⟩ :=
        complex_of_take taken
      obtain ⟨gap, spacedGap, restGap⟩ := Token.exists_spaces rest
      rw [nothing, List.append_nil] at restGap
      have last : Spaces (after ++ rest) := by
        rw [restGap]
        exact List.forall_mem_append.mpr ⟨spacedAfter, spacedGap⟩
      refine ⟨first, links, ?_, same⟩
      rw [split, shape]
      exact .mk spaced complex last
    · cases read

/-- A text is a selector just if its tokens derive from the grammar, with white space around them.
The selector then lists the compounds of the derivation from the last to the first, and its
specificity counts their conditions. -/
theorem read_iff_derives (text : String) :
    ((read? text).isSome = true ↔
        ∃ first links, Padded (tokensOf (Utf8.encode text)) first links) ∧
      ∀ selector specificity, read? text = some (selector, specificity) ↔
        ∃ first links, Padded (tokensOf (Utf8.encode text)) first links ∧
          selector.parts = listed first links ∧
          specificity = counted (first ++ links.flatMap (·.2)) := by
  constructor
  · constructor
    · intro found
      obtain ⟨result, read⟩ := Option.isSome_iff_exists.mp found
      obtain ⟨first, links, padded, -⟩ := padded_of_read? read
      exact ⟨first, links, padded⟩
    · rintro ⟨first, links, padded⟩
      rw [read?_of_padded padded]
      rfl
  · intro selector specificity
    constructor
    · intro read
      obtain ⟨first, links, padded, same⟩ := padded_of_read? read
      obtain ⟨rfl, rfl⟩ := Prod.mk.inj same
      exact ⟨first, links, padded, parts_ofCompounds first links, specificityOf_eq_counted _⟩
    · rintro ⟨first, links, padded, parts, rfl⟩
      rw [← parts_ofCompounds] at parts
      rw [read?_of_padded padded, eq_of_parts parts, specificityOf_eq_counted]

end

end Selector

end StyleCascade
