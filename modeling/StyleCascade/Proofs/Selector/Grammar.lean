import StyleCascade.Proofs.Selector.Frame
import StyleCascade.Proofs.Token.Taken

namespace StyleCascade

namespace Selector

namespace Grammar

open Token (Spaces)

/-- The signs of the comparisons of an attribute with a value. -/
inductive Sign : List Token → Comparison → Prop
  | equal {sign : Token} (equals : sign.kind = .equals) : Sign [sign] .equal
  | listed {mark sign : Token} (tilde : mark.kind = .tilde) (equals : sign.kind = .equals) :
      Sign [mark, sign] .listed
  | hyphened {mark sign : Token} (pipe : mark.kind = .pipe) (equals : sign.kind = .equals) :
      Sign [mark, sign] .hyphened

/-- What a string writes between its quotes. -/
def unquoted (text : String) : String :=
  String.ofList (Component.unescape text.toList.tail.dropLast)

/-- The values that an attribute is compared with. -/
inductive Operand : Token → String → Prop
  | word {token : Token} (ident : token.kind = .ident) : Operand token token.text
  | quoted {token : Token} (str : token.kind = .str) : Operand token (unquoted token.text)

/-- What stands between brackets: a name alone, or compared with a value. -/
inductive Bracketed : List Token → Condition → Prop
  | present {before after : List Token} {word : Token} (spaced : Spaces before)
      (ident : word.kind = .ident) (spacedAfter : Spaces after) :
      Bracketed (before ++ word :: after) (.present (Text.lowercase word.identifier))
  | compared {before after sign gap last : List Token} {word operand : Token}
      {comparison : Comparison} {value : String} (spaced : Spaces before)
      (ident : word.kind = .ident) (spacedAfter : Spaces after) (compares : Sign sign comparison)
      (spacedSign : Spaces gap) (compared : Operand operand value) (spacedLast : Spaces last) :
      Bracketed (before ++ word :: (after ++ (sign ++ (gap ++ operand :: last))))
        (comparison.condition (Text.lowercase word.identifier) value)

/-- The pseudo-class of a function, whose argument stands between its parentheses. -/
def called (text : String) : PseudoClass :=
  let name := Ascii.lower (String.ofList (text.toList.takeWhile (· ≠ '(')))
  let behind := (text.toList.dropWhile (· ≠ '(')).tail
  let argument := Ascii.lower (Text.trim (String.ofList behind.dropLast))
  if name = "lang" then .lang argument else .other (name ++ "(" ++ argument ++ ")")

/-- A condition behind a colon, with the count it adds to. -/
def pseudo (condition : Condition) : Weighted :=
  (condition, pseudoWeight condition)

/-- A single condition. -/
inductive Simple : List Token → Weighted → Prop
  | id {mark word : Token} (hash : mark.kind = .hash) (ident : word.kind = .ident) :
      Simple [mark, word] (.equal "id" word.identifier, .id)
  | cls {mark word : Token} (dot : mark.kind = .dot) (ident : word.kind = .ident) :
      Simple [mark, word] (.listed "class" word.identifier, .cls)
  | attr {opening closing : Token} {inner : List Token} {condition : Condition}
      (opens : opening.kind = .openBracket) (bracketed : Bracketed inner condition)
      (closes : closing.kind = .closeBracket) :
      Simple (opening :: (inner ++ [closing])) (condition, .cls)
  | name {mark word : Token} (colon : mark.kind = .colon) (ident : word.kind = .ident) :
      Simple [mark, word] (pseudo (pseudoName false (Ascii.lower word.text)))
  | doubleName {mark second word : Token} (colon : mark.kind = .colon)
      (again : second.kind = .colon) (ident : word.kind = .ident) :
      Simple [mark, second, word] (pseudo (pseudoName true (Ascii.lower word.text)))
  | call {mark word : Token} (colon : mark.kind = .colon) (function : word.kind = .function) :
      Simple [mark, word] (pseudo (.pseudoClass (called word.text)))

/-- Conditions in a row. -/
inductive Simples : List Token → List Weighted → Prop
  | nil : Simples [] []
  | cons {front rest : List Token} {condition : Weighted} {more : List Weighted}
      (first : Simple front condition) (others : Simples rest more) :
      Simples (front ++ rest) (condition :: more)

/-- The name of an element, the mark for any element, or neither. -/
inductive Head : List Token → List Weighted → Prop
  | none : Head [] []
  | name {word : Token} (ident : word.kind = .ident) :
      Head [word] [(.tag (Text.lowercase word.identifier), .type)]
  | any {mark : Token} (star : mark.kind = .star) : Head [mark] [(.universal, .none)]

/-- A compound, which is not empty. -/
inductive Compound : List Token → List Weighted → Prop
  | mk {front rest : List Token} {type conditions : List Weighted} (head : Head front type)
      (simples : Simples rest conditions) (filled : front ++ rest ≠ []) :
      Compound (front ++ rest) (type ++ conditions)

/-- What stands between two compounds. -/
inductive Joint : List Token → Combinator → Prop
  | descendant {gap : List Token} (spaced : Spaces gap) (filled : gap ≠ []) :
      Joint gap .descendant
  | child {before after : List Token} {sign : Token} (spaced : Spaces before)
      (greater : sign.kind = .greater) (spacedAfter : Spaces after) :
      Joint (before ++ sign :: after) .child
  | adjacent {before after : List Token} {sign : Token} (spaced : Spaces before)
      (plus : sign.kind = .plus) (spacedAfter : Spaces after) :
      Joint (before ++ sign :: after) .adjacent

/-- Further compounds, each behind its combinator. -/
inductive Links : List Token → List (Combinator × List Weighted) → Prop
  | nil : Links [] []
  | cons {joint front rest : List Token} {combinator : Combinator} {compound : List Weighted}
      {more : List (Combinator × List Weighted)} (joins : Joint joint combinator)
      (next : Compound front compound) (others : Links rest more) :
      Links (joint ++ (front ++ rest)) ((combinator, compound) :: more)

/-- A selector. -/
inductive Complex : List Token → List Weighted → List (Combinator × List Weighted) → Prop
  | mk {front rest : List Token} {first : List Weighted}
      {links : List (Combinator × List Weighted)} (compound : Compound front first)
      (linked : Links rest links) : Complex (front ++ rest) first links

/-- A selector with white space around it. -/
inductive Padded : List Token → List Weighted → List (Combinator × List Weighted) → Prop
  | mk {before tokens after : List Token} {first : List Weighted}
      {links : List (Combinator × List Weighted)} (spaced : Spaces before)
      (complex : Complex tokens first links) (spacedAfter : Spaces after) :
      Padded (before ++ (tokens ++ after)) first links

/-- The compounds of a selector as a flat list, the last one first. -/
def listed (first : List Weighted) (links : List (Combinator × List Weighted)) :
    List SelectorPart :=
  links.reverse.flatMap (fun (combinator, compound) =>
    compound.map (fun weighted => .condition weighted.1) ++ [.combinator combinator]) ++
      first.map (fun weighted => .condition weighted.1)

/-- How many conditions add to each count. -/
def counted (conditions : List Weighted) : Specificity :=
  ⟨conditions.countP (fun weighted => weighted.2 = .id),
    conditions.countP (fun weighted => weighted.2 = .cls),
    conditions.countP (fun weighted => weighted.2 = .type)⟩

section

open Token (Braceless)

variable {tokens : List Token}

theorem Sign.braceless {comparison : Comparison} (sign : Sign tokens comparison) :
    Braceless tokens := by
  cases sign with
  | equal equals => exact .of_kind equals .nil (by decide)
  | listed tilde equals => exact .of_kind tilde (.of_kind equals .nil (by decide)) (by decide)
  | hyphened pipe equals => exact .of_kind pipe (.of_kind equals .nil (by decide)) (by decide)

theorem Operand.braceless {operand : Token} {value : String} (compared : Operand operand value)
    (others : Braceless tokens) : Braceless (operand :: tokens) := by
  cases compared with
  | word ident => exact .of_kind ident others (by decide)
  | quoted str => exact .of_kind str others (by decide)

theorem Bracketed.braceless {condition : Condition} (bracketed : Bracketed tokens condition) :
    Braceless tokens := by
  cases bracketed with
  | present spaced ident spacedAfter =>
    exact spaced.braceless.append (.of_kind ident spacedAfter.braceless (by decide))
  | compared spaced ident spacedAfter compares spacedSign compared spacedLast =>
    refine spaced.braceless.append (.of_kind ident ?_ (by decide))
    refine spacedAfter.braceless.append (compares.braceless.append ?_)
    exact spacedSign.braceless.append (compared.braceless spacedLast.braceless)

theorem Simple.braceless {condition : Weighted} (simple : Simple tokens condition) :
    Braceless tokens := by
  cases simple with
  | id hash ident => exact .of_kind hash (.of_kind ident .nil (by decide)) (by decide)
  | cls dot ident => exact .of_kind dot (.of_kind ident .nil (by decide)) (by decide)
  | attr opens bracketed closes =>
    exact .of_kind opens (bracketed.braceless.append (.of_kind closes .nil (by decide))) (by decide)
  | name colon ident => exact .of_kind colon (.of_kind ident .nil (by decide)) (by decide)
  | doubleName colon again ident =>
    exact .of_kind colon (.of_kind again (.of_kind ident .nil (by decide)) (by decide)) (by decide)
  | call colon function => exact .of_kind colon (.of_kind function .nil (by decide)) (by decide)

theorem Simples.braceless {conditions : List Weighted} (simples : Simples tokens conditions) :
    Braceless tokens := by
  induction simples with
  | nil => exact .nil
  | cons first _ ih => exact first.braceless.append ih

theorem Head.braceless {type : List Weighted} (head : Head tokens type) : Braceless tokens := by
  cases head with
  | none => exact .nil
  | name ident => exact .of_kind ident .nil (by decide)
  | any star => exact .of_kind star .nil (by decide)

theorem Compound.braceless {conditions : List Weighted} (compound : Compound tokens conditions) :
    Braceless tokens := by
  obtain ⟨head, simples, -⟩ := compound
  exact head.braceless.append simples.braceless

theorem Joint.braceless {combinator : Combinator} (joint : Joint tokens combinator) :
    Braceless tokens := by
  cases joint with
  | descendant spaced => exact spaced.braceless
  | child spaced greater spacedAfter =>
    exact spaced.braceless.append (.of_kind greater spacedAfter.braceless (by decide))
  | adjacent spaced plus spacedAfter =>
    exact spaced.braceless.append (.of_kind plus spacedAfter.braceless (by decide))

theorem Links.braceless {links : List (Combinator × List Weighted)} (linked : Links tokens links) :
    Braceless tokens := by
  induction linked with
  | nil => exact .nil
  | cons joins next _ ih => exact joins.braceless.append (next.braceless.append ih)

theorem Complex.braceless {first : List Weighted} {links : List (Combinator × List Weighted)}
    (complex : Complex tokens first links) : Braceless tokens := by
  obtain ⟨compound, linked⟩ := complex
  exact compound.braceless.append linked.braceless

end

end Grammar

section

open Grammar
open Token (Spaces)

variable {tokens rest : List Token}

theorem eq_unquoted_of_unquote? {text value : String}
    (found : Component.unquote? text = some value) : value = unquoted text := by
  obtain ⟨inner, quoted, rfl⟩ := Option.map_eq_some_iff.mp found
  rw [unquoted]
  cases chars : text.toList with
  | nil => rw [chars] at quoted; cases quoted
  | cons quote behind =>
    rw [chars, Component.quotedChars?] at quoted
    split at quoted
    · simp only at quoted
      split at quoted <;> cases quoted
      rfl
    · cases quoted

theorem eq_called_of_pseudoFunction? {text : String} {condition : Condition}
    (found : pseudoFunction? text = some condition) : condition = .pseudoClass (called text) := by
  simp only [pseudoFunction?] at found
  split at found
  · next shape =>
    split at found <;> cases found
    simp only [called, shape, List.tail_cons]
  · cases found

theorem operand_of_takeAttributeValue {value : String}
    (read : takeAttributeValue tokens = .ok (value, rest)) :
    ∃ operand, tokens = operand :: rest ∧ Operand operand value := by
  cases tokens with
  | nil => cases read
  | cons token more =>
    rw [takeAttributeValue] at read
    split at read
    · next ident => cases read; exact ⟨token, rfl, .word ident⟩
    split at read
    · next str =>
      split at read
      · next found =>
        cases read
        rw [eq_unquoted_of_unquote? found]
        exact ⟨token, rfl, .quoted str⟩
      · cases read
    · cases read

theorem sign_of_takeComparison {comparison : Comparison}
    (read : takeComparison tokens = .ok (comparison, rest)) :
    ∃ sign, tokens = sign ++ rest ∧ Sign sign comparison := by
  cases tokens with
  | nil => cases read
  | cons token more =>
    rw [takeComparison] at read
    -- the two comparisons of two tokens differ in the first one
    have second {found : Comparison} (sign : ∀ next : Token, next.kind = .equals →
        Sign [token, next] found)
        (read : (Token.expect .equals .expectedEquals more).map
          (fun next => (found, next.2)) = .ok (comparison, rest)) :
        ∃ sign, token :: more = sign ++ rest ∧ Sign sign comparison := by
      obtain ⟨⟨next, last⟩, taken, same⟩ := Reading.map_eq_ok.mp read
      cases same
      obtain ⟨rfl, equals⟩ := Token.expect_ok taken
      exact ⟨[token, next], rfl, sign next equals⟩
    split at read
    · next equals => cases read; exact ⟨[token], rfl, .equal equals⟩
    split at read
    · next tilde => exact second (fun _ equals => .listed tilde equals) read
    split at read
    · next pipe => exact second (fun _ equals => .hyphened pipe equals) read
    · cases read

/-- What the attribute reader took is one of the bracketed forms of the grammar, up to its closing
bracket. -/
theorem bracketed_of_takeAttribute {condition : Condition}
    (read : takeAttribute tokens = .ok (condition, rest)) :
    ∃ inner closing, tokens = inner ++ closing :: rest ∧ closing.kind = .closeBracket ∧
      Bracketed inner condition := by
  unfold takeAttribute at read
  obtain ⟨⟨key, behind⟩, named, read⟩ := Reading.bind_eq_ok.mp read
  obtain ⟨before, spaced, split⟩ := Token.exists_spaces tokens
  obtain ⟨word, front, ident, rfl⟩ := Token.takeWord_ok named
  obtain ⟨after, spacedAfter, splitAfter⟩ := Token.exists_spaces behind
  rw [split, front, splitAfter]
  simp only at read
  split at read
  · cases read
  next next more shape =>
  rw [shape]
  split at read
  · next closes =>
    cases read
    refine ⟨before ++ word :: after, next, ?_, closes, .present spaced ident spacedAfter⟩
    rw [List.append_assoc, List.cons_append]
  · obtain ⟨⟨comparison, afterSign⟩, signed, read⟩ := Reading.bind_eq_ok.mp read
    obtain ⟨⟨value, afterValue⟩, valued, read⟩ := Reading.bind_eq_ok.mp read
    obtain ⟨⟨closing, last⟩, closed, same⟩ := Reading.bind_eq_ok.mp read
    cases same
    obtain ⟨sign, splitSign, compares⟩ := sign_of_takeComparison signed
    obtain ⟨gap, spacedSign, splitGap⟩ := Token.exists_spaces afterSign
    obtain ⟨operand, splitValue, compared⟩ := operand_of_takeAttributeValue valued
    obtain ⟨lead, spacedLead, splitLead⟩ := Token.exists_spaces afterValue
    obtain ⟨splitClosing, closes⟩ := Token.expect_ok closed
    refine ⟨_, closing, ?_, closes,
      .compared spaced ident spacedAfter compares spacedSign compared spacedLead⟩
    rw [splitSign, splitGap, splitValue, splitLead, splitClosing]
    simp only [List.append_assoc, List.cons_append]

theorem simple_of_takePseudo {mark : Token} {condition : Condition} (colon : mark.kind = .colon)
    (read : takePseudo tokens = .ok (condition, rest)) :
    ∃ front, tokens = front ++ rest ∧ Simple (mark :: front) (pseudo condition) := by
  cases tokens with
  | nil => cases read
  | cons token more =>
    rw [takePseudo] at read
    split at read
    · next again =>
      cases more with
      | nil => cases read
      | cons word more =>
        rw [takePseudoName] at read
        split at read
        · next ident =>
          cases read
          exact ⟨[token, word], rfl, .doubleName colon again ident⟩
        · rw [Bool.not_true, Bool.and_false] at read
          cases read
    · rw [takePseudoName] at read
      split at read
      · next ident =>
        cases read
        exact ⟨[token], rfl, .name colon ident⟩
      split at read
      · next function =>
        rw [Bool.and_eq_true, decide_eq_true_eq] at function
        split at read
        · next found =>
          cases read
          rw [eq_called_of_pseudoFunction? found]
          exact ⟨[token], rfl, .call colon function.1⟩
        · cases read
      · cases read

theorem simple_of_takeCondition? {mark : Token} {condition : Weighted}
    (read : takeCondition? mark.kind tokens = some (.ok (condition, rest))) :
    ∃ front, tokens = front ++ rest ∧ Simple (mark :: front) condition := by
  unfold takeCondition? at read
  split at read
  · next hash =>
    obtain ⟨_, taken, same⟩ := Reading.map_eq_ok.mp (Option.some.inj read)
    cases same
    obtain ⟨word, front, ident, named⟩ := Token.takeName_ok taken
    rw [← named]
    exact ⟨[word], front, .id hash ident⟩
  · next dot =>
    obtain ⟨_, taken, same⟩ := Reading.map_eq_ok.mp (Option.some.inj read)
    cases same
    obtain ⟨word, front, ident, named⟩ := Token.takeName_ok taken
    rw [← named]
    exact ⟨[word], front, .cls dot ident⟩
  · next opens =>
    obtain ⟨_, taken, same⟩ := Reading.map_eq_ok.mp (Option.some.inj read)
    cases same
    obtain ⟨inner, closing, front, closes, bracketed⟩ := bracketed_of_takeAttribute taken
    refine ⟨inner ++ [closing], ?_, .attr opens bracketed closes⟩
    rw [front, List.append_assoc]
    rfl
  · next colon =>
    obtain ⟨_, taken, same⟩ := Reading.map_eq_ok.mp (Option.some.inj read)
    cases same
    exact simple_of_takePseudo colon taken
  · cases read

/-- By induction along the reader: what it takes is a derivation of what it gives. -/
theorem simples_of_takeConditions {conditions : List Weighted}
    (read : takeConditions tokens = .ok (conditions, rest)) :
    ∃ front, tokens = front ++ rest ∧ Simples front conditions := by
  fun_induction takeConditions tokens generalizing conditions rest with
  | case1 => cases read; exact ⟨[], rfl, .nil⟩
  | case2 => cases read; exact ⟨[], rfl, .nil⟩
  | case3 => cases read
  | case4 mark more condition behind found ih =>
    obtain ⟨_, taken, same⟩ := Reading.map_eq_ok.mp read
    cases same
    obtain ⟨front, split, simple⟩ := simple_of_takeCondition? found
    obtain ⟨others, splitOthers, simples⟩ := ih taken
    refine ⟨mark :: front ++ others, ?_, .cons simple simples⟩
    rw [split, splitOthers, List.cons_append, List.cons_append, List.append_assoc]

theorem head_of_takeType (tokens : List Token) :
    ∃ front, tokens = front ++ (takeType tokens).2 ∧ Head front (takeType tokens).1 := by
  cases tokens with
  | nil => exact ⟨[], rfl, .none⟩
  | cons token more =>
    rw [takeType]
    split
    · next ident => exact ⟨[token], rfl, .name ident⟩
    split
    · next star => exact ⟨[token], rfl, .any star⟩
    · exact ⟨[], rfl, .none⟩

theorem compound_of_takeCompound {compound : List Weighted}
    (read : takeCompound tokens = .ok (compound, rest)) :
    ∃ front, tokens = front ++ rest ∧ Grammar.Compound front compound := by
  have less := length_lt_of_takeCompound read
  obtain ⟨front, split, head⟩ := head_of_takeType tokens
  simp only [takeCompound] at read
  split at read
  · cases read
  next conditions last taken =>
  obtain ⟨others, splitOthers, simples⟩ := simples_of_takeConditions taken
  split at read
  · cases read
  cases read
  have whole : tokens = front ++ others ++ rest := by
    rw [List.append_assoc, ← splitOthers]
    exact split
  refine ⟨front ++ others, whole, .mk head simples ?_⟩
  intro empty
  rw [whole, empty] at less
  exact Nat.lt_irrefl _ less

theorem joint_of_takeCombinator? {combinator : Combinator}
    (read : takeCombinator? tokens = some (.ok (combinator, rest))) :
    ∃ joint, tokens = joint ++ rest ∧ Joint joint combinator := by
  obtain ⟨before, spaced, split⟩ := Token.exists_spaces tokens
  unfold takeCombinator? at read
  split at read
  · cases read
  next token more shape =>
  rw [shape] at split
  obtain ⟨after, spacedAfter, splitAfter⟩ := Token.exists_spaces more
  split at read
  · cases read
  · cases read
  · next greater =>
    cases read
    refine ⟨before ++ token :: after, ?_, .child spaced greater spacedAfter⟩
    rw [List.append_assoc, List.cons_append, ← splitAfter]
    exact split
  · next plus =>
    cases read
    refine ⟨before ++ token :: after, ?_, .adjacent spaced plus spacedAfter⟩
    rw [List.append_assoc, List.cons_append, ← splitAfter]
    exact split
  · split at read
    · next less =>
      cases read
      refine ⟨before, split, .descendant spaced ?_⟩
      rintro rfl
      rw [split] at less
      exact Nat.lt_irrefl _ less
    · cases read

/-- The links and the space behind the last of them. -/
theorem links_of_takeLinks {links : List (Combinator × List Weighted)}
    (read : takeLinks tokens = .ok (links, rest)) :
    ∃ front after, tokens = front ++ (after ++ rest) ∧ Links front links ∧ Spaces after := by
  fun_induction takeLinks tokens generalizing links rest with
  | case1 tokens =>
    cases read
    obtain ⟨after, spaced, split⟩ := Token.exists_spaces tokens
    exact ⟨[], after, split, .nil, spaced⟩
  | case2 => cases read
  | case3 => cases read
  | case4 tokens combinator behind sign compound following taken ih =>
    obtain ⟨_, more, same⟩ := Reading.map_eq_ok.mp read
    cases same
    obtain ⟨joint, split, joins⟩ := joint_of_takeCombinator? sign
    obtain ⟨front, splitFront, next⟩ := compound_of_takeCompound taken
    obtain ⟨others, after, splitOthers, linked, spaced⟩ := ih more
    refine ⟨joint ++ (front ++ others), after, ?_, .cons joins next linked, spaced⟩
    rw [split, splitFront, splitOthers]
    simp only [List.append_assoc]

/-- What is taken as a selector is one, with white space behind it. -/
theorem complex_of_take {found : Selector × Specificity}
    (read : take tokens = .ok (found, rest)) :
    ∃ front after first links, tokens = front ++ (after ++ rest) ∧ Complex front first links ∧
      Spaces after ∧
      found = (ofCompounds first links, specificityOf (first ++ links.flatMap (·.2))) := by
  unfold take at read
  obtain ⟨⟨first, behind⟩, began, read⟩ := Reading.bind_eq_ok.mp read
  obtain ⟨⟨links, last⟩, went, same⟩ := Reading.bind_eq_ok.mp read
  cases same
  obtain ⟨front, split, compound⟩ := compound_of_takeCompound began
  obtain ⟨others, after, splitOthers, linked, spaced⟩ := links_of_takeLinks went
  refine ⟨front ++ others, after, first, links, ?_, .mk compound linked, spaced, rfl⟩
  rw [split, splitOthers, List.append_assoc]

/-- A selector takes no brace. -/
theorem braceless_of_take {found : Selector × Specificity}
    (read : take tokens = .ok (found, rest)) :
    ∃ front, tokens = front ++ rest ∧ Token.Braceless front := by
  obtain ⟨front, after, _, _, split, complex, spaced, -⟩ := complex_of_take read
  refine ⟨front ++ after, ?_, complex.braceless.append spaced.braceless⟩
  rw [split, List.append_assoc]

end

end Selector

end StyleCascade
