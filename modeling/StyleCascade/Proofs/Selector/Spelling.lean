import StyleCascade.Proofs.Selector.Derivation
import StyleCascade.Proofs.Token.Written

namespace StyleCascade

namespace WrittenBefore

open Selector Selector.Grammar

variable {behind : List UInt8} {holds more : List Token → Prop} {mark text : String}
  {b : UInt8} {kind : TokenKind}

/-- A mark in front of what is written. -/
theorem marked (encoded : Utf8.encode mark = [b])
    (single : ∀ later, scan (b :: later) = .token kind 1)
    (written : WrittenBefore behind (Utf8.encode text) holds)
    (join : ∀ (mark : Token) (rest : List Token), mark.kind = kind → holds rest →
      more (mark :: rest)) :
    WrittenBefore behind (Utf8.encode (mark ++ text)) more := by
  rw [Utf8.encode_append, encoded]
  refine append (WrittenBefore.mark (single _)) written ?_
  rintro _ rest ⟨token, rfl, same⟩ held
  exact join token rest same held

theorem hash (written : WrittenBefore behind (Utf8.encode text) (Word .ident text)) :
    WrittenBefore behind (Utf8.encode ("#" ++ text))
      (Simple · (.equal "id" (Component.unescapeText text), .id)) := by
  refine marked (b := Ascii.byte '#') rfl (fun _ => rfl) written ?_
  rintro mark _ hash ⟨word, rfl, ident, rfl⟩
  exact .id hash ident

theorem dot (written : WrittenBefore behind (Utf8.encode text) (Word .ident text)) :
    WrittenBefore behind (Utf8.encode ("." ++ text))
      (Simple · (.listed "class" (Component.unescapeText text), .cls)) := by
  refine marked (b := Ascii.byte '.') rfl (fun _ => rfl) written ?_
  rintro mark _ dot ⟨word, rfl, ident, rfl⟩
  exact .cls dot ident

theorem colon (written : WrittenBefore behind (Utf8.encode text) (Word .ident text)) :
    WrittenBefore behind (Utf8.encode (":" ++ text))
      (Simple · (pseudo (pseudoName false (Ascii.lower text)))) := by
  refine marked (b := Ascii.byte ':') rfl (fun _ => rfl) written ?_
  rintro mark _ colon ⟨word, rfl, ident, rfl⟩
  exact .name colon ident

theorem doubleColon (written : WrittenBefore behind (Utf8.encode text) (Word .ident text)) :
    WrittenBefore behind (Utf8.encode ("::" ++ text))
      (Simple · (pseudo (pseudoName true (Ascii.lower text)))) := by
  have twice : "::" ++ text = ":" ++ (":" ++ text) := by rw [← String.append_assoc]; rfl
  have second : WrittenBefore behind (Utf8.encode (":" ++ text)) (fun tokens =>
      ∃ again word, tokens = [again, word] ∧ again.kind = .colon ∧ word.kind = .ident ∧
        word.text = text) := by
    refine marked (b := Ascii.byte ':') rfl (fun _ => rfl) written ?_
    rintro again _ colon ⟨word, rfl, ident, same⟩
    exact ⟨again, word, rfl, colon, ident, same⟩
  rw [twice]
  refine marked (b := Ascii.byte ':') rfl (fun _ => rfl) second ?_
  rintro mark _ colon ⟨again, word, rfl, colonAgain, ident, rfl⟩
  exact .doubleName colon colonAgain ident

theorem call (written : WrittenBefore behind (Utf8.encode text) (Word .function text)) :
    WrittenBefore behind (Utf8.encode (":" ++ text))
      (Simple · (pseudo (.pseudoClass (Grammar.called text)))) := by
  refine marked (b := Ascii.byte ':') rfl (fun _ => rfl) written ?_
  rintro mark _ colon ⟨word, rfl, function, rfl⟩
  exact .call colon function

/-- What stands between brackets is written in front of the second one. -/
theorem bracketed {condition : Condition}
    (written : WrittenBefore (Ascii.byte ']' :: behind) (Utf8.encode text)
      (Bracketed · condition)) :
    WrittenBefore behind (Utf8.encode ("[" ++ text ++ "]")) (Simple · (condition, .cls)) := by
  have closing : Utf8.encode "]" = [Ascii.byte ']'] := rfl
  have inner : WrittenBefore behind (Utf8.encode (text ++ "]")) (fun tokens =>
      ∃ inner closing, tokens = inner ++ [closing] ∧ Bracketed inner condition ∧
        closing.kind = .closeBracket) := by
    rw [Utf8.encode_append, closing]
    refine append written (mark (b := Ascii.byte ']') rfl) ?_
    rintro inner _ bracketed ⟨closing, rfl, closes⟩
    exact ⟨inner, closing, rfl, bracketed, closes⟩
  rw [String.append_assoc]
  refine marked (b := Ascii.byte '[') rfl (fun _ => rfl) inner ?_
  rintro opening _ opens ⟨inner, closing, rfl, bracketed, closes⟩
  exact .attr opens bracketed closes

/-- A key that stands alone in brackets. The key may hold escapes here, and what is derived holds
them resolved. -/
theorem present (written : WrittenBefore (Ascii.byte ']' :: behind) (Utf8.encode text)
      (Word .ident text)) :
    WrittenBefore behind (Utf8.encode ("[" ++ text ++ "]"))
      (Simple · (.present (Text.lowercase (Component.unescapeText text)), .cls)) := by
  refine bracketed (written.imp ?_)
  rintro _ ⟨word, rfl, ident, rfl⟩
  have bracketed : Bracketed ([] ++ word :: []) _ := .present .nil ident .nil
  exact bracketed

end WrittenBefore

namespace Selector

/-- How a comparison is written. -/
def Comparison.sign : Comparison → String
  | .equal => "="
  | .listed => "~="
  | .hyphened => "|="

end Selector

namespace WrittenBefore

open Selector Selector.Grammar

variable {behind : List UInt8} {key operand value : String}

theorem sign (comparison : Comparison) :
    WrittenBefore behind (Utf8.encode comparison.sign) (Sign · comparison) := by
  have equals : WrittenBefore behind [Ascii.byte '='] (One .equals) := mark rfl
  cases comparison with
  | equal =>
    have encoded : Utf8.encode Comparison.equal.sign = [Ascii.byte '='] := rfl
    rw [encoded]
    refine equals.imp ?_
    rintro _ ⟨sign, rfl, equals⟩
    exact .equal equals
  | listed =>
    have encoded : Utf8.encode Comparison.listed.sign = [Ascii.byte '~'] ++ [Ascii.byte '='] :=
      rfl
    rw [encoded]
    refine append (mark rfl) equals ?_
    rintro _ _ ⟨mark, rfl, tilde⟩ ⟨sign, rfl, equals⟩
    exact .listed tilde equals
  | hyphened =>
    have encoded : Utf8.encode Comparison.hyphened.sign = [Ascii.byte '|'] ++ [Ascii.byte '='] :=
      rfl
    rw [encoded]
    refine append (mark rfl) equals ?_
    rintro _ _ ⟨mark, rfl, pipe⟩ ⟨sign, rfl, equals⟩
    exact .hyphened pipe equals

/-- The value that an attribute is compared with. -/
def Compared (value : String) (tokens : List Token) : Prop :=
  ∃ operand, tokens = [operand] ∧ Operand operand value

/-- A key, a comparison and an operand in brackets. The key is taken as it stands, so it must be
plain. -/
theorem compared {comparison : Comparison} (plain : Text.IsPlain key)
    (written : WrittenBefore (Ascii.byte ']' :: behind) (Utf8.encode operand) (Compared value)) :
    WrittenBefore behind (Utf8.encode ("[" ++ (key ++ comparison.sign ++ operand) ++ "]"))
      (Simple · (comparison.condition (Text.lowercase key) value, .cls)) := by
  have cut : Cut (Utf8.encode comparison.sign ++
      (Utf8.encode operand ++ Ascii.byte ']' :: behind)) := by
    cases comparison <;> (rintro c ⟨⟩; rfl)
  refine bracketed ?_
  rw [String.append_assoc, Utf8.encode_append, Utf8.encode_append]
  have behindKey : WrittenBefore (Ascii.byte ']' :: behind)
      (Utf8.encode comparison.sign ++ Utf8.encode operand) (fun tokens => ∃ signs operand,
        tokens = signs ++ [operand] ∧ Sign signs comparison ∧ Operand operand value) := by
    refine append (sign comparison) written ?_
    rintro signs _ compares ⟨operand, rfl, compared⟩
    exact ⟨signs, operand, rfl, compares, compared⟩
  rw [← List.append_assoc] at cut
  refine append (.plain plain cut) behindKey ?_
  rintro _ _ ⟨word, rfl, ident, same⟩ ⟨signs, operand, rfl, compares, compared⟩
  have named : word.identifier = key := by
    rw [Token.identifier, same]
    exact Component.unescapeText_of_plain (plain.not_mem (by decide))
  have bracketed : Bracketed ([] ++ word :: ([] ++ (signs ++ ([] ++ operand :: []))))
      (comparison.condition (Text.lowercase word.identifier) value) :=
    .compared .nil ident .nil compares .nil compared .nil
  rw [named] at bracketed
  exact bracketed

/-- A name is compared with as it is written. -/
theorem word (written : WrittenBefore behind (Utf8.encode value) (Word .ident value)) :
    WrittenBefore behind (Utf8.encode value) (Compared value) := by
  refine written.imp ?_
  rintro _ ⟨word, rfl, ident, rfl⟩
  exact ⟨word, rfl, .word ident⟩

/-- A plain name between quotes is the string that they enclose. -/
theorem string (plain : Text.IsPlain value) :
    WrittenBefore behind (Utf8.encode ("\"" ++ value ++ "\"")) (Compared value) := by
  have inner : unquoted ("\"" ++ value ++ "\"") = value := by
    have chars : ("\"" ++ value ++ "\"").toList.tail.dropLast = value.toList := by
      have mark : "\"".toList = ['"'] := rfl
      rw [String.toList_append, String.toList_append, mark, List.singleton_append,
        List.cons_append, List.tail_cons, List.dropLast_concat]
    rw [unquoted, chars]
    exact Component.unescapeText_of_plain (plain.not_mem (by decide))
  refine (quoted plain).imp ?_
  rintro _ ⟨word, rfl, str, same⟩
  have operand := Operand.quoted str
  rw [same, inner] at operand
  exact ⟨word, rfl, operand⟩

end WrittenBefore

namespace Selector

open Grammar

/-- A text that is written for a single condition is the selector of that condition. -/
theorem read?_of_simple {text : String} {condition : Weighted}
    (written : WrittenBefore [] (Utf8.encode text) (Simple · condition)) :
    read? text = some (⟨[condition.1], []⟩, condition.2.specificity) := by
  have simple := written.tokensOf
  have filled : tokensOf (Utf8.encode text) ≠ [] := by
    intro empty
    rw [empty] at simple
    cases simple
  have compound : Grammar.Compound ([] ++ (tokensOf (Utf8.encode text) ++ [])) ([] ++ [condition]) :=
    .mk .none (.cons simple .nil) (by rwa [List.nil_append, List.append_nil])
  have padded : Padded ([] ++ ([] ++ (tokensOf (Utf8.encode text) ++ []) ++ [] ++ []))
      ([] ++ [condition]) [] := .mk .nil (.mk compound .nil) .nil
  simp only [List.nil_append, List.append_nil] at padded
  rw [read?_of_padded padded, ofCompounds, specificityOf]
  simp [Specificity.add, Specificity.zero]

section

variable {text : String}
  (whole : scan (Utf8.encode text) = .token .ident (Utf8.encode text).length)
  (ends : (Utf8.encode text).getLast? ≠ some (Ascii.byte '\\'))

include whole ends

theorem read?_dot : read? ("." ++ text) =
    some (⟨[.listed "class" (Component.unescapeText text)], []⟩, ⟨0, 1, 0⟩) :=
  read?_of_simple (.dot (.ident whole ends .nil))

theorem read?_hash : read? ("#" ++ text) =
    some (⟨[.equal "id" (Component.unescapeText text)], []⟩, ⟨1, 0, 0⟩) :=
  read?_of_simple (.hash (.ident whole ends .nil))

/-- Behind a comparison an identifier stands for itself, escapes and all. -/
theorem read?_comparison (key : String) (plain : Text.IsPlain key) (comparison : Comparison) :
    read? ("[" ++ (key ++ comparison.sign ++ text) ++ "]") =
      some (⟨[comparison.condition (Text.lowercase key) text], []⟩, ⟨0, 1, 0⟩) :=
  read?_of_simple (.compared plain (.word (.ident whole ends (.cons (by decide) []))))

theorem read?_class : read? ("[class~=" ++ text ++ "]") =
    some (⟨[.listed "class" text], []⟩, ⟨0, 1, 0⟩) := by
  have front : "[class~=" = "[" ++ ("class" ++ Comparison.listed.sign) := rfl
  have key : Text.lowercase "class" = "class" := rfl
  have read := read?_comparison whole ends "class" (by decide) .listed
  rw [key, ← String.append_assoc, ← front] at read
  exact read

theorem read?_id : read? ("[id=" ++ text ++ "]") =
    some (⟨[.equal "id" text], []⟩, ⟨0, 1, 0⟩) := by
  have front : "[id=" = "[" ++ ("id" ++ Comparison.equal.sign) := rfl
  have key : Text.lowercase "id" = "id" := rfl
  have read := read?_comparison whole ends "id" (by decide) .equal
  rw [key, ← String.append_assoc, ← front] at read
  exact read

/-- The two spellings of a class, and those of an identifier, are the same selector just if the name
has no escape: between brackets it is kept as it is written. -/
theorem read?_spellings_eq_iff :
    (read? ("." ++ text) =
        some (⟨[.listed "class" (Component.unescapeText text)], []⟩, ⟨0, 1, 0⟩) ∧
      read? ("[class~=" ++ text ++ "]") = some (⟨[.listed "class" text], []⟩, ⟨0, 1, 0⟩) ∧
      ((read? ("." ++ text)).map Prod.fst = (read? ("[class~=" ++ text ++ "]")).map Prod.fst ↔
        '\\' ∉ text.toList)) ∧
    read? ("#" ++ text) =
        some (⟨[.equal "id" (Component.unescapeText text)], []⟩, ⟨1, 0, 0⟩) ∧
      read? ("[id=" ++ text ++ "]") = some (⟨[.equal "id" text], []⟩, ⟨0, 1, 0⟩) ∧
      ((read? ("#" ++ text)).map Prod.fst = (read? ("[id=" ++ text ++ "]")).map Prod.fst ↔
        '\\' ∉ text.toList) := by
  have dot := read?_dot whole ends
  have cls := read?_class whole ends
  have hash := read?_hash whole ends
  have id := read?_id whole ends
  refine ⟨⟨dot, cls, ?_⟩, hash, id, ?_⟩
  · rw [dot, cls, ← Component.unescapeText_eq_iff]
    simp
  · rw [hash, id, ← Component.unescapeText_eq_iff]
    simp

end

/-- Letters outside ASCII are as good as others, unless they are written as escapes. -/
theorem read?_spellings_eq_iff_cafe :
    let plain := "café-x"
    let escaped := "caf\\e9-x"
    (scan (Utf8.encode plain) = .token .ident (Utf8.encode plain).length ∧
      (Utf8.encode plain).getLast? ≠ some (Ascii.byte '\\') ∧
      (read? ("." ++ plain)).map Prod.fst = (read? ("[class~=" ++ plain ++ "]")).map Prod.fst) ∧
    (scan (Utf8.encode escaped) = .token .ident (Utf8.encode escaped).length ∧
      (Utf8.encode escaped).getLast? ≠ some (Ascii.byte '\\') ∧
      (read? ("#" ++ escaped)).map Prod.fst ≠ (read? ("[id=" ++ escaped ++ "]")).map Prod.fst) := by
  intro plain escaped
  have whole : scan (Utf8.encode plain) = .token .ident (Utf8.encode plain).length := by
    decide +kernel
  have ends : (Utf8.encode plain).getLast? ≠ some (Ascii.byte '\\') := by decide +kernel
  have noEscape : '\\' ∉ plain.toList := by decide +kernel
  have wholeEscaped : scan (Utf8.encode escaped) = .token .ident (Utf8.encode escaped).length := by
    decide +kernel
  have endsEscaped : (Utf8.encode escaped).getLast? ≠ some (Ascii.byte '\\') := by decide +kernel
  have escape : '\\' ∈ escaped.toList := by decide +kernel
  refine ⟨⟨whole, ends, ?_⟩, wholeEscaped, endsEscaped, fun same => ?_⟩
  · exact (read?_spellings_eq_iff whole ends).1.2.2.mpr noEscape
  · exact (read?_spellings_eq_iff wholeEscaped endsEscaped).2.2.2.mp same escape

/-- An escape for a letter makes two classes of one. -/
theorem read?_class_letter_b :
    let name := "a\\62"
    scan (Utf8.encode name) = .token .ident (Utf8.encode name).length ∧
      (Utf8.encode name).getLast? ≠ some (Ascii.byte '\\') ∧
      read? ("." ++ name) = some (⟨[.listed "class" "ab"], []⟩, ⟨0, 1, 0⟩) ∧
      read? ("[class~=" ++ name ++ "]") = some (⟨[.listed "class" name], []⟩, ⟨0, 1, 0⟩) ∧
      (read? ("." ++ name)).map Prod.fst ≠ (read? ("[class~=" ++ name ++ "]")).map Prod.fst := by
  intro name
  have whole : scan (Utf8.encode name) = .token .ident (Utf8.encode name).length := by
    decide +kernel
  have ends : (Utf8.encode name).getLast? ≠ some (Ascii.byte '\\') := by decide +kernel
  have resolved : Component.unescapeText name = "ab" := by decide +kernel
  have dot := read?_dot whole ends
  have cls := read?_class whole ends
  rw [resolved] at dot
  refine ⟨whole, ends, dot, cls, ?_⟩
  rw [dot, cls]
  decide +kernel

end Selector

end StyleCascade
