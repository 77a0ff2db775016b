import StyleCascade.Proofs.Selector.Spelling
import StyleCascade.Selector.Text

namespace StyleCascade

/-- The name of a pseudo-class is plain, or it is a function with a plain name and a plain
argument. -/
inductive PseudoClass.Plain : PseudoClass → Prop
  | link : Plain .link
  | visited : Plain .visited
  | hover : Plain .hover
  | active : Plain .active
  | focus : Plain .focus
  | firstChild : Plain .firstChild
  | lang {language : String} (plain : Text.IsPlain language) : Plain (.lang language)
  | other {name : String} (plain : Text.IsPlain name) : Plain (.other name)
  | call {name function argument : String} (plain : Text.IsPlain function)
      (plainArgument : Text.IsPlain argument)
      (called : name = function ++ "(" ++ argument ++ ")") : Plain (.other name)

/-- The name of a pseudo-element is plain. -/
inductive PseudoElement.Plain : PseudoElement → Prop
  | before : Plain .before
  | after : Plain .after
  | firstLine : Plain .firstLine
  | firstLetter : Plain .firstLetter
  | other {name : String} (plain : Text.IsPlain name) : Plain (.other name)

/-- All names of a condition are plain. -/
inductive Condition.Plain : Condition → Prop
  | universal : Plain .universal
  | tag {name : String} (plain : Text.IsPlain name) : Plain (.tag name)
  | present {key : String} (plain : Text.IsPlain key) : Plain (.present key)
  | equal {key value : String} (plain : Text.IsPlain key) (plainValue : Text.IsPlain value) :
      Plain (.equal key value)
  | listed {key word : String} (plain : Text.IsPlain key) (plainWord : Text.IsPlain word) :
      Plain (.listed key word)
  | hyphened {key value : String} (plain : Text.IsPlain key) (plainValue : Text.IsPlain value) :
      Plain (.hyphened key value)
  | pseudoClass {cls : PseudoClass} (plain : cls.Plain) : Plain (.pseudoClass cls)
  | pseudoElement {element : PseudoElement} (plain : element.Plain) :
      Plain (.pseudoElement element)

theorem Condition.Plain.of_pseudoClass {cls : PseudoClass}
    (plain : (Condition.pseudoClass cls).Plain) : cls.Plain := by
  cases plain
  assumption

theorem Condition.Plain.of_tag {name : String} (plain : (Condition.tag name).Plain) :
    Text.IsPlain name := by
  cases plain
  assumption

/-- All names of a selector are plain. -/
def Selector.Plain (selector : Selector) : Prop :=
  (∀ condition ∈ selector.subject, condition.Plain) ∧
    ∀ link ∈ selector.links, ∀ condition ∈ link.2, condition.Plain

namespace Selector

open Grammar

/-- Tokens of a condition, whatever its weight. -/
def Means (condition : Condition) (tokens : List Token) : Prop :=
  ∃ weight, Simple tokens (condition, weight)

theorem Means.of_simple {condition : Weighted} {tokens : List Token}
    (simple : Simple tokens condition) : Means condition.1 tokens :=
  ⟨condition.2, simple⟩

section

variable {behind : List UInt8}

theorem written_hash {value : String} (plain : Text.IsPlain value) (cut : Cut behind) :
    WrittenBefore behind (Utf8.encode ("#" ++ value)) (Means (.equal "id" value)) := by
  have written := WrittenBefore.hash (.plain plain cut)
  rw [Component.unescapeText_of_plain (plain.not_mem (by decide))] at written
  exact written.imp fun _ => .of_simple

theorem written_dot {value : String} (plain : Text.IsPlain value) (cut : Cut behind) :
    WrittenBefore behind (Utf8.encode ("." ++ value)) (Means (.listed "class" value)) := by
  have written := WrittenBefore.dot (.plain plain cut)
  rw [Component.unescapeText_of_plain (plain.not_mem (by decide))] at written
  exact written.imp fun _ => .of_simple

/-- A key is lowered when it is read, so it reads back only if it is lower case already. -/
theorem written_present {key : String} (plain : Text.IsPlain key)
    (lowered : Text.lowercase key = key) :
    WrittenBefore behind (Utf8.encode (Condition.present key).text) (Means (.present key)) := by
  have written : WrittenBefore behind (Utf8.encode ("[" ++ key ++ "]")) _ :=
    .present (.plain plain (.cons (by decide) _))
  rw [Component.unescapeText_of_plain (plain.not_mem (by decide)), lowered] at written
  exact written.imp fun _ => .of_simple

/-- An identifier and a class are written in their short form, any other comparison between
brackets, with its value in quotes. -/
theorem written_comparison {comparison : Comparison} {key value : String}
    (plain : Text.IsPlain key) (plainValue : Text.IsPlain value)
    (lowered : Text.lowercase key = key) (cut : Cut behind) :
    WrittenBefore behind (Utf8.encode (comparison.condition key value).text)
      (Means (comparison.condition key value)) := by
  have long : WrittenBefore behind
      (Utf8.encode ("[" ++ key ++ (comparison.sign ++ "\"") ++ value ++ "\"]"))
        (Means (comparison.condition key value)) := by
    have text : "[" ++ key ++ (comparison.sign ++ "\"") ++ value ++ "\"]" =
        "[" ++ (key ++ comparison.sign ++ ("\"" ++ value ++ "\"")) ++ "]" := by
      have closing : "\"]" = "\"" ++ "]" := rfl
      rw [closing]
      simp only [String.append_assoc]
    have written : WrittenBefore behind
        (Utf8.encode ("[" ++ (key ++ comparison.sign ++ ("\"" ++ value ++ "\"")) ++ "]")) _ :=
      .compared plain (.string plainValue)
    rw [lowered] at written
    rw [text]
    exact written.imp fun _ => .of_simple
  cases comparison with
  | equal =>
    by_cases short : key = "id"
    · subst short
      exact written_hash plainValue cut
    · have text : (Comparison.equal.condition key value).text =
          "[" ++ key ++ (Comparison.equal.sign ++ "\"") ++ value ++ "\"]" := if_neg short
      rwa [text]
  | listed =>
    by_cases short : key = "class"
    · subst short
      exact written_dot plainValue cut
    · have text : (Comparison.listed.condition key value).text =
          "[" ++ key ++ (Comparison.listed.sign ++ "\"") ++ value ++ "\"]" := if_neg short
      rwa [text]
  | hyphened => exact long

/-- What a name behind colons becomes has that name again, and is plain just if the name is, unless
it is a function. Behind two colons it becomes the same if it is a pseudo-element. -/
theorem pseudoName_cases (double : Bool) (name : String) :
    (∃ element : PseudoElement, pseudoName double name = .pseudoElement element ∧
      pseudoName true name = .pseudoElement element ∧ element.name = name ∧
        (element.Plain → Text.IsPlain name)) ∨
    ∃ cls : PseudoClass, double = false ∧ pseudoName double name = .pseudoClass cls ∧
      cls.name = name ∧ (cls.Plain → Text.IsPlain name ∨
        ∃ function argument, Text.IsPlain function ∧ name = function ++ "(" ++ argument ++ ")") := by
  unfold pseudoName
  split
  · exact Or.inl ⟨.before, rfl, rfl, rfl, fun _ => by decide⟩
  · exact Or.inl ⟨.after, rfl, rfl, rfl, fun _ => by decide⟩
  · exact Or.inl ⟨.firstLine, rfl, rfl, rfl, fun _ => by decide⟩
  · exact Or.inl ⟨.firstLetter, rfl, rfl, rfl, fun _ => by decide⟩
  cases double with
  | true =>
    refine Or.inl ⟨.other _, rfl, rfl, rfl, fun plain => ?_⟩
    cases plain with
    | other plain => exact plain
  | false =>
    right
    rw [if_neg Bool.false_ne_true]
    split
    · exact ⟨.link, rfl, rfl, rfl, fun _ => Or.inl (by decide)⟩
    · exact ⟨.visited, rfl, rfl, rfl, fun _ => Or.inl (by decide)⟩
    · exact ⟨.hover, rfl, rfl, rfl, fun _ => Or.inl (by decide)⟩
    · exact ⟨.active, rfl, rfl, rfl, fun _ => Or.inl (by decide)⟩
    · exact ⟨.focus, rfl, rfl, rfl, fun _ => Or.inl (by decide)⟩
    · exact ⟨.firstChild, rfl, rfl, rfl, fun _ => Or.inl (by decide)⟩
    · refine ⟨.other _, rfl, rfl, rfl, fun plain => ?_⟩
      cases plain with
      | other plain => exact Or.inl plain
      | call plain _ called => exact Or.inr ⟨_, _, plain, called⟩

/-- A pseudo-class or a pseudo-element of a name is written with that name. -/
theorem written_pseudoName (double : Bool) (name : String) (lowered : Ascii.lower name = name)
    (plain : (pseudoName double name).Plain)
    (noCall : double = false → ∀ function argument : String, Text.IsPlain function →
      name ≠ function ++ "(" ++ argument ++ ")") (cut : Cut behind) :
    WrittenBefore behind (Utf8.encode (pseudoName double name).text)
      (Means (pseudoName double name)) := by
  rcases pseudoName_cases double name with
    ⟨element, same, again, named, plainName⟩ | ⟨cls, single, same, named, plainName⟩
  · rw [same] at plain ⊢
    cases plain with
    | pseudoElement plain =>
      have written := WrittenBefore.doubleColon (.plain (plainName plain) cut)
      rw [lowered, again] at written
      rw [Condition.text, named]
      exact written.imp fun _ => .of_simple
  · rw [same] at plain ⊢
    cases plain with
    | pseudoClass plain =>
      have plainName : Text.IsPlain name := by
        rcases plainName plain with plainName | ⟨function, argument, plainFunction, called⟩
        · exact plainName
        · exact absurd called (noCall single function argument plainFunction)
      have written := WrittenBefore.colon (.plain plainName cut)
      rw [single] at same
      rw [lowered, same] at written
      rw [Condition.text, named]
      exact written.imp fun _ => .of_simple

/-- A function of plain names has their lowercase forms for its name and its argument. -/
theorem called_of_plain {function argument : String} (plain : Text.IsPlain function)
    (plainArgument : Text.IsPlain argument) :
    called (function ++ "(" ++ argument ++ ")") =
      if Ascii.lower function = "lang" then .lang (Ascii.lower argument)
      else .other (Ascii.lower function ++ "(" ++ Ascii.lower argument ++ ")") := by
  have noParen : '(' ∉ function.toList := plain.not_mem (by decide)
  obtain ⟨front, behind⟩ := Text.span_mark noParen (argument.toList ++ [')'])
  rw [called, Text.toList_call, front, behind]
  simp only [List.tail_cons, List.dropLast_concat, String.ofList_toList, plainArgument.trim_eq]

/-- The name of a function ends at its first parenthesis, and is in lowercase like its argument. -/
theorem called_cases (text : String) :
    ∃ function argument, Ascii.lower function = function ∧ Ascii.lower argument = argument ∧
      '(' ∉ function.toList ∧
        called text = if function = "lang" then .lang argument
          else .other (function ++ "(" ++ argument ++ ")") := by
  refine ⟨Ascii.lower (String.ofList (text.toList.takeWhile (· ≠ '('))),
    Ascii.lower (Text.trim (String.ofList (text.toList.dropWhile (· ≠ '(')).tail.dropLast)),
    Text.lower_lower _, Text.lower_lower _, ?_, by rw [called]⟩
  rw [Ascii.toList_lower, String.toList_ofList]
  intro mem
  obtain ⟨c, inside, same⟩ := List.mem_map.mp mem
  have other := List.mem_takeWhile_imp inside
  rw [Text.eq_paren_of_toLower same] at other
  cases other

/-- The two parts of a function are found again where neither holds a parenthesis. -/
theorem call_inj {function argument other otherArgument : String} (first : '(' ∉ function.toList)
    (second : '(' ∉ other.toList)
    (same : function ++ "(" ++ argument ++ ")" = other ++ "(" ++ otherArgument ++ ")") :
    function = other ∧ argument = otherArgument := by
  rw [← String.toList_inj, Text.toList_call, Text.toList_call] at same
  have names := congrArg (List.takeWhile (· ≠ '(')) same
  rw [(Text.span_mark first _).1, (Text.span_mark second _).1] at names
  rw [names] at same
  have behind := List.append_cancel_right (List.cons.inj (List.append_cancel_left same)).2
  exact ⟨String.toList_inj.mp names, String.toList_inj.mp behind⟩

theorem written_call (text : String) (plain : (called text).Plain) :
    WrittenBefore behind (Utf8.encode (Condition.pseudoClass (called text)).text)
      (Means (.pseudoClass (called text))) := by
  obtain ⟨function, argument, lowered, loweredArgument, noParen, shape⟩ := called_cases text
  -- a function that is written for its lowercase parts is the same again
  have again (plain : Text.IsPlain function) (plainArgument : Text.IsPlain argument) :
      WrittenBefore behind (Utf8.encode (":" ++ (function ++ "(" ++ argument ++ ")")))
        (Means (.pseudoClass (called text))) := by
    have written : WrittenBefore behind _ _ := .call (.called plain plainArgument)
    rw [called_of_plain plain plainArgument, lowered, loweredArgument, ← shape] at written
    exact written.imp fun _ => .of_simple
  rw [shape] at plain again ⊢
  split at plain
  · next lang =>
    subst lang
    rw [if_pos rfl] at again ⊢
    cases plain with
    | lang plain => exact again (by decide) plain
  · next other =>
    rw [if_neg other] at again ⊢
    cases plain with
    | other plain =>
      have noParen := plain.not_mem (show Text.isPlainChar '(' = false by decide)
      exact absurd (by simp) noParen
    | call plain plainArgument same =>
      obtain ⟨rfl, rfl⟩ := call_inj noParen (plain.not_mem (by decide)) same
      exact again plain plainArgument

theorem pseudo_fst (condition : Condition) : (pseudo condition).1 = condition :=
  rfl

/-- The text of each kind of condition, in front of bytes that cannot prolong it, is read back as a
derivation of that condition. -/
theorem written_simple {tokens : List Token} {condition : Weighted}
    (simple : Simple tokens condition) (alone : ∀ token ∈ tokens, token.Alone)
    (plain : condition.1.Plain) (cut : Cut behind) :
    WrittenBefore behind (Utf8.encode condition.1.text) (Means condition.1) := by
  cases simple with
  | id =>
    cases plain with
    | equal _ plain => exact written_hash plain cut
  | cls =>
    cases plain with
    | listed _ plain => exact written_dot plain cut
  | attr opens bracketed closes =>
    cases bracketed with
    | present =>
      cases plain with
      | present plain => exact written_present plain plain.lowercase_lowercase
    | @compared before after sign gap last word operand comparison value =>
      have names : Text.IsPlain (Text.lowercase word.identifier) ∧ Text.IsPlain value := by
        cases comparison with
        | equal => cases plain with | equal plain plainValue => exact ⟨plain, plainValue⟩
        | listed => cases plain with | listed plain plainValue => exact ⟨plain, plainValue⟩
        | hyphened => cases plain with | hyphened plain plainValue => exact ⟨plain, plainValue⟩
      exact written_comparison names.1 names.2 names.1.lowercase_lowercase cut
  | @name mark word colon ident =>
    rw [pseudo_fst] at plain ⊢
    exact written_pseudoName false (Ascii.lower word.text) (Text.lower_lower _) plain
      (fun _ _ _ => Token.lower_text_ne_of_ident (alone word (by simp)) ident) cut
  | @doubleName mark second word =>
    rw [pseudo_fst] at plain ⊢
    exact written_pseudoName true (Ascii.lower word.text) (Text.lower_lower _) plain
      (fun same => by cases same) cut
  | @call mark word =>
    rw [pseudo_fst] at plain ⊢
    exact written_call word.text plain.of_pseudoClass

/-- What is written for a condition begins with a mark, which goes on with no name. -/
theorem Means.cut {source : List UInt8} {condition : Condition}
    (written : WrittenBefore behind source (Means condition)) : Cut (source ++ behind) := by
  obtain ⟨token, rest, length, ⟨weight, simple⟩, front⟩ :=
    written.first (by rintro ⟨_, simple⟩; cases simple)
  obtain ⟨-, first, more, shape, mark⟩ :=
    Simples.front (.cons simple .nil) (by rw [List.append_nil]; exact List.cons_ne_nil _ _)
  rw [List.append_nil] at shape
  cases shape
  exact cut_of_scan front mark

end

end Selector

end StyleCascade
