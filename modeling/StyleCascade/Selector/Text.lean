import StyleCascade.Selector.Basic

namespace StyleCascade

/-- The name of a pseudo-class. -/
def PseudoClass.name : PseudoClass → String
  | .link => "link"
  | .visited => "visited"
  | .hover => "hover"
  | .active => "active"
  | .focus => "focus"
  | .firstChild => "first-child"
  | .lang language => "lang(" ++ language ++ ")"
  | .other name => name

/-- The name of a pseudo-element. -/
def PseudoElement.name : PseudoElement → String
  | .before => "before"
  | .after => "after"
  | .firstLine => "first-line"
  | .firstLetter => "first-letter"
  | .other name => name

/-- The text of a condition. -/
def Condition.text : Condition → String
  | .universal => "*"
  | .tag name => name
  | .present key => "[" ++ key ++ "]"
  | .equal key value =>
    if key = "id" then "#" ++ value else "[" ++ key ++ "=\"" ++ value ++ "\"]"
  | .listed key word =>
    if key = "class" then "." ++ word else "[" ++ key ++ "~=\"" ++ word ++ "\"]"
  | .hyphened key value => "[" ++ key ++ "|=\"" ++ value ++ "\"]"
  | .pseudoClass cls => ":" ++ cls.name
  | .pseudoElement element => "::" ++ element.name

/-- The text of a compound. An empty one is written like the one that every element meets. -/
def Compound.text (compound : Compound) : String :=
  if compound.isEmpty then "*" else String.join (compound.map Condition.text)

/-- The text between two compounds. -/
def Combinator.text : Combinator → String
  | .descendant => " "
  | .child => " > "
  | .adjacent => " + "

/-- The text of a selector. The subject comes last. -/
def Selector.text (selector : Selector) : String :=
  String.join (selector.links.reverse.map (fun (combinator, compound) =>
    Compound.text compound ++ combinator.text)) ++ Compound.text selector.subject

end StyleCascade
