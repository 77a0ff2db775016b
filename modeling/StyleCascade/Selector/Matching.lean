import StyleCascade.Selector.Basic
import StyleCascade.Selector.Tree
import StyleCascade.Text.Blank

namespace StyleCascade

/-- Which pseudo-classes can hold: none in static matching, which serves styling by structure alone.
-/
inductive MatchMode
  | static
  | dynamic
  deriving DecidableEq, Repr

/-- A value is `word` up to letter case, or goes on with a hyphen behind it. -/
def hyphenMatches (value word : String) : Bool :=
  let letters := value.toList.map Char.toLower
  let wanted := word.toList.map Char.toLower
  wanted.isPrefixOf letters &&
    match letters.drop wanted.length with
    | [] => true
    | c :: _ => c = '-'

/-- A word stands in a list of words, which white space separates. -/
def listContains (value word : String) : Bool :=
  (Text.runs Ascii.isSpace value.toList).contains word.toList

/-- An element meets a pseudo-class. -/
def PseudoClass.holds {ν : Type} (cls : PseudoClass) (tree : Tree ν) (element : ν) : Bool :=
  match cls with
  | .link => (tree.state element).link
  | .visited => (tree.state element).visited
  | .hover => (tree.state element).hover
  | .active => (tree.state element).active
  | .focus => (tree.state element).focus
  | .firstChild => tree.isFirst element
  | .lang language => (tree.language? element).any (hyphenMatches · language)
  | .other _ => false

/-- An element meets a condition. -/
def Condition.holds {ν : Type} (condition : Condition) (mode : MatchMode) (tree : Tree ν)
    (element : ν) : Bool :=
  match condition with
  | .universal => true
  | .tag name => tree.tag element = name
  | .present key => (tree.attr? element key).isSome
  | .equal key value => tree.attr? element key = some value
  | .listed key word => (tree.attr? element key).any (listContains · word)
  | .hyphened key value => (tree.attr? element key).any (hyphenMatches · value)
  | .pseudoClass cls => mode = .dynamic && cls.holds tree element
  | .pseudoElement _ => false

/-- An element meets all conditions of a compound. -/
def Compound.holds {ν : Type} (compound : Compound) (mode : MatchMode) (tree : Tree ν)
    (element : ν) : Bool :=
  compound.all (fun condition => condition.holds mode tree element)

/-- The elements that a combinator leads to. -/
def Combinator.targets {ν : Type} (combinator : Combinator) (tree : Tree ν) (element : ν) :
    List ν :=
  match combinator with
  | .descendant => tree.ancestors element
  | .child => (tree.parent? element).toList
  | .adjacent => (tree.previous? element).toList

/-- From an element, links lead through elements that meet their compounds. -/
def linksHold {ν : Type} (mode : MatchMode) (tree : Tree ν) :
    List (Combinator × Compound) → ν → Bool
  | [], _ => true
  | (combinator, compound) :: links, element =>
    (combinator.targets tree element).any (fun target =>
      compound.holds mode tree target && linksHold mode tree links target)

/-- An element meets a selector. -/
def Selector.holds {ν : Type} (selector : Selector) (mode : MatchMode) (tree : Tree ν)
    (element : ν) : Bool :=
  selector.subject.holds mode tree element && linksHold mode tree selector.links element

end StyleCascade
