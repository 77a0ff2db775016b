import StyleCascade.Document

namespace StyleCascade

namespace Document

/-- The parent of a node, if that is an element. An element under a text has no parent here,
although it has a place among the elements under that text. -/
def parentElement? (doc : Document) (node : Nat) : Option Nat :=
  (doc.parent? node).filter doc.isElement

/-- The elements above a node, up to the first node that is none. -/
def elementAncestors (doc : Document) (node : Nat) : List Nat :=
  (doc.ancestors node).takeWhile doc.isElement

/-- The place of an element among the elements under its parent. -/
def siblingIndex? (doc : Document) (node : Nat) : Option Nat :=
  (doc.parent? node).bind (fun parent => (doc.elementChildren parent).idxOf? node)

/-- The element just before an element under the same element. -/
def previousElement? (doc : Document) (node : Nat) : Option Nat :=
  match doc.siblingIndex? node, doc.parentElement? node with
  | some (index + 1), some parent => (doc.elementChildren parent)[index]?
  | _, _ => none

/-- The language of a node: the nearest attribute `lang`, on the node or above. -/
def language? (doc : Document) (node : Nat) : Option String :=
  (node :: doc.ancestors node).findSome? (fun owner => doc.attr? owner "lang")

/-- The tree of the elements of a document. -/
def tree (doc : Document) : Tree Nat where
  tag node := (doc.tag? node).getD ""
  attr? := doc.attr?
  ancestors := doc.elementAncestors
  previous? := doc.previousElement?
  isFirst node := doc.siblingIndex? node = some 0
  language? := doc.language?
  state := doc.state

end Document

end StyleCascade
