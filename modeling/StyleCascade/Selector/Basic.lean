namespace StyleCascade

/-- How specific a selector is: identifiers count before classes, and classes before types. No count
is larger than the source of the selector is long. -/
structure Specificity where
  ids : Nat
  classes : Nat
  types : Nat
  deriving DecidableEq, Repr

namespace Specificity

/-- No condition counts. -/
def zero : Specificity :=
  ⟨0, 0, 0⟩

/-- Adds up, count by count. -/
def add (a b : Specificity) : Specificity :=
  ⟨a.ids + b.ids, a.classes + b.classes, a.types + b.types⟩

end Specificity

/-- A pseudo-class. -/
inductive PseudoClass
  | link
  | visited
  | hover
  | active
  | focus
  | firstChild
  | lang (language : String)
  /-- A pseudo-class without a meaning here; no element meets it. -/
  | other (name : String)
  deriving DecidableEq, Repr

/-- A pseudo-element. -/
inductive PseudoElement
  | before
  | after
  | firstLine
  | firstLetter
  | other (name : String)
  deriving DecidableEq, Repr

/-- A condition on a single element. An identifier is a condition on the attribute `id`, and a class
one on the words of the attribute `class`. -/
inductive Condition
  | universal
  /-- The lowercase name of the element. -/
  | tag (name : String)
  | present (key : String)
  | equal (key value : String)
  /-- A word of the attribute's value. -/
  | listed (key word : String)
  /-- The attribute's value, or its part in front of a hyphen. -/
  | hyphened (key value : String)
  | pseudoClass (cls : PseudoClass)
  | pseudoElement (element : PseudoElement)
  deriving DecidableEq, Repr

/-- Conditions that one element meets together. -/
abbrev Compound := List Condition

/-- The way from an element to another one. -/
inductive Combinator
  /-- To some ancestor. -/
  | descendant
  /-- To the parent. -/
  | child
  /-- To the sibling just before. -/
  | adjacent
  deriving DecidableEq, Repr

/-- A selector: the compound that the element itself meets, its subject, and a chain of links, each
with the way to go on to another element and the compound that this one meets. -/
structure Selector where
  subject : Compound
  links : List (Combinator × Compound)
  deriving DecidableEq, Repr

/-- An entry of a selector written as a flat list. -/
inductive SelectorPart
  | condition (condition : Condition)
  | combinator (combinator : Combinator)
  deriving DecidableEq, Repr

namespace Selector

/-- The element name that the subject asks for, if it comes first. -/
def subjectTag? (selector : Selector) : Option String :=
  match selector.subject with
  | .tag name :: _ => some name
  | _ => none

/-- The selector of a flat list, which its combinators split. -/
def ofParts : List SelectorPart → Selector
  | [] => ⟨[], []⟩
  | .condition condition :: rest =>
    let selector := ofParts rest
    ⟨condition :: selector.subject, selector.links⟩
  | .combinator combinator :: rest =>
    let selector := ofParts rest
    ⟨[], (combinator, selector.subject) :: selector.links⟩

/-- The flat list of a selector. -/
def parts (selector : Selector) : List SelectorPart :=
  selector.subject.map .condition ++
    selector.links.flatMap (fun (combinator, compound) =>
      .combinator combinator :: compound.map .condition)

/-- Puts a compound in front: the old subject is what `combinator` leads to. -/
def extend (selector : Selector) (combinator : Combinator) (compound : Compound) : Selector :=
  ⟨compound, (combinator, selector.subject) :: selector.links⟩

theorem ofParts_conditions_append (compound : Compound) (rest : List SelectorPart) :
    ofParts (compound.map .condition ++ rest) =
      ⟨compound ++ (ofParts rest).subject, (ofParts rest).links⟩ := by
  induction compound with
  | nil => rfl
  | cons condition more ih =>
    rw [List.map_cons, List.cons_append, ofParts, ih]
    rfl

/-- A selector and its flat list tell the same. -/
theorem ofParts_parts (selector : Selector) : ofParts selector.parts = selector := by
  obtain ⟨subject, links⟩ := selector
  have tail : ofParts (links.flatMap (fun (combinator, compound) =>
      SelectorPart.combinator combinator :: compound.map .condition)) = ⟨[], links⟩ := by
    induction links with
    | nil => rfl
    | cons link more ih =>
      rw [List.flatMap_cons, List.cons_append, ofParts, ofParts_conditions_append, ih]
      simp
  rw [parts, ofParts_conditions_append, tail]
  simp

end Selector

end StyleCascade
