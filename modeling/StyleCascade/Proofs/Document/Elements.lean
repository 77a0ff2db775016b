import Mathlib.Data.List.GetD
import Mathlib.Data.List.Nodup
import StyleCascade.Proofs.Document.Forest

namespace StyleCascade

namespace Document

/-- The elements of a document, in the order in which they were added. -/
def elements (doc : Document) : List Nat :=
  (List.range doc.size).filter doc.isElement

/-- The place of the element with a number. Numbers that no element has lead out of the document. -/
def elementAt (doc : Document) (number : Nat) : Nat :=
  doc.elements.getD number doc.size

variable {doc : Document} {number : Nat}

theorem mem_elements {node : Nat} : node ∈ doc.elements ↔ doc.isElement node = true := by
  rw [elements, List.mem_filter, List.mem_range]
  exact and_iff_right_of_imp lt_size_of_isElement

theorem elementAt_eq (known : number < doc.elements.length) :
    doc.elementAt number = doc.elements[number] :=
  List.getD_eq_getElem _ _ known

theorem elementAt_of_length_le (unknown : doc.elements.length ≤ number) :
    doc.elementAt number = doc.size :=
  List.getD_eq_default _ _ unknown

theorem isElement_elementAt (known : number < doc.elements.length) :
    doc.isElement (doc.elementAt number) = true := by
  rw [elementAt_eq known]
  exact mem_elements.mp (List.getElem_mem known)

theorem contains_elementAt :
    doc.contains (doc.elementAt number) = true ↔ number < doc.elements.length := by
  rw [contains_iff]
  by_cases known : number < doc.elements.length
  · exact iff_of_true (lt_size_of_isElement (isElement_elementAt known)) known
  · rw [elementAt_of_length_le (Nat.le_of_not_lt known)]
    exact iff_of_false (Nat.lt_irrefl _) known

/-- Elements with different numbers stand at different places. -/
theorem elementAt_inj {one other : Nat} (oneKnown : one < doc.elements.length)
    (otherKnown : other < doc.elements.length) :
    doc.elementAt one = doc.elementAt other ↔ one = other := by
  have once : doc.elements.Nodup := List.nodup_range.filter _
  rw [elementAt_eq oneKnown, elementAt_eq otherKnown]
  exact once.getElem_inj_iff

theorem map_elementAt : (List.range doc.elements.length).map doc.elementAt = doc.elements := by
  refine List.ext_getElem (by simp) fun number _ known => ?_
  rw [List.getElem_map, List.getElem_range, elementAt_eq known]

/-- A new element comes behind the others, and a text is none. -/
theorem elements_push {content : Content} {parent : Option Nat}
    (older : ∀ place, parent = some place → place < doc.size) :
    (doc.push content parent).elements =
      doc.elements ++ (if (Content.tag? content).isSome then [doc.size] else []) := by
  have new : (doc.push content parent).isElement doc.size = (Content.tag? content).isSome := by
    rw [isElement, tag?_eq, get?_push older, if_pos rfl]
    rfl
  have old : (List.range doc.size).filter (doc.push content parent).isElement = doc.elements :=
    List.filter_congr fun node listed => isElement_push older (List.mem_range.mp listed)
  rw [elements, size_push, List.range_succ, List.filter_append, List.filter_singleton, new, old]
  cases Content.tag? content <;> rfl

/-- A node added later does not renumber the elements before it. -/
theorem elementAt_push {content : Content} {parent : Option Nat}
    (older : ∀ place, parent = some place → place < doc.size)
    (known : number < doc.elements.length) :
    (doc.push content parent).elementAt number = doc.elementAt number := by
  rw [elementAt, elements_push older, List.getD_append _ _ _ _ known,
    List.getD_eq_getElem _ _ known, elementAt_eq known]

/-- An element that is added gets the next free number. -/
theorem elementAt_push_self {content : Content} {parent : Option Nat}
    (older : ∀ place, parent = some place → place < doc.size)
    (element : (Content.tag? content).isSome = true) :
    (doc.push content parent).elementAt doc.elements.length = doc.size := by
  rw [elementAt, elements_push older, if_pos element,
    List.getD_append_right _ _ _ _ (Nat.le_refl _), Nat.sub_self, List.getD_cons_zero]

theorem get?_push_self {content : Content} {parent : Option Nat}
    (older : ∀ place, parent = some place → place < doc.size) :
    (doc.push content parent).get? doc.size = some ⟨content, parent, [], .none⟩ := by
  rw [get?_push older, if_pos rfl]

/-- A change rewrites the content of the node it is made at and of no other. -/
theorem content_update {node : Nat} {change : Node → Node} {rewritten : Content → Content}
    (content : ∀ old, (change old).content = rewritten old.content) (other : Nat) :
    ((doc.update node change).get? other).map Node.content =
      if other = node then ((doc.get? other).map Node.content).map rewritten
      else (doc.get? other).map Node.content := by
  rw [get?_update]
  split
  · cases doc.get? other <;> simp [content]
  · rfl

/-- The same for the states, of a node that the document has. -/
theorem state_update {node : Nat} {change : Node → Node} {replaced : NodeState → NodeState}
    (state : ∀ old, (change old).state = replaced old.state) {other : Nat}
    (known : other < doc.size) :
    (doc.update node change).state other =
      if other = node then replaced (doc.state other) else doc.state other := by
  obtain ⟨old, atNode⟩ := get?_of_lt_size known
  rw [Document.state, Document.state, get?_update, atNode]
  split
  · exact state old
  · rfl

/-- The list of the elements depends on the tags alone. -/
theorem elements_update {node : Nat} {change : Node → Node}
    (tagKept : ∀ old, Content.tag? (change old).content = Content.tag? old.content) :
    (doc.update node change).elements = doc.elements := by
  rw [elements, elements, size_update, isElement_update tagKept]

theorem elementAt_update {node : Nat} {change : Node → Node}
    (tagKept : ∀ old, Content.tag? (change old).content = Content.tag? old.content) :
    (doc.update node change).elementAt = doc.elementAt := by
  funext number
  rw [elementAt, elementAt, elements_update tagKept, size_update]

end Document

end StyleCascade
