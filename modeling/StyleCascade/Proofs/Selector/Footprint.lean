import StyleCascade.Proofs.Document.Agreement
import StyleCascade.Proofs.Document.Preorder

namespace StyleCascade

namespace Document

variable {doc changed : Document} {element node : Nat}

/-- An element stands somewhere before a node under the same parent. -/
def IsEarlierSibling (doc : Document) (node earlier : Nat) : Prop :=
  doc.isElement earlier = true ∧ earlier < node ∧
    ∃ parent, doc.parent? earlier = some parent ∧ doc.parent? node = some parent

/-- A node is an element, is above it, or is an element before one of these. -/
def Footprint (doc : Document) (element node : Nat) : Prop :=
  ∃ low, doc.Under element low ∧ (node = low ∨ doc.IsEarlierSibling low node)

/-- A node that reaches an element is in its footprint. -/
theorem Forest.footprint_of_mem_reach (forest : doc.Forest) (known : node < doc.size)
    (reached : element ∈ doc.reach node) : doc.Footprint element node := by
  obtain ⟨top, isTop, above⟩ := (forest.mem_reach_iff known).mp reached
  refine ⟨top, forest.under_iff.mpr above, ?_⟩
  rcases isTop with same | behind
  · exact Or.inl same.symm
  · obtain ⟨elementHere, _, less, rooted, siblings⟩ := forest.mem_followingSiblings_iff.mp behind
    obtain ⟨parent, under⟩ := Option.isSome_iff_exists.mp rooted
    exact Or.inr ⟨elementHere, less, parent, under, siblings.symm.trans under⟩

end Document

namespace Selector

open Document

variable {doc changed : Document} {element node : Nat}

/-- Where the footprint of the altered node does not reach, every selector holds as before. -/
theorem holds_of_alters (forest : doc.Forest) (alters : doc.Alters node changed)
    (outside : ¬doc.Footprint element node) (selector : Selector) (mode : MatchMode) :
    selector.holds mode changed.tree element = selector.holds mode doc.tree element := by
  have unreached : element ∉ doc.reach node := fun reached =>
    outside (forest.footprint_of_mem_reach alters.1 reached)
  exact holds_of_agree (alters.agreeOn forest).tree selector unreached

/-- Which selectors an element meets is up to its footprint: to the element, to what is above it, and
to the elements before one of these. An attribute or a state of any other node has no say in it. -/
theorem holds_outside_footprint (built : doc.Built) (outside : ¬doc.Footprint element node)
    (chain : List SelectorPart) (mode : MatchMode) :
    let selector := ofParts chain
    (∀ key value changed, doc.setAttribute? node key value = some changed →
      selector.holds mode changed.tree element = selector.holds mode doc.tree element) ∧
    ∀ state changed, doc.setState? node state = some changed →
      selector.holds mode changed.tree element = selector.holds mode doc.tree element := by
  intro selector
  constructor
  · intro key value changed set
    exact holds_of_alters built.forest (alters_setAttribute set) outside selector mode
  · intro state changed set
    exact holds_of_alters built.forest (alters_setState set) outside selector mode

/-- The second paragraph sees the class of the first one, and not that of what stands in it. -/
theorem holds_outside_footprint_nested :
    let doc := (((Document.empty.addElement none "body").addElement (some 0) "p").addElement
      (some 1) "em").addElement (some 0) "p"
    let chain : List SelectorPart := [.condition (.tag "p"), .combinator .adjacent,
      .condition (.listed "class" "lead")]
    let selector := ofParts chain
    doc.Built ∧ ¬doc.Footprint 3 2 ∧ doc.Footprint 3 1 ∧
      (doc.setAttribute? 1 "Class" "lead").map (fun changed =>
        (selector.holds .static doc.tree 3, selector.holds .static changed.tree 3)) =
          some (false, true) ∧
      (∀ key value changed, doc.setAttribute? 2 key value = some changed →
        selector.holds .static changed.tree 3 = selector.holds .static doc.tree 3) ∧
      ∀ state changed, doc.setState? 2 state = some changed →
        selector.holds .static changed.tree 3 = selector.holds .static doc.tree 3 := by
  intro doc chain selector
  have built : doc.Built := .addElement _ _ (.addElement _ _ (.addElement _ _
    (.addElement _ _ .empty)))
  have outside : ¬doc.Footprint 3 2 := by
    rintro ⟨low, below, inside⟩
    have ways : doc.ancestors 3 = [0] := by decide +kernel
    have above := built.forest.under_iff.mp below
    rw [ways] at above
    rcases List.mem_pair.mp above with rfl | rfl
    · rcases inside with same | ⟨_, _, parent, under, sibling⟩
      · cases same
      · rw [← under] at sibling
        exact absurd sibling (by decide +kernel)
    · rcases inside with same | ⟨_, less, _⟩
      · cases same
      · omega
  have before : doc.Footprint 3 1 := ⟨3, .refl, Or.inr ⟨rfl, by omega, 0, rfl, rfl⟩⟩
  exact ⟨built, outside, before, by decide +kernel,
    holds_outside_footprint built outside chain .static⟩

end Selector

end StyleCascade
