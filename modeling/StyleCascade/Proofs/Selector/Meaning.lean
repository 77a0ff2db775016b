import Mathlib.Logic.Relation
import StyleCascade.Proofs.Document.Walk
import StyleCascade.Selector.Matching

namespace StyleCascade

namespace Document

/-- The parent of an element: its parent node, if that is an element. -/
def IsParent (doc : Document) (element parent : Nat) : Prop :=
  doc.parent? element = some parent ∧ doc.isElement parent = true

/-- An element stands just before another one among the elements under their parent. -/
def IsJustBefore (doc : Document) (element before : Nat) : Prop :=
  ∃ parent place, doc.IsParent element parent ∧
    (doc.elementChildren parent)[place]? = some before ∧
      (doc.elementChildren parent)[place + 1]? = some element

end Document

/-- How a combinator relates an element to the one it leads to. -/
def Combinator.Relates (combinator : Combinator) (doc : Document) : Nat → Nat → Prop :=
  match combinator with
  | .descendant => Relation.TransGen doc.IsParent
  | .child => doc.IsParent
  | .adjacent => doc.IsJustBefore

namespace Document

variable {doc : Document} {mode : MatchMode}

theorem parentElement?_eq_some_iff {element parent : Nat} :
    doc.parentElement? element = some parent ↔ doc.IsParent element parent :=
  Option.filter_eq_some_iff

namespace Forest

/-- The ancestors of an element are its parent and the ancestors of that. -/
theorem elementAncestors_of_isParent (forest : doc.Forest) {element parent : Nat}
    (above : doc.IsParent element parent) :
    doc.elementAncestors element = parent :: doc.elementAncestors parent := by
  rw [elementAncestors, forest.ancestors_of_parent? above.1, List.takeWhile_cons, if_pos above.2,
    elementAncestors]

theorem elementAncestors_of_top (forest : doc.Forest) {element : Nat}
    (top : ∀ parent, ¬doc.IsParent element parent) : doc.elementAncestors element = [] := by
  cases under : doc.parent? element with
  | none => rw [elementAncestors, ancestors_of_root under, List.takeWhile_nil]
  | some parent =>
    have text : ¬doc.isElement parent = true := fun elementHere => top parent ⟨under, elementHere⟩
    rw [elementAncestors, forest.ancestors_of_parent? under, List.takeWhile_cons, if_neg text]

/-- The elements above an element are those that lead up from parent to parent. -/
theorem mem_elementAncestors_iff (forest : doc.Forest) {element above : Nat} :
    above ∈ doc.elementAncestors element ↔ Relation.TransGen doc.IsParent element above := by
  induction element using Nat.strongRecOn with
  | _ element ih =>
    rw [Relation.TransGen.head'_iff]
    by_cases top : ∃ parent, doc.IsParent element parent
    · obtain ⟨parent, isParent⟩ := top
      have same : ∀ other, doc.IsParent element other → other = parent := by
        intro other isOther
        exact Option.some.inj (isOther.1.symm.trans isParent.1)
      rw [forest.elementAncestors_of_isParent isParent, List.mem_cons,
        ih parent (forest.parent_lt isParent.1)]
      constructor
      · rintro (rfl | higher)
        · exact ⟨above, isParent, .refl⟩
        · exact ⟨parent, isParent, higher.to_reflTransGen⟩
      · rintro ⟨other, isOther, way⟩
        rw [same other isOther] at way
        exact (Relation.reflTransGen_iff_eq_or_transGen.mp way)
    · have noneAbove : ∀ parent, ¬doc.IsParent element parent := not_exists.mp top
      rw [forest.elementAncestors_of_top noneAbove]
      constructor
      · intro nothing
        cases nothing
      · rintro ⟨parent, isParent, _⟩
        exact absurd isParent (noneAbove parent)

theorem head?_elementAncestors (forest : doc.Forest) {element parent : Nat} :
    (doc.elementAncestors element).head? = some parent ↔ doc.IsParent element parent := by
  constructor
  · intro first
    by_cases top : ∃ other, doc.IsParent element other
    · obtain ⟨other, isOther⟩ := top
      rw [forest.elementAncestors_of_isParent isOther] at first
      cases first
      exact isOther
    · rw [forest.elementAncestors_of_top (not_exists.mp top)] at first
      cases first
  · intro isParent
    rw [forest.elementAncestors_of_isParent isParent]
    rfl

theorem previousElement?_eq_some_iff (forest : doc.Forest) {element before : Nat} :
    doc.previousElement? element = some before ↔ doc.IsJustBefore element before := by
  constructor
  · intro previous
    unfold previousElement? at previous
    split at previous
    · next place parent found above =>
      have isParent := parentElement?_eq_some_iff.mp above
      rw [siblingIndex?, isParent.1, Option.bind_some, List.idxOf?_eq_some_iff] at found
      obtain ⟨bound, here, _⟩ := found
      exact ⟨parent, place, isParent, previous, List.getElem?_eq_some_iff.mpr ⟨bound, here⟩⟩
    · cases previous
  · rintro ⟨parent, place, isParent, isBefore, here⟩
    obtain ⟨bound, atPlace⟩ := List.getElem?_eq_some_iff.mp here
    have found : doc.siblingIndex? element = some (place + 1) := by
      rw [siblingIndex?, isParent.1, Option.bind_some, List.idxOf?_eq_some_iff]
      refine ⟨bound, atPlace, fun earlier less same => ?_⟩
      -- children are listed once, so no earlier place has the element
      have order := List.pairwise_iff_getElem.mp (forest.elementChildren_sorted parent) earlier
        (place + 1) (by omega) bound less
      rw [atPlace, same] at order
      omega
    rw [previousElement?, found, parentElement?_eq_some_iff.mpr isParent]
    exact isBefore

/-- A combinator leads to the elements that it relates to. -/
theorem mem_targets_iff (forest : doc.Forest) (combinator : Combinator) {element target : Nat} :
    target ∈ combinator.targets doc.tree element ↔ combinator.Relates doc element target := by
  cases combinator with
  | descendant => exact forest.mem_elementAncestors_iff
  | child => exact Option.mem_toList.trans forest.head?_elementAncestors
  | adjacent => exact Option.mem_toList.trans forest.previousElement?_eq_some_iff

end Forest

end Document

namespace Selector

variable {doc : Document} {mode : MatchMode}

/-- The compounds of a selector, the subject first. -/
def compounds (selector : Selector) : List Compound :=
  selector.subject :: selector.links.map Prod.snd

/-- The combinators between the compounds of a selector. -/
def combinators (selector : Selector) : List Combinator :=
  selector.links.map Prod.fst

/-- Splitting a flat list at its combinators loses nothing. -/
theorem parts_ofParts (chain : List SelectorPart) : (ofParts chain).parts = chain := by
  induction chain with
  | nil => rfl
  | cons first rest ih =>
    cases first with
    | condition condition =>
      have same := congrArg (SelectorPart.condition condition :: ·) ih
      exact same
    | combinator combinator =>
      have same := congrArg (SelectorPart.combinator combinator :: ·) ih
      exact same

/-- Elements for the compounds of a selector: each meets all conditions of its compound, and
combinators relate neighbours. -/
structure Placed (mode : MatchMode) (doc : Document) (selector : Selector) (place : Nat → Nat) :
    Prop where
  met : ∀ (i : Nat) (compound : Compound), selector.compounds[i]? = some compound →
    ∀ condition ∈ compound, Condition.holds condition mode doc.tree (place i) = true
  related : ∀ (i : Nat) (combinator : Combinator), selector.combinators[i]? = some combinator →
    combinator.Relates doc (place i) (place (i + 1))

/-- A compound holds when all its conditions do. -/
theorem holds_compound_iff {compound : Compound} {element : Nat} :
    compound.holds mode doc.tree element = true ↔
      ∀ condition ∈ compound, Condition.holds condition mode doc.tree element = true :=
  List.all_eq_true

theorem placed_subject_iff {subject : Compound} {place : Nat → Nat} :
    Placed mode doc ⟨subject, []⟩ place ↔ subject.holds mode doc.tree (place 0) = true := by
  rw [holds_compound_iff]
  constructor
  · intro placed
    exact placed.met 0 subject rfl
  · intro met
    refine ⟨?_, fun i combinator found => ?_⟩
    · rintro (_ | i) compound found
      · cases found
        exact met
      · cases found
    · cases found

/-- A placement of a chain is a placement of its first compound, one relation to the next node, and
a placement of the rest. -/
theorem placed_link_iff {subject compound : Compound} {combinator : Combinator}
    {links : List (Combinator × Compound)} {place : Nat → Nat} :
    Placed mode doc ⟨subject, (combinator, compound) :: links⟩ place ↔
      subject.holds mode doc.tree (place 0) = true ∧
        combinator.Relates doc (place 0) (place 1) ∧
          Placed mode doc ⟨compound, links⟩ (fun i => place (i + 1)) := by
  rw [holds_compound_iff]
  constructor
  · intro placed
    have rest : Placed mode doc ⟨compound, links⟩ (fun i => place (i + 1)) :=
      ⟨fun i => placed.met (i + 1), fun i => placed.related (i + 1)⟩
    exact ⟨placed.met 0 subject rfl, placed.related 0 combinator rfl, rest⟩
  · rintro ⟨met, related, rest⟩
    refine ⟨?_, ?_⟩
    · rintro (_ | i) other found
      · cases found
        exact met
      · exact rest.met i other found
    · rintro (_ | i) other found
      · cases found
        exact related
      · exact rest.related i other found

/-- The same step for the matcher, which tries the targets of the combinator one after another. -/
theorem holds_link_iff {ν : Type} {tree : Tree ν} {subject compound : Compound}
    {combinator : Combinator} {links : List (Combinator × Compound)} {element : ν} :
    Selector.holds ⟨subject, (combinator, compound) :: links⟩ mode tree element = true ↔
      subject.holds mode tree element = true ∧ ∃ target ∈ combinator.targets tree element,
        Selector.holds ⟨compound, links⟩ mode tree target = true := by
  simp only [holds, linksHold, Bool.and_eq_true, List.any_eq_true]

/-- An element meets a selector if and only if elements can be placed from it on. -/
theorem holds_iff_placed (forest : doc.Forest) (subject : Compound)
    (links : List (Combinator × Compound)) (element : Nat) :
    Selector.holds ⟨subject, links⟩ mode doc.tree element = true ↔
      ∃ place, place 0 = element ∧ Placed mode doc ⟨subject, links⟩ place := by
  induction links generalizing subject element with
  | nil =>
    have alone : Selector.holds ⟨subject, []⟩ mode doc.tree element =
        subject.holds mode doc.tree element := Bool.and_true _
    rw [alone]
    constructor
    · intro met
      exact ⟨fun _ => element, rfl, placed_subject_iff.mpr met⟩
    · rintro ⟨place, rfl, placed⟩
      exact placed_subject_iff.mp placed
  | cons link rest ih =>
    obtain ⟨combinator, compound⟩ := link
    rw [holds_link_iff]
    constructor
    · rintro ⟨met, target, led, restHolds⟩
      obtain ⟨place, rfl, placed⟩ := (ih compound target).mp restHolds
      have related := (forest.mem_targets_iff combinator).mp led
      -- the element comes first, and the others move up by one
      refine ⟨fun i => i.casesOn element place, rfl, placed_link_iff.mpr ⟨met, related, placed⟩⟩
    · rintro ⟨place, rfl, placed⟩
      obtain ⟨met, related, placedRest⟩ := placed_link_iff.mp placed
      exact ⟨met, place 1, (forest.mem_targets_iff combinator).mpr related,
        (ih compound (place 1)).mpr ⟨_, rfl, placedRest⟩⟩

/-- Matching is what selectors mean: a chain is split at its combinators without loss, and an
element meets it if and only if elements can be placed from it on, one for each compound, such that
each meets all conditions of its compound and each combinator relates its neighbours. -/
theorem holds_ofParts_iff {doc : Document} (built : doc.Built) (chain : List SelectorPart)
    (mode : MatchMode) (element : Nat) :
    let selector := ofParts chain
    selector.parts = chain ∧
      (selector.holds mode doc.tree element = true ↔
        ∃ place : Nat → Nat, place 0 = element ∧
          (∀ (i : Nat) (compound : Compound), selector.compounds[i]? = some compound →
            ∀ condition ∈ compound, condition.holds mode doc.tree (place i) = true) ∧
          ∀ (i : Nat) (combinator : Combinator), selector.combinators[i]? = some combinator →
            combinator.Relates doc (place i) (place (i + 1))) := by
  intro selector
  refine ⟨parts_ofParts chain, ?_⟩
  rw [holds_iff_placed built.forest selector.subject selector.links element]
  constructor
  · rintro ⟨place, start, placed⟩
    exact ⟨place, start, placed.met, placed.related⟩
  · rintro ⟨place, start, met, related⟩
    exact ⟨place, start, met, related⟩

/-- The nearest `div` above the paragraphs has the wrong parent, the one above it has the right
one. -/
theorem holds_ofParts_iff_nested :
    let chain : List SelectorPart := [.condition (.tag "p"), .combinator .adjacent,
      .condition (.tag "p"), .combinator .descendant, .condition (.tag "div"), .combinator .child,
      .condition (.tag "body")]
    let doc := (((((Document.empty.addElement none "body").addElement (some 0) "div").addElement
      (some 1) "div").addElement (some 2) "p").addElement (some 3) "em").addElement (some 2) "p"
    let selector := ofParts chain
    doc.Built ∧ selector.holds .dynamic doc.tree 5 = true ∧ selector.parts = chain ∧
      (selector.holds .dynamic doc.tree 5 = true ↔
        ∃ place : Nat → Nat, place 0 = 5 ∧
          (∀ (i : Nat) (compound : Compound), selector.compounds[i]? = some compound →
            ∀ condition ∈ compound, condition.holds .dynamic doc.tree (place i) = true) ∧
          ∀ (i : Nat) (combinator : Combinator), selector.combinators[i]? = some combinator →
            combinator.Relates doc (place i) (place (i + 1))) := by
  intro chain doc selector
  have built : doc.Built := .addElement _ _ (.addElement _ _ (.addElement _ _ (.addElement _ _
    (.addElement _ _ (.addElement _ _ .empty)))))
  exact ⟨built, by decide +kernel, holds_ofParts_iff built chain .dynamic 5⟩

end Selector

end StyleCascade
