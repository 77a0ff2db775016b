import StyleCascade.Sheet.Cascade

namespace StyleCascade

/-- Two trees agree on some elements, and no step up or to the left leaves these. -/
structure Tree.AgreeOn {ν : Type} (inside : ν → Prop) (one other : Tree ν) : Prop where
  tag : ∀ {element}, inside element → other.tag element = one.tag element
  attr? : ∀ {element}, inside element → ∀ key, other.attr? element key = one.attr? element key
  ancestors : ∀ {element}, inside element → other.ancestors element = one.ancestors element
  ancestors_inside : ∀ {element}, inside element → ∀ above ∈ one.ancestors element, inside above
  previous? : ∀ {element}, inside element → other.previous? element = one.previous? element
  previous_inside : ∀ {element before}, inside element → one.previous? element = some before →
    inside before
  isFirst : ∀ {element}, inside element → other.isFirst element = one.isFirst element
  language? : ∀ {element}, inside element → other.language? element = one.language? element
  state : ∀ {element}, inside element → other.state element = one.state element

/-- A tree copies some elements of another one, each at its own place, and no step up or to the left
leaves the elements that it copies. -/
structure Tree.Copies {ν μ : Type} (place : ν → μ) (inside : ν → Prop) (one : Tree ν)
    (other : Tree μ) : Prop where
  tag : ∀ {element}, inside element → other.tag (place element) = one.tag element
  attr? : ∀ {element}, inside element → ∀ key,
    other.attr? (place element) key = one.attr? element key
  ancestors : ∀ {element}, inside element →
    other.ancestors (place element) = (one.ancestors element).map place
  ancestors_inside : ∀ {element}, inside element → ∀ above ∈ one.ancestors element, inside above
  previous? : ∀ {element}, inside element →
    other.previous? (place element) = (one.previous? element).map place
  previous_inside : ∀ {element before}, inside element → one.previous? element = some before →
    inside before
  isFirst : ∀ {element}, inside element → other.isFirst (place element) = one.isFirst element
  language? : ∀ {element}, inside element → other.language? (place element) = one.language? element
  state : ∀ {element}, inside element → other.state (place element) = one.state element

section Copies

variable {ν μ : Type} {place : ν → μ} {inside : ν → Prop} {one : Tree ν} {other : Tree μ}
  {mode : MatchMode}

/-- A pseudo class looks at the state of the element, at its place and at its language, all of which
the copy has. -/
theorem PseudoClass.holds_of_copies (copies : one.Copies place inside other) (cls : PseudoClass)
    {element : ν} (here : inside element) :
    cls.holds other (place element) = cls.holds one element := by
  cases cls <;>
    simp only [holds, copies.state here, copies.isFirst here, copies.language? here]

/-- So a condition holds of the copy exactly when it holds of the original. -/
theorem Condition.holds_of_copies (copies : one.Copies place inside other) (condition : Condition)
    {element : ν} (here : inside element) :
    condition.holds mode other (place element) = condition.holds mode one element := by
  cases condition <;>
    simp only [holds, copies.tag here, copies.attr? here, PseudoClass.holds_of_copies copies _ here]

theorem Compound.holds_of_copies (copies : one.Copies place inside other) (compound : Compound)
    {element : ν} (here : inside element) :
    compound.holds mode other (place element) = compound.holds mode one element := by
  unfold holds
  congr 1
  funext condition
  exact Condition.holds_of_copies copies condition here

/-- From a copy, a combinator leads to the copies of what it leads to. -/
theorem Combinator.targets_of_copies (copies : one.Copies place inside other)
    (combinator : Combinator) {element : ν} (here : inside element) :
    combinator.targets other (place element) = (combinator.targets one element).map place := by
  cases combinator <;>
    simp only [targets, Tree.parent?, copies.ancestors here, copies.previous? here, List.head?_map,
      Option.toList_map]

/-- Whichever way a combinator leads, it does not leave a part of the tree that is closed under
parents and siblings. -/
theorem Combinator.targets_inside (copies : one.Copies place inside other) (combinator : Combinator)
    {element target : ν} (here : inside element)
    (member : target ∈ combinator.targets one element) :
    inside target := by
  cases combinator with
  | descendant => exact copies.ancestors_inside here target member
  | child =>
    exact copies.ancestors_inside here target
      (List.mem_of_head? (Option.mem_toList.mp member))
  | adjacent => exact copies.previous_inside here (Option.mem_toList.mp member)

/-- The induction over the links: each leads to a target inside, and from there on. -/
theorem linksHold_of_copies (copies : one.Copies place inside other)
    (links : List (Combinator × Compound)) {element : ν} (here : inside element) :
    linksHold mode other links (place element) = linksHold mode one links element := by
  induction links generalizing element with
  | nil => rfl
  | cons link links ih =>
    obtain ⟨combinator, compound⟩ := link
    rw [linksHold, linksHold, combinator.targets_of_copies copies here, List.any_map,
      Bool.eq_iff_iff, List.any_eq_true, List.any_eq_true]
    refine exists_congr fun target => and_congr_right fun member => ?_
    have there := combinator.targets_inside copies here member
    rw [Function.comp_apply, compound.holds_of_copies copies there, ih there]

/-- A copy of an element meets the selectors that the element meets. -/
theorem Selector.holds_of_copies (copies : one.Copies place inside other) (selector : Selector)
    {element : ν} (here : inside element) :
    selector.holds mode other (place element) = selector.holds mode one element := by
  rw [holds, holds, Compound.holds_of_copies copies _ here, linksHold_of_copies copies _ here]

end Copies

section Agreement

variable {ν : Type} {inside : ν → Prop} {one other : Tree ν} {mode : MatchMode}

/-- Where trees agree, each copies the other in place. -/
theorem Tree.AgreeOn.copies (agree : one.AgreeOn inside other) : one.Copies id inside other where
  tag here := agree.tag here
  attr? here := agree.attr? here
  ancestors here := by rw [id_eq, agree.ancestors here, List.map_id]
  ancestors_inside here := agree.ancestors_inside here
  previous? here := by rw [id_eq, agree.previous? here, Option.map_id_apply]
  previous_inside here := agree.previous_inside here
  isFirst here := agree.isFirst here
  language? here := agree.language? here
  state here := agree.state here

/-- Two trees that agree on a part that no combinator leaves match alike in it. -/
theorem Selector.holds_of_agree (agree : one.AgreeOn inside other) (selector : Selector)
    {element : ν} (here : inside element) :
    selector.holds mode other element = selector.holds mode one element :=
  holds_of_copies agree.copies selector here

/-- Where trees agree, the cascade comes to the same sets. -/
theorem Cascade.apply_of_agree (agree : one.AgreeOn inside other) (store : Store)
    {element : ν} (here : inside element) (inline : Option InlineStyle) :
    apply store mode other element inline = apply store mode one element inline := by
  have same : matched store mode other element = matched store mode one element := by
    unfold matched
    rw [agree.tag here]
    congr 1
    funext rule
    exact rule.selector.holds_of_agree agree here
  rw [apply, apply, same]

end Agreement

end StyleCascade
