import StyleCascade.Proofs.Document.Walk
import StyleCascade.Proofs.Lists
import StyleCascade.Proofs.Selector.Agreement

namespace StyleCascade

namespace Document

/-- Two documents agree on some nodes, and no step to a parent or to an earlier sibling leaves
these. -/
structure AgreeOn (inside : Nat → Prop) (one other : Document) : Prop where
  tag? : ∀ {node}, inside node → other.tag? node = one.tag? node
  attr? : ∀ {node}, inside node → ∀ key, other.attr? node key = one.attr? node key
  state : ∀ {node}, inside node → other.state node = one.state node
  parent? : ∀ {node}, inside node → other.parent? node = one.parent? node
  parent_inside : ∀ {node parent}, inside node → one.parent? node = some parent → inside parent
  siblingIndex? : ∀ {node}, inside node → other.siblingIndex? node = one.siblingIndex? node
  previousElement? : ∀ {node}, inside node →
    other.previousElement? node = one.previousElement? node
  previous_inside : ∀ {node before}, inside node → one.previousElement? node = some before →
    inside before

namespace AgreeOn

variable {inside : Nat → Prop} {one middle other : Document}

/-- Agreement goes on if the next change is seen on fewer nodes still. -/
theorem trans {wide : Nat → Prop} (first : one.AgreeOn inside middle)
    (second : middle.AgreeOn wide other) (wider : ∀ {node}, inside node → wide node) :
    one.AgreeOn inside other where
  tag? here := (second.tag? (wider here)).trans (first.tag? here)
  attr? here key := (second.attr? (wider here) key).trans (first.attr? here key)
  state here := (second.state (wider here)).trans (first.state here)
  parent? here := (second.parent? (wider here)).trans (first.parent? here)
  parent_inside here under := first.parent_inside here under
  siblingIndex? here := (second.siblingIndex? (wider here)).trans (first.siblingIndex? here)
  previousElement? here :=
    (second.previousElement? (wider here)).trans (first.previousElement? here)
  previous_inside here previous := first.previous_inside here previous

theorem isElement (agree : one.AgreeOn inside other) {node : Nat} (here : inside node) :
    other.isElement node = one.isElement node := by
  rw [Document.isElement, Document.isElement, agree.tag? here]

/-- Upwards, agreement goes on to the root. -/
theorem ancestors (agree : one.AgreeOn inside other) {node : Nat} (here : inside node) :
    other.ancestors node = one.ancestors node ∧ ∀ above ∈ one.ancestors node, inside above := by
  induction node using ancestors.induct one with
  | case1 node root =>
    rw [ancestors_of_root root, ancestors_of_root ((agree.parent? here).trans root)]
    exact ⟨rfl, by simp⟩
  | case2 node older under less ih =>
    obtain ⟨same, closed⟩ := ih (agree.parent_inside here under)
    have walk : one.ancestors node = older :: one.ancestors older := by
      rw [Document.ancestors]; simp [under, less]
    have otherWalk : other.ancestors node = older :: other.ancestors older := by
      rw [Document.ancestors]; simp [agree.parent? here, under, less]
    rw [walk, otherWalk, same]
    refine ⟨rfl, ?_⟩
    intro above member
    rcases List.mem_cons.mp member with rfl | higher
    · exact agree.parent_inside here under
    · exact closed above higher
  | case3 node older under late =>
    have walk : one.ancestors node = [] := by
      rw [Document.ancestors]; simp [under, late]
    have otherWalk : other.ancestors node = [] := by
      rw [Document.ancestors]; simp [agree.parent? here, under, late]
    rw [walk, otherWalk]
    exact ⟨rfl, by simp⟩

/-- Agreement of documents is agreement of the trees that selectors see. -/
theorem tree (agree : one.AgreeOn inside other) : one.tree.AgreeOn inside other.tree where
  tag here := by simp only [Document.tree, agree.tag? here]
  attr? here key := agree.attr? here key
  ancestors {element} here := by
    obtain ⟨same, closed⟩ := agree.ancestors here
    simp only [Document.tree, elementAncestors, same]
    exact takeWhile_of_agree fun above member => agree.isElement (closed above member)
  ancestors_inside here above member :=
    (agree.ancestors here).2 above ((List.takeWhile_sublist _).mem member)
  previous? here := agree.previousElement? here
  previous_inside here previous := agree.previous_inside here previous
  isFirst here := by simp only [Document.tree, agree.siblingIndex? here]
  language? {element} here := by
    obtain ⟨same, closed⟩ := agree.ancestors here
    simp only [Document.tree, language?, same]
    refine findSome?_of_agree fun owner member => agree.attr? ?_ "lang"
    rcases List.mem_cons.mp member with rfl | above
    · exact here
    · exact closed owner above
  state here := agree.state here

end AgreeOn

section Edits

variable {doc : Document}

/-- The nodes that a change of a node reaches: its subtree, and those of the siblings behind it. -/
def reach (doc : Document) (node : Nat) : List Nat :=
  (node :: doc.followingSiblings node).flatMap doc.subtree

theorem subtree_eq {node : Nat} (known : node < doc.size) :
    doc.subtree node = doc.subtreeFrom node :=
  if_pos (contains_iff.mpr known)

/-- A node is in reach of another when it lies below that one or below one of its later siblings. -/
theorem Forest.mem_reach_iff (forest : doc.Forest) {node low : Nat} (known : node < doc.size) :
    low ∈ doc.reach node ↔
      ∃ top, (top = node ∨ top ∈ doc.followingSiblings node) ∧ top ∈ low :: doc.ancestors low := by
  rw [reach, List.mem_flatMap]
  refine exists_congr fun top => ?_
  rw [List.mem_cons]
  refine and_congr_right fun isTop => ?_
  have topKnown : top < doc.size := by
    rcases isTop with rfl | behind
    · exact known
    · exact lt_size_of_isElement (forest.mem_followingSiblings_iff.mp behind).2.1
  rw [subtree_eq topKnown, forest.mem_subtreeFrom_iff]

theorem Forest.mem_reach_self (forest : doc.Forest) {node : Nat} (known : node < doc.size) :
    node ∈ doc.reach node :=
  (forest.mem_reach_iff known).mpr ⟨node, Or.inl rfl, List.mem_cons_self⟩

/-- A reach goes forward only. -/
theorem Forest.not_mem_reach_of_lt (forest : doc.Forest) {node low : Nat} (known : node < doc.size)
    (less : low < node) : low ∉ doc.reach node := by
  intro member
  obtain ⟨top, isTop, above⟩ := (forest.mem_reach_iff known).mp member
  have forward : node ≤ top := by
    rcases isTop with rfl | behind
    · exact Nat.le_refl _
    · have younger := (forest.mem_followingSiblings_iff.mp behind).2.2.1
      omega
  rcases List.mem_cons.mp above with same | above
  · omega
  · have upwards := forest.lt_of_mem_ancestors above
    omega

/-- Nothing outside a reach has its parent inside. -/
theorem Forest.parent_not_mem_reach (forest : doc.Forest) {node low parent : Nat}
    (known : node < doc.size) (outside : low ∉ doc.reach node)
    (under : doc.parent? low = some parent) : parent ∉ doc.reach node := by
  intro member
  obtain ⟨top, isTop, above⟩ := (forest.mem_reach_iff known).mp member
  refine outside ((forest.mem_reach_iff known).mpr ⟨top, isTop, List.mem_cons_of_mem _ ?_⟩)
  rw [forest.ancestors_of_parent? under]
  exact above

/-- Nothing outside a reach has the element before it inside. -/
theorem Forest.previous_not_mem_reach (forest : doc.Forest) {node low before : Nat}
    (known : node < doc.size) (outside : low ∉ doc.reach node)
    (previous : doc.previousElement? low = some before) : before ∉ doc.reach node := by
  intro member
  obtain ⟨order, siblings, hasParent, beforeElement, lowElement⟩ :=
    forest.previousElement?_older previous
  obtain ⟨top, isTop, above⟩ := (forest.mem_reach_iff known).mp member
  rcases List.mem_cons.mp above with same | above
  · -- The element before is a top of the reach, so this one is a further sibling.
    subst same
    refine outside ((forest.mem_reach_iff known).mpr ⟨low, Or.inr ?_, List.mem_cons_self⟩)
    rcases isTop with same | behind
    · subst same
      exact forest.mem_followingSiblings_iff.mpr
        ⟨beforeElement, lowElement, order, siblings ▸ hasParent, siblings⟩
    · obtain ⟨element, _, younger, rooted, under⟩ := forest.mem_followingSiblings_iff.mp behind
      exact forest.mem_followingSiblings_iff.mpr
        ⟨element, lowElement, by omega, rooted, under.trans siblings⟩
  · refine outside ((forest.mem_reach_iff known).mpr ⟨top, isTop, List.mem_cons_of_mem _ ?_⟩)
    obtain ⟨parent, under⟩ := Option.isSome_iff_exists.mp hasParent
    rw [forest.ancestors_of_parent? under]
    rwa [forest.ancestors_of_parent? (siblings.trans under)] at above

/-- Which children are elements is decided by the tree and by the tags, neither of which a change of
attributes or state touches. -/
theorem elementChildren_update {node : Nat} {change : Node → Node}
    (childrenKept : ∀ old, (change old).children = old.children)
    (tagKept : ∀ old, Content.tag? (change old).content = Content.tag? old.content) :
    (doc.update node change).elementChildren = doc.elementChildren := by
  funext other
  rw [elementChildren, elementChildren, children_update childrenKept, isElement_update tagKept]

/-- The same for the place among the siblings and for the sibling before it. -/
theorem siblingIndex?_update {node : Nat} {change : Node → Node}
    (parentKept : ∀ old, (change old).parent = old.parent)
    (childrenKept : ∀ old, (change old).children = old.children)
    (tagKept : ∀ old, Content.tag? (change old).content = Content.tag? old.content) (other : Nat) :
    (doc.update node change).siblingIndex? other = doc.siblingIndex? other ∧
      (doc.update node change).previousElement? other = doc.previousElement? other := by
  have lists : (doc.update node change).elementChildren = doc.elementChildren :=
    elementChildren_update childrenKept tagKept
  have index : (doc.update node change).siblingIndex? other = doc.siblingIndex? other := by
    rw [siblingIndex?, siblingIndex?, parent?_update parentKept, lists]
  refine ⟨index, ?_⟩
  rw [previousElement?, previousElement?, index, parentElement?, parentElement?,
    parent?_update parentKept, isElement_update tagKept, lists]

/-- A change of a node that leaves its place alone is not seen outside its reach. -/
theorem Forest.agreeOn_update (forest : doc.Forest) {node : Nat} {change : Node → Node}
    (known : node < doc.size)
    (parentKept : ∀ old, (change old).parent = old.parent)
    (childrenKept : ∀ old, (change old).children = old.children)
    (tagKept : ∀ old, Content.tag? (change old).content = Content.tag? old.content) :
    doc.AgreeOn (· ∉ doc.reach node) (doc.update node change) where
  tag? _ := tag?_update tagKept _
  attr? {other} outside key := by
    have apart : other ≠ node := fun same =>
      outside ((forest.mem_reach_iff known).mpr ⟨node, Or.inl rfl, same ▸ List.mem_cons_self⟩)
    rw [Document.attr?, get?_update, if_neg apart, Document.attr?]
  state {other} outside := by
    have apart : other ≠ node := fun same =>
      outside ((forest.mem_reach_iff known).mpr ⟨node, Or.inl rfl, same ▸ List.mem_cons_self⟩)
    rw [Document.state, get?_update, if_neg apart, Document.state]
  parent? _ := parent?_update parentKept _
  parent_inside outside under := forest.parent_not_mem_reach known outside under
  siblingIndex? _ := (siblingIndex?_update parentKept childrenKept tagKept _).1
  previousElement? _ := (siblingIndex?_update parentKept childrenKept tagKept _).2
  previous_inside outside previous := forest.previous_not_mem_reach known outside previous

/-- A new node can only come behind the other elements under its parent. -/
theorem Forest.elementChildren_push (forest : doc.Forest) (content : Content)
    {parent : Option Nat} (older : ∀ place, parent = some place → place < doc.size) {node : Nat}
    (known : node < doc.size) :
    ∃ added, (doc.push content parent).elementChildren node = doc.elementChildren node ++ added ∧
      ∀ place ∈ added, place = doc.size := by
  refine ⟨(if parent = some node then [doc.size] else []).filter
    (doc.push content parent).isElement, ?_, ?_⟩
  · rw [elementChildren, children_push older known, List.filter_append]
    congr 1
    exact List.filter_congr fun child member =>
      isElement_push older (lt_size_of_parent? (forest.mem_children_iff.mp member))
  · intro place member
    have listed := (List.mem_filter.mp member).1
    split at listed
    · exact List.mem_singleton.mp listed
    · cases listed

theorem idxOf?_append_of_ne {places added : List Nat} {place : Nat}
    (apart : ∀ other ∈ added, other ≠ place) :
    (places ++ added).idxOf? place = places.idxOf? place := by
  induction places with
  | nil =>
    rw [List.nil_append, List.idxOf?_nil, List.idxOf?_eq_none_iff]
    exact fun member => apart place member rfl
  | cons first rest ih => rw [List.cons_append, List.idxOf?_cons, List.idxOf?_cons, ih]

/-- No node sees that a new one was added behind it. -/
theorem Forest.agreeOn_push (forest : doc.Forest) {content : Content} {parent : Option Nat}
    (older : ∀ place, parent = some place → place < doc.size) :
    doc.AgreeOn (· < doc.size) (doc.push content parent) := by
  have parents : ∀ {node}, node < doc.size →
      (doc.push content parent).parent? node = doc.parent? node := by
    intro node known
    rw [parent?_push older, if_neg (Nat.ne_of_lt known)]
  have parentKnown : ∀ {node place}, doc.parent? node = some place → place < doc.size :=
    fun under => Nat.lt_trans (forest.parent_lt under) (lt_size_of_parent? under)
  have index : ∀ {node}, node < doc.size →
      (doc.push content parent).siblingIndex? node = doc.siblingIndex? node := by
    intro node known
    rw [siblingIndex?, siblingIndex?, parents known]
    cases under : doc.parent? node with
    | none => rfl
    | some place =>
      obtain ⟨added, lists, only⟩ := forest.elementChildren_push content older (parentKnown under)
      rw [Option.bind_some, Option.bind_some, lists]
      exact idxOf?_append_of_ne fun other member => by rw [only other member]; omega
  exact {
    tag? := fun known => tag?_push older known
    attr? := fun known key => by rw [Document.attr?, content_push older known, Document.attr?]
    state := fun {node} known => by
      rw [Document.state, get?_push older, if_neg (Nat.ne_of_lt known), Document.state]
      by_cases under : parent = some node
      · rw [if_pos under]
        cases doc.get? node <;> rfl
      · rw [if_neg under]
    parent? := parents
    parent_inside := fun _ under => parentKnown under
    siblingIndex? := index
    previousElement? := fun {node} known => by
      have above : (doc.push content parent).parentElement? node = doc.parentElement? node := by
        rw [parentElement?, parentElement?, parents known]
        cases under : doc.parent? node with
        | none => rfl
        | some place =>
          rw [Option.filter_some, Option.filter_some, isElement_push older (parentKnown under)]
      rw [previousElement?, previousElement?, index known, above]
      split
      · next place olderSibling atPlace isAbove =>
        have under := (Option.filter_eq_some_iff.mp isAbove).1
        obtain ⟨added, lists, _⟩ := forest.elementChildren_push content older (parentKnown under)
        rw [siblingIndex?, under, Option.bind_some, List.idxOf?_eq_some_iff] at atPlace
        obtain ⟨bound, _⟩ := atPlace
        rw [lists, List.getElem?_append_left (by omega)]
      · rfl
    previous_inside := fun known previous =>
      Nat.lt_trans (forest.previousElement?_older previous).1 known }

/-- On the nodes that were there, a document with one more text agrees with the old one. -/
theorem Forest.agreeOn_addText (forest : doc.Forest) {parent : Nat} {text : String}
    {grown : Document} (run : doc.addText? parent text = some grown) :
    grown.size = doc.size + 1 ∧ doc.AgreeOn (· < doc.size) grown := by
  obtain ⟨known, same⟩ := Option.ite_none_right_eq_some.mp run
  cases Option.some.inj same
  refine ⟨size_push _ _, forest.agreeOn_push ?_⟩
  rintro place ⟨⟩
  exact contains_iff.mp known

/-- A change of a node that leaves its place alone does not move reaches. -/
theorem reach_update {node : Nat} {change : Node → Node}
    (parentKept : ∀ old, (change old).parent = old.parent)
    (childrenKept : ∀ old, (change old).children = old.children)
    (tagKept : ∀ old, Content.tag? (change old).content = Content.tag? old.content) (other : Nat) :
    (doc.update node change).reach other = doc.reach other := by
  have walks (top : Nat) : (doc.update node change).subtreeFrom top = doc.subtreeFrom top := by
    induction top using subtreeFrom.induct doc with
    | _ top ih =>
      rw [subtreeFrom, subtreeFrom, children_update childrenKept, size_update]
      refine congrArg (top :: ·) (List.flatMap_congr fun child _ => ?_)
      split
      · next younger => exact ih child younger
      · rfl
  have subtrees : (doc.update node change).subtree = doc.subtree := by
    funext top
    rw [subtree, subtree, contains, contains, size_update, walks]
  have siblings : (doc.update node change).followingSiblings other = doc.followingSiblings other := by
    simp only [followingSiblings, parent?_update parentKept,
      elementChildren_update childrenKept tagKept]
  rw [reach, reach, siblings, subtrees]

/-- A document in which one node has other attributes or another state. -/
def Alters (doc : Document) (node : Nat) (changed : Document) : Prop :=
  node < doc.size ∧ ∃ change : Node → Node, (∀ old, (change old).parent = old.parent) ∧
    (∀ old, (change old).children = old.children) ∧
    (∀ old, Content.tag? (change old).content = Content.tag? old.content) ∧
    changed = doc.update node change

variable {changed : Document} {node : Nat}

theorem alters_setAttribute {key value : String}
    (run : doc.setAttribute? node key value = some changed) : doc.Alters node changed := by
  obtain ⟨known, same⟩ := Option.ite_none_right_eq_some.mp run
  exact ⟨contains_iff.mp known,
    fun old => { old with content := Content.setAttribute (Ascii.lower key) value old.content },
    fun _ => rfl, fun _ => rfl, fun old => Content.tag?_setAttribute _ value old.content,
    (Option.some.inj same).symm⟩

theorem alters_setState {state : NodeState}
    (run : doc.setState? node state = some changed) : doc.Alters node changed := by
  obtain ⟨known, same⟩ := Option.ite_none_right_eq_some.mp run
  exact ⟨contains_iff.mp known, fun old => { old with state := state }, fun _ => rfl,
    fun _ => rfl, fun _ => rfl, (Option.some.inj same).symm⟩

theorem Alters.forest (alters : doc.Alters node changed) (forest : doc.Forest) :
    changed.Forest := by
  obtain ⟨_, change, parentKept, childrenKept, tagKept, rfl⟩ := alters
  exact forest.update parentKept childrenKept tagKept

theorem Alters.size (alters : doc.Alters node changed) : changed.size = doc.size := by
  obtain ⟨_, change, _, _, _, rfl⟩ := alters
  exact size_update node change

theorem Alters.reach (alters : doc.Alters node changed) (other : Nat) :
    changed.reach other = doc.reach other := by
  obtain ⟨_, change, parentKept, childrenKept, tagKept, rfl⟩ := alters
  exact reach_update parentKept childrenKept tagKept other

theorem Alters.agreeOn (alters : doc.Alters node changed) (forest : doc.Forest) :
    doc.AgreeOn (· ∉ doc.reach node) changed := by
  obtain ⟨known, change, parentKept, childrenKept, tagKept, rfl⟩ := alters
  exact forest.agreeOn_update known parentKept childrenKept tagKept

/-- Setting the state that a node has already changes nothing. -/
theorem setState?_same {state : NodeState} (run : doc.setState? node state = some changed)
    (same : doc.state node = state) : changed = doc := by
  obtain ⟨_, ran⟩ := Option.ite_none_right_eq_some.mp run
  cases Option.some.inj ran
  refine congrArg Document.mk (Array.ext_getElem? fun place => ?_)
  rw [Array.getElem?_modify]
  split
  · next here =>
    subst here
    cases found : doc.nodes[node]? with
    | none => rfl
    | some old =>
      have has : doc.state node = old.state := by
        rw [Document.state, get?, found, Option.elim_some]
      rw [Option.map_some, ← same, has]
  · rfl

end Edits

end Document

end StyleCascade
