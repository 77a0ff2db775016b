import Mathlib.Data.List.Basic
import StyleCascade.Proofs.Document.Forest

namespace StyleCascade

namespace Document

variable {doc : Document}

theorem ancestors_of_root {node : Nat} (root : doc.parent? node = none) :
    doc.ancestors node = [] := by
  rw [ancestors]
  split
  · rfl
  · next older under => rw [root] at under; cases under

/-- In a list that rises, what stands behind an entry is what is greater. -/
theorem mem_behind_iff {places : List Nat} (sorted : places.Pairwise (· < ·)) {place other : Nat} :
    other ∈ (places.dropWhile (· ≠ place)).drop 1 ↔
      place ∈ places ∧ other ∈ places ∧ place < other := by
  induction places with
  | nil => simp
  | cons first rest ih =>
    obtain ⟨least, sortedRest⟩ := List.pairwise_cons.mp sorted
    by_cases here : first = place
    · subst here
      simp only [ne_eq, not_true_eq_false, decide_false, List.dropWhile_cons, Bool.false_eq_true,
        if_false, List.drop_succ_cons, List.drop_zero, List.mem_cons, true_or, true_and]
      constructor
      · intro member
        exact ⟨Or.inr member, least other member⟩
      · rintro ⟨same | member, greater⟩
        · omega
        · exact member
    · simp only [ne_eq, here, not_false_eq_true, decide_true, List.dropWhile_cons, if_true,
        ih sortedRest, List.mem_cons, Ne.symm here, false_or]
      constructor
      · rintro ⟨found, member, greater⟩
        exact ⟨found, Or.inr member, greater⟩
      · rintro ⟨found, same | member, greater⟩
        · have := least place found; omega
        · exact ⟨found, member, greater⟩

namespace Forest

theorem ancestors_of_parent? (forest : doc.Forest) {node parent : Nat}
    (under : doc.parent? node = some parent) :
    doc.ancestors node = parent :: doc.ancestors parent := by
  rw [ancestors]
  split
  · next root => rw [under] at root; cases root
  · next older found =>
    rw [under] at found
    cases found
    rw [if_pos (forest.parent_lt under)]

theorem lt_of_mem_ancestors (forest : doc.Forest) {node above : Nat}
    (member : above ∈ doc.ancestors node) : above < node := by
  induction node using Nat.strongRecOn with
  | _ node ih =>
    cases under : doc.parent? node with
    | none => rw [ancestors_of_root under] at member; cases member
    | some parent =>
      have older := forest.parent_lt under
      rw [forest.ancestors_of_parent? under] at member
      rcases List.mem_cons.mp member with same | higher
      · omega
      · have := ih parent older higher; omega

/-- Ancestry is transitive. -/
theorem mem_ancestors_trans (forest : doc.Forest) {low middle high : Nat}
    (first : middle ∈ doc.ancestors low) (second : high ∈ doc.ancestors middle) :
    high ∈ doc.ancestors low := by
  induction low using Nat.strongRecOn with
  | _ low ih =>
    cases under : doc.parent? low with
    | none => rw [ancestors_of_root under] at first; cases first
    | some parent =>
      rw [forest.ancestors_of_parent? under] at first ⊢
      rcases List.mem_cons.mp first with same | higher
      · exact List.mem_cons_of_mem _ (same ▸ second)
      · exact List.mem_cons_of_mem _ (ih parent (forest.parent_lt under) higher)

/-- Of two nodes above a third one, one is above the other. -/
theorem ancestors_chain (forest : doc.Forest) {node one other : Nat}
    (first : one ∈ node :: doc.ancestors node) (second : other ∈ node :: doc.ancestors node) :
    one = other ∨ one ∈ doc.ancestors other ∨ other ∈ doc.ancestors one := by
  induction node using Nat.strongRecOn with
  | _ node ih =>
    rcases List.mem_cons.mp first with rfl | first
    · rcases List.mem_cons.mp second with rfl | second
      · exact Or.inl rfl
      · exact Or.inr (Or.inr second)
    rcases List.mem_cons.mp second with rfl | second
    · exact Or.inr (Or.inl first)
    cases under : doc.parent? node with
    | none => rw [ancestors_of_root under] at first; cases first
    | some parent =>
      rw [forest.ancestors_of_parent? under] at first second
      exact ih parent (forest.parent_lt under) first second

/-- Two siblings have no node below both of them. -/
theorem not_mem_ancestors_of_siblings (forest : doc.Forest) {one other : Nat}
    (siblings : doc.parent? one = doc.parent? other) : one ∉ doc.ancestors other := by
  intro member
  cases under : doc.parent? other with
  | none => rw [ancestors_of_root under] at member; cases member
  | some parent =>
    have older := forest.parent_lt (siblings.trans under)
    rw [forest.ancestors_of_parent? under] at member
    rcases List.mem_cons.mp member with same | higher
    · omega
    · have := forest.lt_of_mem_ancestors higher; omega

theorem subtreeFrom_eq (forest : doc.Forest) (node : Nat) :
    doc.subtreeFrom node = node :: (doc.children node).flatMap doc.subtreeFrom := by
  rw [subtreeFrom]
  refine congrArg (node :: ·) (List.flatMap_congr ?_)
  intro child member
  have under := forest.mem_children_iff.mp member
  rw [dif_pos ⟨forest.parent_lt under, lt_size_of_parent? under⟩]

theorem mem_ancestors_of_mem_subtreeFrom (forest : doc.Forest) {node low : Nat}
    (member : low ∈ doc.subtreeFrom node) : node ∈ low :: doc.ancestors low := by
  induction node using subtreeFrom.induct doc with
  | _ node ih =>
    rw [forest.subtreeFrom_eq] at member
    rcases List.mem_cons.mp member with same | below
    · exact same ▸ List.mem_cons_self
    obtain ⟨child, isChild, lowMember⟩ := List.mem_flatMap.mp below
    have under := forest.mem_children_iff.mp isChild
    have nodeAbove : node ∈ doc.ancestors child := by
      rw [forest.ancestors_of_parent? under]; exact List.mem_cons_self
    rcases List.mem_cons.mp
      (ih child ⟨forest.parent_lt under, lt_size_of_parent? under⟩ lowMember) with same | above
    · exact List.mem_cons_of_mem _ (same ▸ nodeAbove)
    · exact List.mem_cons_of_mem _ (forest.mem_ancestors_trans above nodeAbove)

/-- The walk below a node is closed under children. -/
theorem child_mem_subtreeFrom (forest : doc.Forest) {node parent child : Nat}
    (member : parent ∈ doc.subtreeFrom node) (under : doc.parent? child = some parent) :
    child ∈ doc.subtreeFrom node := by
  induction node using subtreeFrom.induct doc with
  | _ node ih =>
    rw [forest.subtreeFrom_eq] at member ⊢
    apply List.mem_cons_of_mem
    rcases List.mem_cons.mp member with same | below
    · subst same
      refine List.mem_flatMap.mpr ⟨child, forest.mem_children_iff.mpr under, ?_⟩
      rw [forest.subtreeFrom_eq]
      exact List.mem_cons_self
    · obtain ⟨between, isChild, parentMember⟩ := List.mem_flatMap.mp below
      have betweenUnder := forest.mem_children_iff.mp isChild
      exact List.mem_flatMap.mpr ⟨between, isChild,
        ih between ⟨forest.parent_lt betweenUnder, lt_size_of_parent? betweenUnder⟩ parentMember⟩

theorem mem_subtreeFrom_iff (forest : doc.Forest) {node low : Nat} :
    low ∈ doc.subtreeFrom node ↔ node ∈ low :: doc.ancestors low := by
  refine ⟨forest.mem_ancestors_of_mem_subtreeFrom, ?_⟩
  induction low using ancestors.induct doc with
  | case1 low root =>
    intro above
    rw [ancestors_of_root root, List.mem_singleton] at above
    rw [above, forest.subtreeFrom_eq]
    exact List.mem_cons_self
  | case2 low parent under _ ih =>
    intro above
    rw [forest.ancestors_of_parent? under] at above
    rcases List.mem_cons.mp above with same | above
    · rw [same, forest.subtreeFrom_eq]
      exact List.mem_cons_self
    · exact forest.child_mem_subtreeFrom (ih above) under
  | case3 low parent under late => exact absurd (forest.parent_lt under) late

/-- No node stands below two siblings. -/
theorem subtrees_apart (forest : doc.Forest) {one other low : Nat}
    (siblings : doc.parent? one = doc.parent? other) (apart : one ≠ other)
    (first : low ∈ doc.subtreeFrom one) : low ∉ doc.subtreeFrom other := by
  intro second
  rcases forest.ancestors_chain (forest.mem_subtreeFrom_iff.mp first)
      (forest.mem_subtreeFrom_iff.mp second) with same | above | below
  · exact apart same
  · exact forest.not_mem_ancestors_of_siblings siblings above
  · exact forest.not_mem_ancestors_of_siblings siblings.symm below

theorem elementChildren_sorted (forest : doc.Forest) (node : Nat) :
    (doc.elementChildren node).Pairwise (· < ·) :=
  (forest.children_sorted node).filter _

theorem mem_elementChildren_iff (forest : doc.Forest) {node child : Nat} :
    child ∈ doc.elementChildren node ↔ doc.parent? child = some node ∧ doc.isElement child = true := by
  rw [elementChildren, List.mem_filter, forest.mem_children_iff]

/-- The siblings behind an element are the younger elements under its parent. Behind a text there
are none. -/
theorem mem_followingSiblings_iff (forest : doc.Forest) {node other : Nat} :
    other ∈ doc.followingSiblings node ↔
      doc.isElement node = true ∧ doc.isElement other = true ∧ node < other ∧
        (doc.parent? node).isSome ∧ doc.parent? node = doc.parent? other := by
  unfold followingSiblings
  cases under : doc.parent? node with
  | none => simp
  | some parent =>
    rw [mem_behind_iff (forest.elementChildren_sorted parent), forest.mem_elementChildren_iff,
      forest.mem_elementChildren_iff]
    constructor
    · rintro ⟨⟨_, element⟩, ⟨otherUnder, otherElement⟩, younger⟩
      exact ⟨element, otherElement, younger, rfl, otherUnder.symm⟩
    · rintro ⟨element, otherElement, younger, _, otherUnder⟩
      exact ⟨⟨under, element⟩, ⟨otherUnder.symm, otherElement⟩, younger⟩

/-- The element before another one is older, under the same parent. -/
theorem previousElement?_older (forest : doc.Forest) {node before : Nat}
    (previous : doc.previousElement? node = some before) :
    before < node ∧ doc.parent? before = doc.parent? node ∧ (doc.parent? node).isSome ∧
      doc.isElement before = true ∧ doc.isElement node = true := by
  unfold previousElement? at previous
  split at previous
  · next index parent place above =>
    have under : doc.parent? node = some parent := (Option.filter_eq_some_iff.mp above).1
    rw [siblingIndex?, under, Option.bind_some, List.idxOf?_eq_some_iff] at place
    obtain ⟨bound, here, _⟩ := place
    have order := List.pairwise_iff_getElem.mp (forest.elementChildren_sorted parent) index
      (index + 1) (by omega) bound (Nat.lt_succ_self index)
    obtain ⟨beforeBound, beforeHere⟩ := List.getElem?_eq_some_iff.mp previous
    rw [beforeHere, here] at order
    have beforeFacts := forest.mem_elementChildren_iff.mp (beforeHere ▸ List.getElem_mem beforeBound)
    have nodeFacts := forest.mem_elementChildren_iff.mp (here ▸ List.getElem_mem bound)
    exact ⟨order, beforeFacts.1.trans under.symm, by simp [under], beforeFacts.2, nodeFacts.2⟩
  · cases previous

theorem followingSiblings_sorted (forest : doc.Forest) (node : Nat) :
    (node :: doc.followingSiblings node).Pairwise (· < ·) := by
  refine List.pairwise_cons.mpr ⟨fun other behind =>
    (forest.mem_followingSiblings_iff.mp behind).2.2.1, ?_⟩
  unfold followingSiblings
  split
  · exact .nil
  · next parent _ =>
    exact (forest.elementChildren_sorted parent).sublist
      ((List.drop_sublist _ _).trans (List.dropWhile_sublist _))

theorem lt_size_of_mem_subtree (forest : doc.Forest) {node low : Nat}
    (below : low ∈ doc.subtree node) : low < doc.size := by
  unfold subtree at below
  split at below
  · next known =>
    rcases List.mem_cons.mp (forest.mem_subtreeFrom_iff.mp below) with same | above
    · exact same ▸ contains_iff.mp known
    · cases under : doc.parent? low with
      | none => rw [ancestors_of_root under] at above; cases above
      | some parent => exact lt_size_of_parent? under
  · cases below

theorem mem_roots_iff {node : Nat} :
    node ∈ doc.roots ↔ node < doc.size ∧ doc.parent? node = none := by
  simp [roots]

/-- Every node is below a root. -/
theorem mem_subtrees_of_roots (forest : doc.Forest) {node : Nat} (known : node < doc.size) :
    node ∈ doc.roots.flatMap doc.subtree := by
  induction node using Nat.strongRecOn with
  | _ node ih =>
    cases under : doc.parent? node with
    | none =>
      refine List.mem_flatMap.mpr ⟨node, mem_roots_iff.mpr ⟨known, under⟩, ?_⟩
      rw [subtree, if_pos (contains_iff.mpr known), forest.subtreeFrom_eq]
      exact List.mem_cons_self
    | some parent =>
      have older := forest.parent_lt under
      obtain ⟨root, rootHere, below⟩ := List.mem_flatMap.mp (ih parent older (by omega))
      refine List.mem_flatMap.mpr ⟨root, rootHere, ?_⟩
      rw [subtree, if_pos (contains_iff.mpr (mem_roots_iff.mp rootHere).1)] at below ⊢
      exact forest.child_mem_subtreeFrom below under

end Forest

end Document

end StyleCascade
