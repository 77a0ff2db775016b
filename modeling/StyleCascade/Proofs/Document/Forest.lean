import StyleCascade.Document.View

namespace StyleCascade

namespace Document

/-- The documents that adding nodes and changing them leads to. -/
inductive Built : Document → Prop
  | empty : Built .empty
  | addElement {doc} (parent : Option Nat) (tag : String) :
      Built doc → Built (doc.addElement parent tag)
  | addText {doc grown parent text} :
      Built doc → doc.addText? parent text = some grown → Built grown
  | setAttribute {doc changed node key value} :
      Built doc → doc.setAttribute? node key value = some changed → Built changed
  | setState {doc changed node state} :
      Built doc → doc.setState? node state = some changed → Built changed

/-- The name of an element. -/
def Content.tag? : Content → Option String
  | .element tag _ => some tag
  | .text _ => none

theorem Content.tag?_setAttribute (key value : String) (content : Content) :
    Content.tag? (Content.setAttribute key value content) = Content.tag? content := by
  cases content <;> rfl

/-- The shape of a document. -/
structure Forest (doc : Document) : Prop where
  parent_lt : ∀ {node parent}, doc.parent? node = some parent → parent < node
  children_eq : ∀ node,
    doc.children node = (List.range doc.size).filter (fun child => doc.parent? child = some node)
  isElement_of_root : ∀ {node}, node < doc.size → doc.parent? node = none →
    doc.isElement node = true

variable {doc : Document}

theorem lt_size_of_get? {node : Nat} {found : Node} (atNode : doc.get? node = some found) :
    node < doc.size :=
  (Array.getElem?_eq_some_iff.mp atNode).1

theorem get?_of_lt_size {node : Nat}
    (bound : node < doc.size) : ∃ found, doc.get? node = some found :=
  ⟨doc.nodes[node], Array.getElem?_eq_getElem bound⟩

theorem contains_iff {node : Nat} : doc.contains node = true ↔ node < doc.size := by
  simp [contains]

theorem lt_size_of_parent? {node parent : Nat} (under : doc.parent? node = some parent) :
    node < doc.size := by
  obtain ⟨found, atNode, _⟩ := Option.bind_eq_some_iff.mp under
  exact lt_size_of_get? atNode

theorem lt_size_of_isElement {node : Nat} (element : doc.isElement node = true) :
    node < doc.size := by
  cases atNode : doc.get? node with
  | none => simp [isElement, tag?, atNode] at element
  | some found => exact lt_size_of_get? atNode

section Changes

theorem size_update (node : Nat) (change : Node → Node) :
    (doc.update node change).size = doc.size := by
  simp [update, size]

/-- A change is made at one node. -/
theorem get?_update (node other : Nat) (change : Node → Node) :
    (doc.update node change).get? other =
      if other = node then (doc.get? other).map change else doc.get? other := by
  simp only [update, get?, Array.getElem?_modify]
  by_cases same : node = other
  · subst same; simp
  · rw [if_neg same, if_neg (Ne.symm same)]

theorem size_push (content : Content) (parent : Option Nat) :
    (doc.push content parent).size = doc.size + 1 := by
  cases parent with
  | none => simp [push, size]
  | some older => simp only [push, size_update]; simp [size]

/-- A new node changes no other node but its parent, which gets one more child. -/
theorem get?_push {content : Content} {parent : Option Nat}
    (older : ∀ place, parent = some place → place < doc.size) (node : Nat) :
    (doc.push content parent).get? node =
      if node = doc.size then some ⟨content, parent, [], .none⟩
      else if parent = some node then
        (doc.get? node).map (fun old => { old with children := old.children ++ [doc.size] })
      else doc.get? node := by
  have added : ∀ place, (Document.mk (doc.nodes.push ⟨content, parent, [], .none⟩)).get? place =
      if place = doc.size then some ⟨content, parent, [], .none⟩ else doc.get? place := by
    intro place
    simp only [get?, size, Array.getElem?_push]
    by_cases new : place = doc.nodes.size <;> simp [new]
  cases parent with
  | none => simp [push, added]
  | some place =>
    have apart : doc.size ≠ place := Nat.ne_of_gt (older place rfl)
    simp only [push, get?_update, added]
    by_cases new : node = doc.size
    · subst new; simp [apart]
    · by_cases same : node = place
      · subst same; simp [new]
      · simp [new, same, Ne.symm same]

/-- A change that keeps parents keeps the tree's upward edges; the next ones say the same of the
others. -/
theorem parent?_update {node : Nat} {change : Node → Node}
    (kept : ∀ old, (change old).parent = old.parent) (other : Nat) :
    (doc.update node change).parent? other = doc.parent? other := by
  unfold parent?
  rw [get?_update]
  split
  · cases doc.get? other <;> simp [kept]
  · rfl

theorem children_update {node : Nat} {change : Node → Node}
    (kept : ∀ old, (change old).children = old.children) (other : Nat) :
    (doc.update node change).children other = doc.children other := by
  unfold children
  rw [get?_update]
  split
  · cases doc.get? other <;> simp [kept]
  · rfl

theorem tag?_eq (node : Nat) :
    doc.tag? node = (doc.get? node).bind (Content.tag? ∘ Node.content) := by
  unfold tag?
  cases doc.get? node with
  | none => rfl
  | some found => cases kind : found.content <;> simp [Content.tag?, kind]

theorem tag?_update {node : Nat} {change : Node → Node}
    (kept : ∀ old, Content.tag? (change old).content = Content.tag? old.content) (other : Nat) :
    (doc.update node change).tag? other = doc.tag? other := by
  rw [tag?_eq, tag?_eq, get?_update]
  split
  · cases doc.get? other <;> simp [kept]
  · rfl

/-- The new node has the parent it was given, and every other node keeps its own. -/
theorem parent?_push {content : Content} {parent : Option Nat}
    (older : ∀ place, parent = some place → place < doc.size) (node : Nat) :
    (doc.push content parent).parent? node =
      if node = doc.size then parent else doc.parent? node := by
  unfold parent?
  rw [get?_push older]
  split
  · rfl
  split
  · cases doc.get? node <;> rfl
  · rfl

/-- The parent gets the new node as its last child, and nobody else gets one. -/
theorem children_push {content : Content} {parent : Option Nat}
    (older : ∀ place, parent = some place → place < doc.size) {node : Nat}
    (known : node < doc.size) :
    (doc.push content parent).children node =
      doc.children node ++ (if parent = some node then [doc.size] else []) := by
  obtain ⟨found, atNode⟩ := get?_of_lt_size known
  unfold children
  rw [get?_push older, if_neg (Nat.ne_of_lt known), atNode]
  by_cases under : parent = some node <;> simp [under]

/-- A new node leaves alone what the others are. -/
theorem content_push {content : Content} {parent : Option Nat}
    (older : ∀ place, parent = some place → place < doc.size) {node : Nat}
    (known : node < doc.size) :
    ((doc.push content parent).get? node).map Node.content = (doc.get? node).map Node.content := by
  rw [get?_push older, if_neg (Nat.ne_of_lt known)]
  by_cases under : parent = some node
  · rw [if_pos under]
    cases doc.get? node <;> rfl
  · rw [if_neg under]

theorem tag?_push {content : Content} {parent : Option Nat}
    (older : ∀ place, parent = some place → place < doc.size) {node : Nat}
    (known : node < doc.size) : (doc.push content parent).tag? node = doc.tag? node := by
  unfold tag?
  rw [content_push older known]

theorem isElement_update {node : Nat} {change : Node → Node}
    (kept : ∀ old, Content.tag? (change old).content = Content.tag? old.content) :
    (doc.update node change).isElement = doc.isElement := by
  funext other
  rw [isElement, isElement, tag?_update kept]

theorem isElement_push {content : Content} {parent : Option Nat}
    (older : ∀ place, parent = some place → place < doc.size) {node : Nat}
    (known : node < doc.size) : (doc.push content parent).isElement node = doc.isElement node := by
  rw [isElement, tag?_push older known, isElement]

end Changes

/-- The children of a node that does not exist are none. -/
theorem children_of_size_le {node : Nat} (beyond : doc.size ≤ node) : doc.children node = [] := by
  have nothing : doc.get? node = none := Array.getElem?_eq_none beyond
  simp [children, nothing]

namespace Forest

theorem mem_children_iff (forest : doc.Forest) {node child : Nat} :
    child ∈ doc.children node ↔ doc.parent? child = some node := by
  rw [forest.children_eq, List.mem_filter, List.mem_range, decide_eq_true_iff]
  exact ⟨And.right, fun under => ⟨lt_size_of_parent? under, under⟩⟩

/-- Children stand in the order in which they were added. -/
theorem children_sorted (forest : doc.Forest) (node : Nat) :
    (doc.children node).Pairwise (· < ·) := by
  rw [forest.children_eq]
  exact List.pairwise_lt_range.filter _

theorem empty : Forest .empty where
  parent_lt := fun under => absurd (lt_size_of_parent? under) (Nat.not_lt_zero _)
  children_eq := fun node => children_of_size_le (Nat.zero_le node)
  isElement_of_root := fun bound => absurd bound (Nat.not_lt_zero _)

/-- Adding a node below an older one keeps the document a forest. A root is an element, since a text
is always added to a parent. -/
theorem push (forest : doc.Forest) {content : Content} {parent : Option Nat}
    (older : ∀ place, parent = some place → place < doc.size)
    (rooted : parent = none → ∃ tag attributes, content = .element tag attributes) :
    (doc.push content parent).Forest where
  parent_lt := by
    intro node place under
    rw [parent?_push older] at under
    split at under
    · next new => exact new ▸ older place under
    · exact forest.parent_lt under
  children_eq := by
    intro node
    have oldKept : (List.range doc.size).filter
        (fun child => (doc.push content parent).parent? child = some node) =
        (List.range doc.size).filter (fun child => doc.parent? child = some node) := by
      apply List.filter_congr
      intro child member
      rw [parent?_push older, if_neg (Nat.ne_of_lt (List.mem_range.mp member))]
    have newChild : [doc.size].filter
        (fun child => (doc.push content parent).parent? child = some node) =
        if parent = some node then [doc.size] else [] := by
      simp only [List.filter_cons, List.filter_nil, parent?_push older, if_true,
        decide_eq_true_eq]
    rw [size_push, List.range_succ, List.filter_append, oldKept, newChild]
    by_cases known : node < doc.size
    · rw [children_push older known, forest.children_eq]
    · have beyond : doc.children node = [] := children_of_size_le (Nat.le_of_not_lt known)
      have apart : parent ≠ some node := fun under => known (older node under)
      rw [forest.children_eq] at beyond
      rw [beyond, if_neg apart]
      unfold children
      rw [get?_push older, if_neg apart]
      split
      · rfl
      · exact children_of_size_le (Nat.le_of_not_lt known)
  isElement_of_root := by
    intro node bound root
    rw [parent?_push older] at root
    by_cases new : node = doc.size
    · obtain ⟨tag, attributes, rfl⟩ := rooted (by simpa [new] using root)
      simp [isElement, tag?, get?_push older, new]
    · rw [if_neg new] at root
      rw [size_push] at bound
      have known : node < doc.size := by omega
      rw [isElement_push older known]
      exact forest.isElement_of_root known root

/-- Changes of a node that leave its place alone keep the shape. -/
theorem update (forest : doc.Forest) {node : Nat} {change : Node → Node}
    (parentKept : ∀ old, (change old).parent = old.parent)
    (childrenKept : ∀ old, (change old).children = old.children)
    (tagKept : ∀ old, Content.tag? (change old).content = Content.tag? old.content) :
    (doc.update node change).Forest where
  parent_lt := fun under => forest.parent_lt (parent?_update parentKept _ ▸ under)
  children_eq := by
    intro other
    rw [children_update childrenKept, forest.children_eq, size_update]
    apply List.filter_congr
    intro child _
    rw [parent?_update parentKept]
  isElement_of_root := by
    intro other bound root
    rw [size_update] at bound
    rw [parent?_update parentKept] at root
    rw [isElement_update tagKept]
    exact forest.isElement_of_root bound root

theorem setAttribute (forest : doc.Forest) {changed : Document} {node : Nat} {key value : String}
    (run : doc.setAttribute? node key value = some changed) : changed.Forest := by
  obtain ⟨_, same⟩ := Option.ite_none_right_eq_some.mp run
  cases Option.some.inj same
  exact forest.update (fun _ => rfl) (fun _ => rfl)
    (fun old => Content.tag?_setAttribute _ value old.content)

theorem setState (forest : doc.Forest) {changed : Document} {node : Nat} {state : NodeState}
    (run : doc.setState? node state = some changed) : changed.Forest := by
  obtain ⟨_, same⟩ := Option.ite_none_right_eq_some.mp run
  cases Option.some.inj same
  exact forest.update (fun _ => rfl) (fun _ => rfl) (fun _ => rfl)

theorem addElement (forest : doc.Forest) (parent : Option Nat) (tag : String) :
    (doc.addElement parent tag).Forest := by
  refine forest.push ?_ (fun _ => ⟨_, _, rfl⟩)
  intro place under
  exact contains_iff.mp (Option.filter_eq_some_iff.mp under).2

theorem addText (forest : doc.Forest) {grown : Document} {parent : Nat} {text : String}
    (run : doc.addText? parent text = some grown) : grown.Forest := by
  obtain ⟨known, same⟩ := Option.ite_none_right_eq_some.mp run
  cases Option.some.inj same
  refine forest.push ?_ (fun root => nomatch root)
  rintro place ⟨⟩
  exact contains_iff.mp known

end Forest

theorem Built.forest (built : doc.Built) : doc.Forest := by
  induction built with
  | empty => exact Forest.empty
  | addElement parent tag _ ih => exact ih.addElement parent tag
  | addText _ run ih => exact ih.addText run
  | setAttribute _ run ih => exact ih.setAttribute run
  | setState _ run ih => exact ih.setState run

end Document

end StyleCascade
