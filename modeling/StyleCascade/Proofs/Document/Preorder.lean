import Mathlib.Data.List.TakeWhile
import Mathlib.Logic.Relation
import StyleCascade.Proofs.Document.Walk

namespace StyleCascade

namespace Document

variable {doc : Document}

/-- A node is another one or stands below it. -/
def Under (doc : Document) : Nat → Nat → Prop :=
  Relation.ReflTransGen (fun low high => doc.parent? low = some high)

/-- Of two nodes one comes first in pre-order. Roots are siblings, too. -/
def Precedes (doc : Document) (early late : Nat) : Prop :=
  (early ≠ late ∧ doc.Under late early) ∨
    ∃ older younger, older < younger ∧ doc.parent? older = doc.parent? younger ∧
      doc.Under early older ∧ doc.Under late younger

/-- A walk that starts with some nodes on a stack, until the stack is empty: the node on top is
listed, and its children take its place, the oldest one on top. -/
inductive StackWalk (doc : Document) : List Nat → List Nat → Prop
  | done : StackWalk doc [] []
  | next {node : Nat} {rest listed : List Nat} :
      StackWalk doc (doc.children node ++ rest) listed →
        StackWalk doc (node :: rest) (node :: listed)

namespace Forest

theorem under_iff (forest : doc.Forest) {low high : Nat} :
    doc.Under low high ↔ high ∈ low :: doc.ancestors low := by
  constructor
  · intro way
    induction way using Relation.ReflTransGen.head_induction_on with
    | refl => exact List.mem_cons_self
    | head under _ ih =>
      rw [forest.ancestors_of_parent? under]
      exact List.mem_cons_of_mem _ ih
  · intro above
    induction low using Nat.strongRecOn with
    | _ low ih =>
      rcases List.mem_cons.mp above with rfl | above
      · exact .refl
      cases under : doc.parent? low with
      | none => rw [ancestors_of_root under] at above; cases above
      | some parent =>
        rw [forest.ancestors_of_parent? under] at above
        exact .head under (ih parent (forest.parent_lt under) above)

theorem le_of_under (forest : doc.Forest) {low high : Nat} (below : doc.Under low high) :
    high ≤ low := by
  rcases List.mem_cons.mp (forest.under_iff.mp below) with rfl | above
  · exact Nat.le_refl _
  · exact Nat.le_of_lt (forest.lt_of_mem_ancestors above)

theorem mem_subtreeFrom_iff_under (forest : doc.Forest) {node low : Nat} :
    low ∈ doc.subtreeFrom node ↔ doc.Under low node :=
  forest.mem_subtreeFrom_iff.trans forest.under_iff.symm

/-- No node stands below two siblings. -/
theorem not_under_siblings (forest : doc.Forest) {one other low : Nat}
    (siblings : doc.parent? one = doc.parent? other) (apart : one ≠ other)
    (first : doc.Under low one) : ¬doc.Under low other := by
  rw [← forest.mem_subtreeFrom_iff_under] at first ⊢
  exact forest.subtrees_apart siblings apart first

/-- No node comes before itself, so nothing that is listed in pre-order is listed twice. -/
theorem ne_of_precedes (forest : doc.Forest) {early late : Nat} (order : doc.Precedes early late) :
    early ≠ late := by
  rcases order with ⟨apart, -⟩ | ⟨older, younger, less, siblings, first, second⟩
  · exact apart
  · rintro rfl
    exact forest.not_under_siblings siblings (Nat.ne_of_lt less) first second

/-- No node comes before its parent. -/
theorem parent?_ne_of_precedes (forest : doc.Forest) {early late : Nat}
    (order : doc.Precedes early late) : doc.parent? early ≠ some late := by
  intro under
  have youngerLate := forest.parent_lt under
  rcases order with ⟨-, below⟩ | ⟨older, younger, less, siblings, first, second⟩
  · have := forest.le_of_under below
    omega
  · exact forest.not_under_siblings siblings (Nat.ne_of_lt less) first (.head under second)

/-- The subtrees of siblings are in pre-order if each of them is. -/
theorem subtrees_preorder (forest : doc.Forest) {nodes : List Nat}
    (sorted : nodes.Pairwise (· < ·))
    (siblings : ∀ one ∈ nodes, ∀ other ∈ nodes, doc.parent? one = doc.parent? other)
    (inner : ∀ node ∈ nodes, (doc.subtreeFrom node).Pairwise doc.Precedes) :
    (nodes.flatMap doc.subtreeFrom).Pairwise doc.Precedes := by
  refine List.pairwise_flatMap.mpr ⟨inner, sorted.imp_of_mem ?_⟩
  intro older younger isOlder isYounger less early isEarly late isLate
  exact Or.inr ⟨older, younger, less, siblings older isOlder younger isYounger,
    forest.mem_subtreeFrom_iff_under.mp isEarly, forest.mem_subtreeFrom_iff_under.mp isLate⟩

theorem subtreeFrom_preorder (forest : doc.Forest) (node : Nat) :
    (doc.subtreeFrom node).Pairwise doc.Precedes := by
  induction node using subtreeFrom.induct doc with
  | _ node ih =>
    rw [forest.subtreeFrom_eq]
    refine List.pairwise_cons.mpr ⟨?_, ?_⟩
    · intro low listed
      obtain ⟨child, isChild, below⟩ := List.mem_flatMap.mp listed
      have under := forest.mem_children_iff.mp isChild
      have lowChild := forest.mem_subtreeFrom_iff_under.mp below
      have less := forest.parent_lt under
      have least := forest.le_of_under lowChild
      exact Or.inl ⟨by omega, lowChild.tail under⟩
    · refine forest.subtrees_preorder (forest.children_sorted node) ?_ ?_
      · intro one isOne other isOther
        rw [forest.mem_children_iff.mp isOne, forest.mem_children_iff.mp isOther]
      · intro child isChild
        have under := forest.mem_children_iff.mp isChild
        exact ih child ⟨forest.parent_lt under, lt_size_of_parent? under⟩

theorem flatMap_subtree {nodes : List Nat} (known : ∀ node ∈ nodes, node < doc.size) :
    nodes.flatMap doc.subtree = nodes.flatMap doc.subtreeFrom :=
  List.flatMap_congr fun node listed => if_pos (contains_iff.mpr (known node listed))

/-- A walk over the subtrees of siblings is in pre-order. -/
theorem walk_preorder (forest : doc.Forest) {nodes : List Nat} (sorted : nodes.Pairwise (· < ·))
    (siblings : ∀ one ∈ nodes, ∀ other ∈ nodes, doc.parent? one = doc.parent? other)
    (known : ∀ node ∈ nodes, node < doc.size) :
    (nodes.flatMap doc.subtree).Pairwise doc.Precedes := by
  rw [flatMap_subtree known]
  exact forest.subtrees_preorder sorted siblings fun node _ => forest.subtreeFrom_preorder node

/-- In front of what is still on the stack, a node is walked through to the end of its subtree. -/
theorem stackWalk_subtreeFrom (forest : doc.Forest) (node : Nat) {rest listed : List Nat}
    (walk : doc.StackWalk rest listed) :
    doc.StackWalk (node :: rest) (doc.subtreeFrom node ++ listed) := by
  induction node using subtreeFrom.induct doc generalizing rest listed with
  | _ node ih =>
    -- the children are walked through one after the other, each in front of the later ones
    have children : ∀ nodes ⊆ doc.children node,
        doc.StackWalk (nodes ++ rest) (nodes.flatMap doc.subtreeFrom ++ listed) := by
      intro nodes inside
      induction nodes with
      | nil => exact walk
      | cons first later more =>
        have under := forest.mem_children_iff.mp (inside List.mem_cons_self)
        have behind := more fun child member => inside (List.mem_cons_of_mem _ member)
        rw [List.flatMap_cons, List.append_assoc]
        exact ih first ⟨forest.parent_lt under, lt_size_of_parent? under⟩ behind
    rw [forest.subtreeFrom_eq]
    exact .next (children _ fun _ member => member)

end Forest

theorem StackWalk.unique {stack one other : List Nat} (first : doc.StackWalk stack one)
    (second : doc.StackWalk stack other) : one = other := by
  induction first generalizing other with
  | done => cases second; rfl
  | next _ ih =>
    cases second with
    | next later => rw [ih later]

namespace Forest

theorem mem_subtree_iff (forest : doc.Forest) {node low : Nat} :
    low ∈ doc.subtree node ↔ node < doc.size ∧ doc.Under low node := by
  unfold subtree
  split
  · next known =>
    rw [forest.mem_subtreeFrom_iff_under, and_iff_right (contains_iff.mp known)]
  · next unknown =>
    rw [contains_iff] at unknown
    simp [unknown]

theorem subtree_preorder (forest : doc.Forest) (node : Nat) :
    (doc.subtree node).Pairwise doc.Precedes := by
  unfold subtree
  split
  · exact forest.subtreeFrom_preorder node
  · exact .nil

/-- A walk with a stack lists a subtree, and nothing else. -/
theorem stackWalk_iff (forest : doc.Forest) {node : Nat} (known : node < doc.size)
    {listed : List Nat} : doc.StackWalk [node] listed ↔ listed = doc.subtree node := by
  have walk : doc.StackWalk [node] (doc.subtree node) := by
    rw [subtree, if_pos (contains_iff.mpr known), ← List.append_nil (doc.subtreeFrom node)]
    exact forest.stackWalk_subtreeFrom node .done
  constructor
  · intro other
    exact other.unique walk
  · rintro rfl
    exact walk

/-- The walk over all roots is in pre-order. -/
theorem roots_preorder (forest : doc.Forest) :
    (doc.roots.flatMap doc.subtree).Pairwise doc.Precedes := by
  have sorted : doc.roots.Pairwise (· < ·) := List.pairwise_lt_range.filter _
  refine forest.walk_preorder sorted ?_ fun root listed => (mem_roots_iff.mp listed).1
  intro one isOne other isOther
  rw [(mem_roots_iff.mp isOne).2, (mem_roots_iff.mp isOther).2]

/-- Every node is listed once by the walk over all roots. -/
theorem subtrees_of_roots_perm (forest : doc.Forest) :
    (doc.roots.flatMap doc.subtree).Perm (List.range doc.size) := by
  have once : (doc.roots.flatMap doc.subtree).Nodup :=
    forest.roots_preorder.imp forest.ne_of_precedes
  refine (List.perm_ext_iff_of_nodup once List.nodup_range).mpr fun node => ?_
  rw [List.mem_range]
  constructor
  · intro listed
    obtain ⟨root, -, below⟩ := List.mem_flatMap.mp listed
    exact forest.lt_size_of_mem_subtree below
  · exact forest.mem_subtrees_of_roots

/-- The siblings behind an element are the elements behind it among the children of its parent. -/
theorem followingSiblings_eq (forest : doc.Forest) {node parent : Nat}
    (element : doc.isElement node = true) (under : doc.parent? node = some parent)
    {front behind : List Nat} (children : doc.children parent = front ++ node :: behind) :
    doc.followingSiblings node = behind.filter doc.isElement := by
  have sorted := forest.children_sorted parent
  rw [children] at sorted
  have earlier : ∀ child ∈ front, child ≠ node := fun child member =>
    Nat.ne_of_lt ((List.pairwise_append.mp sorted).2.2 child member node List.mem_cons_self)
  have passed : (front.filter doc.isElement).dropWhile (· ≠ node) = [] := by
    refine List.dropWhile_eq_nil_iff.mpr fun child member => ?_
    exact decide_eq_true (earlier child (List.mem_of_mem_filter member))
  have lists : doc.elementChildren parent =
      front.filter doc.isElement ++ node :: behind.filter doc.isElement := by
    rw [elementChildren, children, List.filter_append, List.filter_cons_of_pos element]
  simp only [followingSiblings, under]
  rw [lists, List.dropWhile_append, passed]
  simp

end Forest

end Document

end StyleCascade
