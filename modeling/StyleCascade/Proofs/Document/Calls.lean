import StyleCascade.Proofs.Document.Preorder

namespace StyleCascade

namespace Document

/-- A call that adds a node or changes one. -/
inductive Call
  | element (parent : Option Nat) (tag : String)
  | text (parent : Nat) (text : String)
  | attr (node : Nat) (key value : String)
  | state (node : Nat) (state : NodeState)
  deriving DecidableEq, Repr

/-- The document behind a call. -/
def call (doc : Document) : Call → Document
  | .element parent tag => doc.addElement parent tag
  | .text parent text => (doc.addText? parent text).getD doc
  | .attr node key value => (doc.setAttribute? node key value).getD doc
  | .state node state => (doc.setState? node state).getD doc

/-- The document behind several calls. -/
def run (doc : Document) (calls : List Call) : Document :=
  calls.foldl call doc

variable {doc : Document}

/-- A call that may fail leads to a document that was built, if its success does. -/
theorem Built.getD {changed? : Option Document} (built : doc.Built)
    (success : ∀ changed, changed? = some changed → changed.Built) : (changed?.getD doc).Built := by
  cases changed? with
  | none => exact built
  | some changed => exact success changed rfl

theorem Built.call (built : doc.Built) (call : Call) : (doc.call call).Built := by
  cases call with
  | element parent tag => exact .addElement parent tag built
  | text parent text => exact built.getD fun _ => .addText built
  | attr node key value => exact built.getD fun _ => .setAttribute built
  | state node state => exact built.getD fun _ => .setState built

theorem Built.run (built : doc.Built) (calls : List Call) : (doc.run calls).Built := by
  induction calls generalizing doc with
  | nil => exact built
  | cons first rest ih => exact ih (built.call first)

theorem Forest.count_children (forest : doc.Forest) (node child : Nat) :
    (doc.children node).count child = if doc.parent? child = some node then 1 else 0 := by
  have once : (doc.children node).Nodup := (forest.children_sorted node).imp Nat.ne_of_lt
  rw [once.count]
  exact if_congr forest.mem_children_iff rfl rfl

/-- Whatever is added and changed, a parent is older than its children, a node is listed once among
the children of its parent and nowhere else, children are listed by age, and roots are elements. A
subtree lists a node and all below it once and in pre-order, just as a walk with a stack does, and
the subtrees of the roots list each node once. Behind an element there are as siblings the elements
that follow it among the children of its parent. -/
theorem walks_exact (calls : List Call) :
    let doc := Document.empty.run calls
    (∀ node parent, doc.parent? node = some parent → parent < node) ∧
    (∀ node child,
      (doc.children node).count child = if doc.parent? child = some node then 1 else 0) ∧
    (∀ node, (doc.children node).Pairwise (· < ·)) ∧
    (∀ root ∈ doc.roots, doc.isElement root = true) ∧
    (∀ node,
      (∀ low, low ∈ doc.subtree node ↔ node < doc.size ∧ doc.Under low node) ∧
      (doc.subtree node).Nodup ∧ (doc.subtree node).Pairwise doc.Precedes) ∧
    (∀ node < doc.size, ∀ listed, doc.StackWalk [node] listed ↔ listed = doc.subtree node) ∧
    (doc.roots.flatMap doc.subtree).Perm (List.range doc.size) ∧
    ∀ node, doc.isElement node = true →
      (doc.parent? node = none → doc.followingSiblings node = []) ∧
      ∀ parent front behind, doc.parent? node = some parent →
        doc.children parent = front ++ node :: behind →
          doc.followingSiblings node = behind.filter doc.isElement := by
  intro doc
  have forest : doc.Forest := (Built.empty.run calls).forest
  refine ⟨fun _ _ => forest.parent_lt, forest.count_children, forest.children_sorted, ?_, ?_,
    fun _ known _ => forest.stackWalk_iff known, forest.subtrees_of_roots_perm, ?_⟩
  · intro root listed
    obtain ⟨known, top⟩ := Forest.mem_roots_iff.mp listed
    exact forest.isElement_of_root known top
  · intro node
    have preorder := forest.subtree_preorder node
    exact ⟨fun _ => forest.mem_subtree_iff, preorder.imp forest.ne_of_precedes, preorder⟩
  · intro node element
    refine ⟨fun top => ?_, fun _ _ _ under => forest.followingSiblings_eq element under⟩
    rw [followingSiblings, top]

end Document

end StyleCascade
