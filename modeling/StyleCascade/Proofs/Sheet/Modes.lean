import StyleCascade.Proofs.Document.Walk
import StyleCascade.Proofs.Sheet.Cascade

namespace StyleCascade

section Blind

variable {ν : Type} {tree : Tree ν}

/-- A tree with other states. -/
def Tree.withStates (tree : Tree ν) (states : ν → NodeState) : Tree ν :=
  { tree with state := states }

/-- A static match is blind to the states, since a condition on a state fails in it. -/
theorem Condition.holds_static (condition : Condition) (states : ν → NodeState) (element : ν) :
    condition.holds .static (tree.withStates states) element =
      condition.holds .static tree element := by
  cases condition <;> rfl

theorem Compound.holds_static (compound : Compound) (states : ν → NodeState) (element : ν) :
    compound.holds .static (tree.withStates states) element =
      compound.holds .static tree element :=
  congrArg compound.all (funext fun condition => condition.holds_static states element)

/-- Static matching does not look at the states. -/
theorem linksHold_static (links : List (Combinator × Compound)) (states : ν → NodeState)
    (element : ν) :
    linksHold .static (tree.withStates states) links element =
      linksHold .static tree links element := by
  induction links generalizing element with
  | nil => rfl
  | cons link links ih =>
    obtain ⟨combinator, compound⟩ := link
    have way : combinator.targets (tree.withStates states) element =
        combinator.targets tree element := by
      cases combinator <;> rfl
    simp only [linksHold, way, ih, compound.holds_static states]

/-- Static matching does not see states. -/
theorem Selector.holds_static (selector : Selector) (states : ν → NodeState) (element : ν) :
    selector.holds .static (tree.withStates states) element =
      selector.holds .static tree element := by
  rw [holds, holds, Compound.holds_static, linksHold_static]

end Blind

section Contained

variable {ν : Type} {tree : Tree ν} {element : ν}

/-- The modes differ in pseudo-classes, and none of these holds statically. -/
theorem Condition.holds_dynamic {condition : Condition}
    (met : condition.holds .static tree element = true) :
    condition.holds .dynamic tree element = true := by
  cases condition with
  | pseudoClass cls => cases met
  | _ => exact met

theorem Compound.holds_dynamic {compound : Compound}
    (met : compound.holds .static tree element = true) :
    compound.holds .dynamic tree element = true :=
  List.all_eq_true.mpr fun condition listed =>
    Condition.holds_dynamic (List.all_eq_true.mp met condition listed)

/-- What matches without the states matches with them. -/
theorem linksHold_dynamic {links : List (Combinator × Compound)}
    (hold : linksHold .static tree links element = true) :
    linksHold .dynamic tree links element = true := by
  induction links generalizing element with
  | nil => rfl
  | cons link links ih =>
    obtain ⟨combinator, compound⟩ := link
    rw [linksHold, List.any_eq_true] at hold ⊢
    -- the way that static matching takes is open to dynamic matching
    obtain ⟨target, led, there⟩ := hold
    obtain ⟨met, behind⟩ := Bool.and_eq_true_iff.mp there
    exact ⟨target, led, Bool.and_eq_true_iff.mpr ⟨Compound.holds_dynamic met, ih behind⟩⟩

/-- What matches statically matches dynamically. -/
theorem Selector.holds_dynamic {selector : Selector}
    (matchStatic : selector.holds .static tree element = true) :
    selector.holds .dynamic tree element = true := by
  obtain ⟨met, behind⟩ := Bool.and_eq_true_iff.mp matchStatic
  exact Bool.and_eq_true_iff.mpr ⟨Compound.holds_dynamic met, linksHold_dynamic behind⟩

end Contained

namespace CascadeKey

variable {α : Type} {key : α → CascadeKey} {item : α} {entries others : List α}

/-- No entry is stronger than one in front of it. -/
def Descending (key : α → CascadeKey) (entries : List α) : Prop :=
  entries.Pairwise (fun one other => (key other).beats (key one) = false)

/-- Behind an entry that does not beat an item, nothing does. -/
theorem Descending.weaker {first : α} (descending : Descending key (first :: entries))
    (weaker : ¬(key first).beats (key item) = true) :
    ∀ other ∈ first :: entries, (key other).beats (key item) = false :=
  List.forall_mem_cons.mpr ⟨Bool.eq_false_iff.mpr weaker, fun other listed =>
    not_beats_trans (Bool.eq_false_iff.mpr weaker) ((List.pairwise_cons.mp descending).1 other listed)⟩

theorem Descending.place (descending : Descending key entries) (item : α) :
    Descending key (place key item entries) := by
  induction entries with
  | nil => exact List.pairwise_singleton _ _
  | cons first rest ih =>
    obtain ⟨firstStronger, descendingRest⟩ := List.pairwise_cons.mp descending
    unfold CascadeKey.place
    split
    · next stronger =>
      refine List.pairwise_cons.mpr ⟨fun other listed => ?_, ih descendingRest⟩
      rcases mem_place.mp listed with rfl | old
      · exact not_beats_of_beats stronger
      · exact firstStronger other old
    · next weaker => exact List.pairwise_cons.mpr ⟨descending.weaker weaker, descending⟩

/-- An item goes to the same place among the entries that two lists have in common. -/
theorem place_sublist (descending : Descending key others) (sub : entries.Sublist others) :
    (place key item entries).Sublist (place key item others) := by
  induction sub with
  | slnil => exact .refl _
  | @cons entries others first sub ih =>
    by_cases stronger : (key first).beats (key item) = true
    · have behind : place key item (first :: others) = first :: place key item others :=
        if_pos stronger
      rw [behind]
      exact (ih descending.of_cons).cons first
    · have front : place key item (first :: others) = item :: first :: others := if_neg stronger
      have weaker := descending.weaker stronger
      rw [front, place_eq_cons fun other listed =>
        weaker other (List.mem_cons_of_mem first (sub.subset listed))]
      exact (sub.cons first).cons_cons item
  | @cons_cons entries others first sub ih =>
    rw [CascadeKey.place, CascadeKey.place]
    split
    · exact (ih descending.of_cons).cons_cons first
    · exact (sub.cons_cons first).cons_cons item

end CascadeKey

/-- A node without its state. -/
def Node.stateless (node : Node) : Node :=
  { node with state := .none }

namespace Document

/-- A document without the states of its nodes. -/
def stateless (doc : Document) : Document :=
  ⟨doc.nodes.map Node.stateless⟩

section

variable (doc : Document)

theorem get?_stateless (node : Nat) :
    doc.stateless.get? node = (doc.get? node).map Node.stateless :=
  Array.getElem?_map

theorem parent?_stateless : doc.stateless.parent? = doc.parent? := by
  funext node
  rw [parent?, parent?, get?_stateless]
  cases doc.get? node <;> rfl

theorem children_stateless : doc.stateless.children = doc.children := by
  funext node
  rw [children, children, get?_stateless]
  cases doc.get? node <;> rfl

theorem tag?_stateless : doc.stateless.tag? = doc.tag? := by
  funext node
  rw [tag?, tag?, get?_stateless]
  cases doc.get? node <;> rfl

theorem attr?_stateless : doc.stateless.attr? = doc.attr? := by
  funext node key
  rw [attr?, attr?, get?_stateless]
  cases doc.get? node <;> rfl

theorem isElement_stateless : doc.stateless.isElement = doc.isElement := by
  funext node
  rw [isElement, isElement, tag?_stateless]

theorem ancestors_stateless : doc.stateless.ancestors = doc.ancestors := by
  funext node
  induction node using ancestors.induct doc with
  | case1 node root =>
    rw [ancestors_of_root root, ancestors_of_root (by rw [parent?_stateless, root])]
  | case2 node older under less ih =>
    rw [ancestors, ancestors, parent?_stateless, under]
    simp only [less, if_true, ih]
  | case3 node older under late =>
    rw [ancestors, ancestors, parent?_stateless, under]
    simp only [late, if_false]

theorem siblingIndex?_stateless : doc.stateless.siblingIndex? = doc.siblingIndex? := by
  funext node
  simp only [siblingIndex?, elementChildren, parent?_stateless, children_stateless,
    isElement_stateless]

/-- Without states, selectors see the same tree but for these. -/
theorem tree_stateless : doc.stateless.tree = doc.tree.withStates doc.stateless.state := by
  have previous : doc.stateless.previousElement? = doc.previousElement? := by
    funext node
    simp only [previousElement?, parentElement?, elementChildren, siblingIndex?_stateless,
      parent?_stateless, children_stateless, isElement_stateless]
  have language : doc.stateless.language? = doc.language? := by
    funext node
    simp only [language?, ancestors_stateless, attr?_stateless]
  have above : doc.stateless.elementAncestors = doc.elementAncestors := by
    funext node
    simp only [elementAncestors, ancestors_stateless, isElement_stateless]
  simp only [tree, Tree.withStates, tag?_stateless, attr?_stateless, siblingIndex?_stateless, above,
    previous, language]

end

variable {doc other : Document}

/-- Documents that differ in states alone match the same selectors statically. -/
theorem holds_static_of_stateless (same : other.stateless = doc.stateless) (selector : Selector)
    (element : Nat) :
    selector.holds .static other.tree element = selector.holds .static doc.tree element := by
  have blind (doc : Document) : selector.holds .static doc.stateless.tree element =
      selector.holds .static doc.tree element := by
    rw [tree_stateless, selector.holds_static]
  rw [← blind other, same, blind doc]

end Document

namespace Cascade

variable {ν : Type} {store : Store} {tree : Tree ν} {element : ν}

theorem matched_static_sublist (store : Store) (tree : Tree ν) (element : ν) :
    (matched store .static tree element).Sublist (matched store .dynamic tree element) :=
  List.monotone_filter_right _ fun _ => Selector.holds_dynamic

/-- Placing the same sets into a sublist gives a sublist. -/
theorem foldl_place_sublist {entries others : KeyedSets} (added : KeyedSets)
    (descending : CascadeKey.Descending Prod.fst others) (sub : entries.Sublist others) :
    (added.foldl (fun result entry => CascadeKey.place Prod.fst entry result) entries).Sublist
      (added.foldl (fun result entry => CascadeKey.place Prod.fst entry result) others) := by
  induction added generalizing entries others with
  | nil => exact sub
  | cons first rest ih => exact ih (descending.place first) (CascadeKey.place_sublist descending sub)

/-- Static matching is blind to states and contained in dynamic matching: of two documents that
differ in states alone it says the same about each element, an element that meets a selector
statically meets it dynamically, and the sets that apply statically are among those that apply
dynamically, in the same order. -/
theorem static_within_dynamic (media : List String) (ops : List Store.Op) {doc other : Document}
    (same : other.stateless = doc.stateless) (selector : Selector) (element : Nat)
    (inline : Option InlineStyle) :
    let store := (Store.empty media).run ops
    selector.holds .static other.tree element = selector.holds .static doc.tree element ∧
      (selector.holds .static doc.tree element = true →
        selector.holds .dynamic doc.tree element = true) ∧
      (apply store .static doc.tree element inline).Sublist
        (apply store .dynamic doc.tree element inline) := by
  intro store
  have ordered : store.Ordered := (Store.Ordered.empty media).run ops
  have descending : CascadeKey.Descending Prod.fst
      (ofRules (matched store .dynamic doc.tree element)) :=
    List.pairwise_map.mpr (((candidates_sorted ordered _).imp
      CascadeKey.not_beats_of_beats).filter _)
  have rules : (ofRules (matched store .static doc.tree element)).Sublist
      (ofRules (matched store .dynamic doc.tree element)) :=
    (matched_static_sublist store doc.tree element).map _
  refine ⟨Document.holds_static_of_stateless same selector element, Selector.holds_dynamic, ?_⟩
  rw [apply, apply, withInline_eq, withInline_eq]
  exact (foldl_place_sublist (inlineSets inline) descending rules).map Prod.snd

/-- In the one document the pointer is over the paragraph; both rules match there dynamically, and
the rule without a state matches in both documents statically. -/
theorem static_within_dynamic_hover :
    let doc := (Document.empty.addElement none "div").addElement (some 0) "p"
    let hovered := doc.update 1 (fun node => { node with state := ⟨false, false, true, false, false⟩ })
    let plain := Selector.ofParts [.condition (.tag "p"), .combinator .child, .condition (.tag "div")]
    let pointed := Selector.ofParts [.condition (.tag "p"), .condition (.pseudoClass .hover)]
    let ops : List Store.Op :=
      [.add ⟨.author, 1⟩ (Ascii.bytes "div>p\x7bcolor:red\x7d p:hover\x7bcolor:blue\x7d")]
    let store := (Store.empty Store.screenMedia).run ops
    hovered.stateless = doc.stateless ∧ store.rules.map Rule.selector = [pointed, plain] ∧
      pointed.holds .static doc.tree 1 = false ∧ pointed.holds .dynamic hovered.tree 1 = true ∧
      plain.holds .static doc.tree 1 = true ∧
      plain.holds .static hovered.tree 1 = plain.holds .static doc.tree 1 ∧
        (plain.holds .static doc.tree 1 = true → plain.holds .dynamic doc.tree 1 = true) ∧
        (apply store .static doc.tree 1 none).Sublist (apply store .dynamic doc.tree 1 none) := by
  intro doc hovered plain pointed ops store
  have same : hovered.stateless = doc.stateless := by decide +kernel
  exact ⟨same, by decide +kernel, by decide +kernel, by decide +kernel, by decide +kernel,
    static_within_dynamic Store.screenMedia ops same plain 1 none⟩

end Cascade

end StyleCascade
