import StyleCascade.Proofs.Document.Agreement
import StyleCascade.Proofs.Document.Calls
import StyleCascade.Proofs.Document.Elements

namespace StyleCascade

namespace Document

/-- A call on nodes at other places. -/
def Call.rename (place : Nat → Nat) : Call → Call
  | .element parent tag => .element (parent.map place) tag
  | .text parent words => .text (place parent) words
  | .attr node key value => .attr (place node) key value
  | .state node status => .state (place node) status

/-- A call adds a text. -/
def Call.isText : Call → Bool
  | .text .. => true
  | _ => false

/-- The document behind a call that names elements by their numbers. -/
def callByNumber (doc : Document) (call : Call) : Document :=
  doc.call (call.rename doc.elementAt)

/-- The document behind several calls that name elements by their numbers. -/
def runByNumber (doc : Document) (calls : List Call) : Document :=
  calls.foldl callByNumber doc

/-- Adds texts one after the other, if the parent of each one is there. -/
def addTexts? (doc : Document) (texts : List (Nat × String)) : Option Document :=
  texts.foldlM (fun doc (parent, text) => doc.addText? parent text) doc

/-- A node stands in another document as the element with its number. -/
structure Stands (plain mixed : Document) (number : Nat) : Prop where
  content : (mixed.get? (mixed.elementAt number)).map Node.content =
    (plain.get? number).map Node.content
  state : mixed.state (mixed.elementAt number) = plain.state number
  parent? : mixed.parent? (mixed.elementAt number) = (plain.parent? number).map mixed.elementAt

/-- The elements of a document are all nodes of another one, in the same order and under the same
parents. -/
structure Mixes (plain mixed : Document) : Prop where
  plain_forest : plain.Forest
  mixed_forest : mixed.Forest
  count : mixed.elements.length = plain.size
  stands : ∀ {number}, number < plain.size → plain.Stands mixed number

variable {doc plain mixed : Document} {number : Nat}

/-- A correspondence between element numbers and nodes outlives a node that is added to the plain
document: the numbers that were known are answered as before. -/
theorem Stands.push (stands : plain.Stands mixed number) (forest : plain.Forest)
    {content : Content} {parent : Option Nat}
    (older : ∀ place, parent = some place → place < plain.size) (known : number < plain.size) :
    (plain.push content parent).Stands mixed number := by
  have agree : plain.AgreeOn (· < plain.size) (plain.push content parent) :=
    forest.agreeOn_push older
  refine ⟨?_, ?_, ?_⟩
  · rw [stands.content, content_push older known]
  · rw [stands.state, agree.state known]
  · rw [stands.parent?, agree.parent? known]

namespace Mixes

section Views

theorem tag? (mixes : plain.Mixes mixed) (known : number < plain.size) :
    mixed.tag? (mixed.elementAt number) = plain.tag? number := by
  rw [Document.tag?, (mixes.stands known).content, Document.tag?]

theorem attr? (mixes : plain.Mixes mixed) (known : number < plain.size) (key : String) :
    mixed.attr? (mixed.elementAt number) key = plain.attr? number key := by
  rw [Document.attr?, (mixes.stands known).content, Document.attr?]

theorem parent? (mixes : plain.Mixes mixed) (known : number < plain.size) :
    mixed.parent? (mixed.elementAt number) = (plain.parent? number).map mixed.elementAt :=
  (mixes.stands known).parent?

theorem mixed_element (mixes : plain.Mixes mixed) (known : number < plain.size) :
    mixed.isElement (mixed.elementAt number) = true :=
  isElement_elementAt (mixes.count ▸ known)

theorem plain_element (mixes : plain.Mixes mixed) (known : number < plain.size) :
    plain.isElement number = true := by
  rw [isElement, ← mixes.tag? known]
  exact mixes.mixed_element known

/-- Different numbers stand for different nodes of the mixed document. -/
theorem inj (mixes : plain.Mixes mixed) {one other : Nat} (oneKnown : one < plain.size)
    (otherKnown : other < plain.size) :
    mixed.elementAt one = mixed.elementAt other ↔ one = other :=
  elementAt_inj (mixes.count ▸ oneKnown) (mixes.count ▸ otherKnown)

/-- Parents are older, so they are nodes of the document, too. -/
theorem parent_known (mixes : plain.Mixes mixed) {parent : Nat}
    (under : plain.parent? number = some parent) : parent < plain.size :=
  Nat.lt_trans (mixes.plain_forest.parent_lt under) (lt_size_of_parent? under)

theorem ancestors (mixes : plain.Mixes mixed) (known : number < plain.size) :
    mixed.ancestors (mixed.elementAt number) = (plain.ancestors number).map mixed.elementAt := by
  induction number using Nat.strongRecOn with
  | _ number ih =>
    have above := mixes.parent? known
    cases under : plain.parent? number with
    | none =>
      rw [under] at above
      rw [ancestors_of_root above, ancestors_of_root under, List.map_nil]
    | some parent =>
      rw [under] at above
      rw [mixes.mixed_forest.ancestors_of_parent? above,
        mixes.plain_forest.ancestors_of_parent? under, List.map_cons,
        ih parent (mixes.plain_forest.parent_lt under) (mixes.parent_known under)]

theorem ancestors_known (mixes : plain.Mixes mixed) (known : number < plain.size) :
    ∀ above ∈ plain.ancestors number, above < plain.size := fun _ member =>
  Nat.lt_trans (mixes.plain_forest.lt_of_mem_ancestors member) known

/-- The correspondence carries over every relation the matcher follows: ancestors first. -/
theorem elementAncestors (mixes : plain.Mixes mixed) (known : number < plain.size) :
    mixed.elementAncestors (mixed.elementAt number) =
      (plain.elementAncestors number).map mixed.elementAt := by
  have inside := mixes.ancestors_known known
  have plainAll : plain.elementAncestors number = plain.ancestors number :=
    List.takeWhile_eq_self_iff.mpr fun above member => mixes.plain_element (inside above member)
  rw [Document.elementAncestors, mixes.ancestors known, plainAll]
  refine List.takeWhile_eq_self_iff.mpr fun above member => ?_
  obtain ⟨number, listed, rfl⟩ := List.mem_map.mp member
  exact mixes.mixed_element (inside number listed)

/-- The children that are elements are the children in the document without texts. -/
theorem elementChildren (mixes : plain.Mixes mixed) {parent : Nat} (known : parent < plain.size) :
    mixed.elementChildren (mixed.elementAt parent) =
      (plain.elementChildren parent).map mixed.elementAt := by
  have under : ∀ number ∈ List.range plain.size,
      decide (mixed.parent? (mixed.elementAt number) = some (mixed.elementAt parent)) =
        decide (plain.parent? number = some parent) := by
    intro number listed
    rw [decide_eq_decide, mixes.parent? (List.mem_range.mp listed)]
    cases above : plain.parent? number with
    | none => simp
    | some place =>
      rw [Option.map_some, Option.some_inj, Option.some_inj]
      exact mixes.inj (mixes.parent_known above) known
  have whole : plain.elementChildren parent = plain.children parent := by
    refine List.filter_eq_self.mpr fun child member => mixes.plain_element ?_
    exact lt_size_of_parent? (mixes.plain_forest.mem_children_iff.mp member)
  calc mixed.elementChildren (mixed.elementAt parent)
      = mixed.elements.filter fun child => mixed.parent? child = some (mixed.elementAt parent) := by
        rw [Document.elementChildren, mixes.mixed_forest.children_eq, elements, List.filter_comm]
    _ = ((List.range plain.size).filter
          fun number => plain.parent? number = some parent).map mixed.elementAt := by
        rw [← map_elementAt, mixes.count, List.filter_map]
        exact congrArg _ (List.filter_congr under)
    _ = (plain.elementChildren parent).map mixed.elementAt := by
        rw [whole, mixes.plain_forest.children_eq]

theorem siblingIndex? (mixes : plain.Mixes mixed) (known : number < plain.size) :
    mixed.siblingIndex? (mixed.elementAt number) = plain.siblingIndex? number := by
  rw [Document.siblingIndex?, Document.siblingIndex?, mixes.parent? known]
  cases under : plain.parent? number with
  | none => rfl
  | some parent =>
    rw [Option.map_some, Option.bind_some, Option.bind_some,
      mixes.elementChildren (mixes.parent_known under)]
    refine idxOf?_map fun other member => ?_
    have otherKnown := lt_size_of_isElement (List.mem_filter.mp member).2
    exact (mixes.inj otherKnown known).mp

theorem parentElement? (mixes : plain.Mixes mixed) (known : number < plain.size) :
    mixed.parentElement? (mixed.elementAt number) =
      (plain.parentElement? number).map mixed.elementAt := by
  rw [Document.parentElement?, Document.parentElement?, mixes.parent? known]
  cases under : plain.parent? number with
  | none => rfl
  | some parent =>
    have parentKnown := mixes.parent_known under
    rw [Option.map_some, Option.filter_some, if_pos (mixes.mixed_element parentKnown),
      Option.filter_some, if_pos (mixes.plain_element parentKnown), Option.map_some]

/-- Texts between two elements do not keep them from being neighbours. -/
theorem previousElement? (mixes : plain.Mixes mixed) (known : number < plain.size) :
    mixed.previousElement? (mixed.elementAt number) =
      (plain.previousElement? number).map mixed.elementAt := by
  rw [Document.previousElement?, Document.previousElement?, mixes.siblingIndex? known,
    mixes.parentElement? known]
  cases plain.siblingIndex? number with
  | none => rfl
  | some index =>
    cases index with
    | zero => rfl
    | succ index =>
      cases above : plain.parentElement? number with
      | none => rfl
      | some parent =>
        have under := (Option.filter_eq_some_iff.mp above).1
        dsimp only [Option.map_some]
        rw [mixes.elementChildren (mixes.parent_known under), List.getElem?_map]

theorem language? (mixes : plain.Mixes mixed) (known : number < plain.size) :
    mixed.language? (mixed.elementAt number) = plain.language? number := by
  rw [Document.language?, Document.language?, mixes.ancestors known, ← List.map_cons,
    List.findSome?_map]
  refine findSome?_of_agree fun owner member => mixes.attr? ?_ "lang"
  rcases List.mem_cons.mp member with rfl | above
  · exact known
  · exact mixes.ancestors_known known owner above

/-- What selectors see of the document without texts, they see in the one with texts. -/
theorem tree (mixes : plain.Mixes mixed) :
    plain.tree.Copies mixed.elementAt (· < plain.size) mixed.tree where
  tag known := by simp only [Document.tree, mixes.tag? known]
  attr? known key := mixes.attr? known key
  ancestors known := mixes.elementAncestors known
  ancestors_inside known above member :=
    mixes.ancestors_known known above ((List.takeWhile_sublist _).mem member)
  previous? known := mixes.previousElement? known
  previous_inside known previous :=
    Nat.lt_trans (mixes.plain_forest.previousElement?_older previous).1 known
  isFirst known := by simp only [Document.tree, mixes.siblingIndex? known]
  language? known := mixes.language? known
  state known := (mixes.stands known).state

end Views

section Steps

theorem empty : Document.empty.Mixes .empty where
  plain_forest := .empty
  mixed_forest := .empty
  count := rfl
  stands := fun known => absurd known (Nat.not_lt_zero _)

theorem known_iff (mixes : plain.Mixes mixed) :
    mixed.contains (mixed.elementAt number) = true ↔ plain.contains number = true := by
  rw [contains_elementAt, contains_iff, mixes.count]

/-- Nothing moves if a node is added behind the others. -/
theorem stands_push (mixes : plain.Mixes mixed) {content : Content} {parent : Option Nat}
    (older : ∀ place, parent = some place → place < mixed.size) (known : number < plain.size) :
    plain.Stands (mixed.push content parent) number := by
  have placeKnown := lt_size_of_isElement (mixes.mixed_element known)
  have kept : ∀ {number}, number < plain.size →
      (mixed.push content parent).elementAt number = mixed.elementAt number :=
    fun known => elementAt_push older (mixes.count ▸ known)
  have agree : mixed.AgreeOn (· < mixed.size) (mixed.push content parent) :=
    mixes.mixed_forest.agreeOn_push older
  refine ⟨?_, ?_, ?_⟩
  · rw [kept known, content_push older placeKnown, (mixes.stands known).content]
  · rw [kept known, agree.state placeKnown, (mixes.stands known).state]
  · rw [kept known, agree.parent? placeKnown, mixes.parent? known]
    exact Option.map_congr fun parent under => (kept (mixes.parent_known under)).symm

theorem addText (mixes : plain.Mixes mixed) {parent : Nat} {text : String} {grown : Document}
    (run : mixed.addText? parent text = some grown) : plain.Mixes grown := by
  have shape := mixes.mixed_forest.addText run
  obtain ⟨known, same⟩ := Option.ite_none_right_eq_some.mp run
  cases Option.some.inj same
  have older : ∀ place, some parent = some place → place < mixed.size := by
    rintro place ⟨⟩
    exact contains_iff.mp known
  refine ⟨mixes.plain_forest, shape, ?_, fun known => mixes.stands_push older known⟩
  rw [elements_push older]
  exact (congrArg List.length (List.append_nil _)).trans mixes.count

/-- An element that is added to both documents gets the next number. -/
theorem push (mixes : plain.Mixes mixed) (tag : String) (attributes : Entries String String)
    {parent : Option Nat} (older : ∀ place, parent = some place → place < plain.size) :
    (plain.push (.element tag attributes) parent).Mixes
      (mixed.push (.element tag attributes) (parent.map mixed.elementAt)) := by
  have mixedOlder : ∀ place, parent.map mixed.elementAt = some place → place < mixed.size := by
    intro place under
    obtain ⟨number, above, rfl⟩ := Option.map_eq_some_iff.mp under
    exact lt_size_of_isElement (mixes.mixed_element (older number above))
  refine ⟨mixes.plain_forest.push older fun _ => ⟨tag, attributes, rfl⟩,
    mixes.mixed_forest.push mixedOlder fun _ => ⟨tag, attributes, rfl⟩, ?_, ?_⟩
  · rw [elements_push mixedOlder, List.length_append, mixes.count, size_push]
    rfl
  intro number known
  rcases Nat.lt_or_eq_of_le (Nat.le_of_lt_succ (size_push _ _ ▸ known)) with old | rfl
  · exact (mixes.stands_push mixedOlder old).push mixes.plain_forest older old
  · have place : (mixed.push (.element tag attributes) (parent.map mixed.elementAt)).elementAt
        plain.size = mixed.size := mixes.count ▸ elementAt_push_self mixedOlder rfl
    refine ⟨?_, ?_, ?_⟩
    · rw [place, get?_push_self mixedOlder, get?_push_self older]
      rfl
    · rw [place, Document.state, Document.state, get?_push_self mixedOlder, get?_push_self older]
      rfl
    · rw [place, parent?_push mixedOlder, if_pos rfl, parent?_push older, if_pos rfl]
      refine Option.map_congr fun above under => (elementAt_push mixedOlder ?_).symm
      exact mixes.count ▸ older above under

theorem addElement (mixes : plain.Mixes mixed) (parent : Option Nat) (tag : String) :
    (plain.addElement parent tag).Mixes (mixed.addElement (parent.map mixed.elementAt) tag) := by
  have parents : (parent.map mixed.elementAt).filter mixed.contains =
      (parent.filter plain.contains).map mixed.elementAt := by
    rw [Option.filter_map]
    congr 2
    funext place
    exact Bool.eq_iff_iff.mpr mixes.known_iff
  rw [Document.addElement, Document.addElement, parents]
  exact mixes.push _ _ fun _ under => contains_iff.mp (Option.filter_eq_some_iff.mp under).2

/-- An element that is changed in the same way in both documents stays the same in both. -/
theorem update (mixes : plain.Mixes mixed) {change : Node → Node}
    (rewritten : Content → Content) (replaced : NodeState → NodeState)
    (parentKept : ∀ old, (change old).parent = old.parent)
    (childrenKept : ∀ old, (change old).children = old.children)
    (content : ∀ old, (change old).content = rewritten old.content)
    (tagKept : ∀ old, Content.tag? (rewritten old) = Content.tag? old)
    (state : ∀ old, (change old).state = replaced old.state) (known : number < plain.size) :
    (plain.update number change).Mixes (mixed.update (mixed.elementAt number) change) := by
  have kinds : ∀ old, Content.tag? (change old).content = Content.tag? old.content := by
    intro old
    rw [content, tagKept]
  refine ⟨mixes.plain_forest.update parentKept childrenKept kinds,
    mixes.mixed_forest.update parentKept childrenKept kinds, ?_, ?_⟩
  · rw [elements_update kinds, size_update, mixes.count]
  intro other otherKnown
  rw [size_update] at otherKnown
  have stands := mixes.stands otherKnown
  have same := mixes.inj otherKnown known
  refine ⟨?_, ?_, ?_⟩
  · rw [elementAt_update kinds, content_update content, content_update content, stands.content]
    exact if_congr same rfl rfl
  · have placeKnown := lt_size_of_isElement (mixes.mixed_element otherKnown)
    rw [elementAt_update kinds, state_update state placeKnown, state_update state otherKnown,
      stands.state]
    exact if_congr same rfl rfl
  · rw [elementAt_update kinds, parent?_update parentKept, parent?_update parentKept,
      stands.parent?]

/-- The documents stay alike through a call on elements. -/
theorem call (mixes : plain.Mixes mixed) (call : Call) (silent : call.isText = false) :
    (plain.call call).Mixes (mixed.callByNumber call) := by
  cases call with
  | element parent tag => exact mixes.addElement parent tag
  | text parent text => cases silent
  | attr node key value =>
    show ((plain.setAttribute? node key value).getD plain).Mixes
      ((mixed.setAttribute? (mixed.elementAt node) key value).getD mixed)
    unfold setAttribute?
    by_cases known : plain.contains node = true
    · rw [if_pos known, if_pos (mixes.known_iff.mpr known)]
      exact mixes.update (Content.setAttribute (Ascii.lower key) value) id (fun _ => rfl)
        (fun _ => rfl) (fun _ => rfl) (Content.tag?_setAttribute _ value) (fun _ => rfl)
        (contains_iff.mp known)
    · rw [if_neg known, if_neg (mt mixes.known_iff.mp known)]
      exact mixes
  | state node state =>
    show ((plain.setState? node state).getD plain).Mixes
      ((mixed.setState? (mixed.elementAt node) state).getD mixed)
    unfold setState?
    by_cases known : plain.contains node = true
    · rw [if_pos known, if_pos (mixes.known_iff.mpr known)]
      exact mixes.update id (fun _ => state) (fun _ => rfl) (fun _ => rfl) (fun _ => rfl)
        (fun _ => rfl) (fun _ => rfl) (contains_iff.mp known)
    · rw [if_neg known, if_neg (mt mixes.known_iff.mp known)]
      exact mixes

/-- A text does not matter, wherever it is added. -/
theorem text (mixes : plain.Mixes mixed) {call : Call} (text : call.isText = true) :
    plain.Mixes (mixed.callByNumber call) := by
  cases call with
  | text parent words =>
    show plain.Mixes ((mixed.addText? (mixed.elementAt parent) words).getD mixed)
    cases run : mixed.addText? (mixed.elementAt parent) words with
    | none => exact mixes
    | some grown => exact mixes.addText run
  | element | attr | state => cases text

theorem run (mixes : plain.Mixes mixed) (calls : List Call) :
    (plain.run (calls.filter (!·.isText))).Mixes (mixed.runByNumber calls) := by
  induction calls generalizing plain mixed with
  | nil => exact mixes
  | cons first rest ih =>
    cases silent : first.isText with
    | true =>
      rw [List.filter_cons_of_neg (by simp [silent])]
      exact ih (mixes.text silent)
    | false =>
      rw [List.filter_cons_of_pos (by simp [silent])]
      exact ih (mixes.call first silent)

end Steps

end Mixes

section AddTexts

theorem Forest.agreeOn_refl (forest : doc.Forest) : doc.AgreeOn (· < doc.size) doc where
  tag? _ := rfl
  attr? _ _ := rfl
  state _ := rfl
  parent? _ := rfl
  parent_inside known under := Nat.lt_trans (forest.parent_lt under) known
  siblingIndex? _ := rfl
  previousElement? _ := rfl
  previous_inside known previous := Nat.lt_trans (forest.previousElement?_older previous).1 known

/-- No node sees the texts that were added behind it. -/
theorem Forest.agreeOn_addTexts (forest : doc.Forest) {texts : List (Nat × String)}
    {grown : Document} (added : doc.addTexts? texts = some grown) :
    doc.AgreeOn (· < doc.size) grown := by
  induction texts generalizing doc with
  | nil =>
    cases Option.some.inj added
    exact forest.agreeOn_refl
  | cons first rest ih =>
    obtain ⟨middle, front, behind⟩ := Option.bind_eq_some_iff.mp added
    obtain ⟨size, agree⟩ := forest.agreeOn_addText front
    refine agree.trans (ih (forest.addText front) behind) fun known => ?_
    rw [size]
    exact Nat.lt_succ_of_lt known

end AddTexts

end Document

namespace Selector

open Document

/-- Texts are not seen by selectors. Wherever texts are added to a document, its elements meet the
same selectors as before and get the same property sets. And where texts are added while elements are
added and changed, the elements meet the same selectors as they do without any text. -/
theorem holds_beside_texts :
    (∀ doc, Built doc → ∀ texts grown, doc.addTexts? texts = some grown →
      ∀ element, doc.isElement element = true →
        (∀ chain mode, (ofParts chain).holds mode grown.tree element =
          (ofParts chain).holds mode doc.tree element) ∧
        ∀ store mode inline, Cascade.apply store mode grown.tree element inline =
          Cascade.apply store mode doc.tree element inline) ∧
    ∀ calls : List Call,
      let plain := Document.empty.run (calls.filter (!·.isText))
      let mixed := Document.empty.runByNumber calls
      mixed.elements.length = plain.size ∧ ∀ number < plain.size,
        plain.isElement number = true ∧ mixed.isElement (mixed.elementAt number) = true ∧
        ∀ chain mode, (ofParts chain).holds mode mixed.tree (mixed.elementAt number) =
          (ofParts chain).holds mode plain.tree number := by
  constructor
  · intro doc built texts grown added element elementHere
    have agree := (built.forest.agreeOn_addTexts added).tree
    have here := lt_size_of_isElement elementHere
    exact ⟨fun chain _ => holds_of_agree agree (ofParts chain) here,
      fun store _ inline => Cascade.apply_of_agree agree store here inline⟩
  · intro calls plain mixed
    have mixes : plain.Mixes mixed := Mixes.empty.run calls
    refine ⟨mixes.count, fun number known =>
      ⟨mixes.plain_element known, mixes.mixed_element known, fun chain _ => ?_⟩⟩
    exact holds_of_copies mixes.tree (ofParts chain) known

/-- With and without texts the second item follows the first one. -/
theorem holds_beside_texts_items :
    let calls : List Call := [.element none "ul", .text 0 "one", .element (some 0) "li",
      .text 1 "two", .text 0 "three", .element (some 0) "li", .attr 2 "Class" "last", .text 2 "four"]
    let plain := Document.empty.run (calls.filter (!·.isText))
    let mixed := Document.empty.runByNumber calls
    let chain : List SelectorPart := [.condition (.listed "class" "last"), .combinator .adjacent,
      .condition (.tag "li"), .condition (.pseudoClass .firstChild)]
    plain.size = 3 ∧ mixed.size = 7 ∧ mixed.elements = [0, 2, 5] ∧
      (ofParts chain).holds .dynamic plain.tree 2 = true ∧
      (ofParts chain).holds .dynamic mixed.tree 5 = true ∧
      (ofParts chain).holds .dynamic mixed.tree 2 = (ofParts chain).holds .dynamic plain.tree 1 ∧
      (plain.addTexts? [(2, "five"), (3, "six")]).map
        (fun grown => (ofParts chain).holds .dynamic grown.tree 2) = some true := by
  intro calls plain mixed chain
  have same := (holds_beside_texts.2 calls).2 1 (by decide +kernel)
  refine ⟨by decide +kernel, by decide +kernel, by decide +kernel, by decide +kernel,
    by decide +kernel, ?_, by decide +kernel⟩
  exact same.2.2 chain .dynamic

end Selector

end StyleCascade
