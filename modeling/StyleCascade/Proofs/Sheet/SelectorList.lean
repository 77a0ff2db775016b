import Mathlib.Algebra.GroupWithZero.Nat
import StyleCascade.Proofs.Sheet.Arrival
import StyleCascade.Proofs.Sheet.Invariant

namespace StyleCascade

namespace Store

/-- The rules of a ruleset, without their numbers. -/
def rulesetRules (sheet : SheetId) (selectors : List (Selector × Specificity))
    (sets : DeclaredSets) : List Rule :=
  blockRules ⟨sheet, false⟩ sets.normal selectors ++ blockRules ⟨sheet, true⟩ sets.important selectors

/-- Adds a ruleset of its own for each selector. -/
def addSingly (store : Store) (sheet : SheetId) (selectors : List (Selector × Specificity))
    (sets : DeclaredSets) : Store :=
  selectors.foldl (fun result selector => result.addRuleset sheet [selector] sets) store

section Rules

variable {sheet : SheetId} {priority : Priority} {properties : PropertySet} {rule : Rule}
  {selector : Selector × Specificity} {selectors : List (Selector × Specificity)}
  {sets : DeclaredSets} {wanted : Option String → Bool}

/-- A block of several selectors is the block of its first one and the block of the others. -/
theorem blockRules_cons (priority : Priority) (properties : PropertySet)
    (selector : Selector × Specificity) (selectors : List (Selector × Specificity)) :
    blockRules priority properties (selector :: selectors) =
      blockRules priority properties [selector] ++ blockRules priority properties selectors := by
  unfold blockRules
  split <;> rfl

/-- Normal and important rules are collected in either order. -/
theorem foldl_collect_importance (others : List (Selector × Specificity)) (entries : List Rule) :
    (blockRules ⟨sheet, true⟩ sets.important others).foldl (collect wanted)
        ((blockRules ⟨sheet, false⟩ sets.normal selectors).foldl (collect wanted) entries) =
      (blockRules ⟨sheet, false⟩ sets.normal selectors).foldl (collect wanted)
        ((blockRules ⟨sheet, true⟩ sets.important others).foldl (collect wanted) entries) := by
  refine foldl_collect_swap (fun one isNormal other isImportant same => ?_) entries
  have marks : one.important = other.important := CascadeKey.important_eq_of_rank_eq same
  rw [(priority_of_mem_blockRules isNormal).2, (priority_of_mem_blockRules isImportant).2] at marks
  cases marks

/-- The rules of a ruleset find the places that they find selector by selector. -/
theorem foldl_collect_rulesetRules (entries : List Rule) :
    (rulesetRules sheet selectors sets).foldl (collect wanted) entries =
      (selectors.flatMap (fun selector => rulesetRules sheet [selector] sets)).foldl
        (collect wanted) entries := by
  induction selectors generalizing entries with
  | nil =>
    have nothing : rulesetRules sheet [] sets = [] := by simp [rulesetRules, blockRules]
    rw [nothing]
    rfl
  | cons selector rest ih =>
    have normal := blockRules_cons ⟨sheet, false⟩ sets.normal selector rest
    have important := blockRules_cons ⟨sheet, true⟩ sets.important selector rest
    rw [List.flatMap_cons, List.foldl_append, ← ih, rulesetRules, normal, important, rulesetRules,
      rulesetRules]
    simp only [List.foldl_append]
    rw [foldl_collect_importance]

end Rules

theorem Ordered.addRuleset {store : Store} (ordered : store.Ordered) (sheet : SheetId)
    (selectors : List (Selector × Specificity)) (sets : DeclaredSets) :
    (store.addRuleset sheet selectors sets).Ordered :=
  (ordered.addBlock _ _ selectors).addBlock _ _ selectors

theorem Ordered.addSingly {store : Store} (ordered : store.Ordered) (sheet : SheetId)
    (selectors : List (Selector × Specificity)) (sets : DeclaredSets) :
    (store.addSingly sheet selectors sets).Ordered := by
  induction selectors generalizing store with
  | nil => exact ordered
  | cons first rest ih => exact ih (ordered.addRuleset sheet [first] sets)

/-- Stores with the same rules under a tag have the same bucket for it, or none. -/
theorem Ordered.lookup_congr {one other : Store} (ordered : one.Ordered)
    (otherOrdered : other.Ordered) {tag : String}
    (same : (one.rulesOf tag).map Rule.unnumbered = (other.rulesOf tag).map Rule.unnumbered) :
    (one.byTag.lookup tag).map (List.map Rule.unnumbered) =
      (other.byTag.lookup tag).map (List.map Rule.unnumbered) := by
  have noneIff : one.rulesOf tag = [] ↔ other.rulesOf tag = [] := by
    rw [← List.map_eq_nil_iff (f := Rule.unnumbered), same, List.map_eq_nil_iff]
  rw [ordered.lookup_eq, otherOrdered.lookup_eq, if_congr noneIff rfl rfl]
  split
  · rfl
  · exact congrArg some same

namespace Collects

variable {list : Store → List Rule} {wanted : Option String → Bool} {store : Store}

/-- A ruleset adds its normal block and then its important one. -/
theorem addRuleset (collects : Collects list wanted) (ordered : store.Ordered) (sheet : SheetId)
    (selectors : List (Selector × Specificity)) (sets : DeclaredSets) :
    (list (store.addRuleset sheet selectors sets)).map Rule.unnumbered =
      (rulesetRules sheet selectors sets).foldl (collect wanted)
        ((list store).map Rule.unnumbered) :=
  collects.addBlocks ordered sheet selectors sets

/-- Adding the selectors one at a time interleaves the two blocks, which leaves the sorted list the
same. -/
theorem addSingly (collects : Collects list wanted) (ordered : store.Ordered) (sheet : SheetId)
    (selectors : List (Selector × Specificity)) (sets : DeclaredSets) :
    (list (store.addSingly sheet selectors sets)).map Rule.unnumbered =
      (list (store.addRuleset sheet selectors sets)).map Rule.unnumbered := by
  rw [collects.addRuleset ordered, foldl_collect_rulesetRules]
  induction selectors generalizing store with
  | nil => rfl
  | cons first rest ih =>
    have later := ih (ordered.addRuleset sheet [first] sets)
    rw [collects.addRuleset ordered] at later
    rw [List.flatMap_cons, List.foldl_append, ← later]
    rfl

end Collects

section Counts

variable {store : Store} {sheet : SheetId} {selectors others : List (Selector × Specificity)}
  {sets : DeclaredSets}

/-- An empty block lists no priority, and a priority is listed once. -/
theorem priorities_addBlock (store : Store) (priority : Priority) (properties : PropertySet)
    (selectors : List (Selector × Specificity)) :
    (store.addBlock priority properties selectors).priorities =
      if properties.isEmpty = true ∨ priority ∈ store.priorities then store.priorities
      else store.priorities ++ [priority] := by
  unfold addBlock
  by_cases empty : properties.isEmpty = true
  · rw [if_pos empty, if_pos (Or.inl empty)]
  · rw [if_neg empty, priorities_addRules, notePriority]
    by_cases known : priority ∈ store.priorities
    · rw [if_pos (List.contains_iff_mem.mpr known), if_pos (Or.inr known)]
    · rw [if_neg (mt List.contains_iff_mem.mp known), if_neg (not_or.mpr ⟨empty, known⟩)]

/-- The priorities of a ruleset do not depend on its selectors. -/
theorem priorities_addRuleset (store : Store) (sheet : SheetId)
    (selectors others : List (Selector × Specificity)) (sets : DeclaredSets) :
    (store.addRuleset sheet selectors sets).priorities =
      (store.addRuleset sheet others sets).priorities := by
  simp only [addRuleset, priorities_addBlock]

/-- The priorities of a ruleset are noted once. -/
theorem priorities_addRuleset_again :
    ((store.addRuleset sheet selectors sets).addRuleset sheet others sets).priorities =
      (store.addRuleset sheet selectors sets).priorities := by
  simp only [addRuleset, priorities_addBlock]
  grind

theorem priorities_addSingly_of_noted
    (noted : ∀ selector, (store.addRuleset sheet [selector] sets).priorities = store.priorities) :
    (store.addSingly sheet selectors sets).priorities = store.priorities := by
  induction selectors generalizing store with
  | nil => rfl
  | cons first rest ih =>
    exact (ih fun _ => priorities_addRuleset_again).trans (noted first)

theorem priorities_addSingly (some : selectors ≠ []) :
    (store.addSingly sheet selectors sets).priorities =
      (store.addRuleset sheet selectors sets).priorities := by
  cases selectors with
  | nil => exact absurd rfl some
  | cons first rest =>
    have later : ((store.addRuleset sheet [first] sets).addSingly sheet rest sets).priorities =
        (store.addRuleset sheet [first] sets).priorities :=
      priorities_addSingly_of_noted fun _ => priorities_addRuleset_again
    exact later.trans (priorities_addRuleset store sheet [first] (first :: rest) sets)

/-- Each selector counts once for the normal declarations and once for the important ones. -/
theorem size_addRuleset (store : Store) (sheet : SheetId)
    (selectors : List (Selector × Specificity)) (sets : DeclaredSets) :
    (store.addRuleset sheet selectors sets).size =
      store.size + (if sets.normal.isEmpty then 0 else selectors.length) +
        (if sets.important.isEmpty then 0 else selectors.length) := by
  rw [addRuleset, (grows_addBlock _ _ _ _).size, (grows_addBlock _ _ _ _).size]

/-- So the number of rules does not depend on the grouping of the selectors. -/
theorem size_addSingly (store : Store) (sheet : SheetId)
    (selectors : List (Selector × Specificity)) (sets : DeclaredSets) :
    (store.addSingly sheet selectors sets).size =
      (store.addRuleset sheet selectors sets).size := by
  induction selectors generalizing store with
  | nil => simp [addSingly, size_addRuleset]
  | cons first rest ih =>
    have later := ih (store.addRuleset sheet [first] sets)
    rw [addSingly] at later ⊢
    rw [List.foldl_cons, later]
    simp only [size_addRuleset, List.length_cons, List.length_nil]
    split <;> split <;> omega

/-- Nor does the number that is reported to the caller. -/
theorem ruleCount_singly (selectors : List (Selector × Specificity))
    (declarations : List Declaration) :
    (Statement.ruleset selectors declarations).ruleCount =
      (selectors.map (fun selector =>
        (Statement.ruleset [selector] declarations).ruleCount)).sum := by
  induction selectors with
  | nil => simp [Statement.ruleCount]
  | cons first rest ih =>
    rw [List.map_cons, List.sum_cons, ← ih]
    simp only [Statement.ruleCount, List.length_cons, List.length_nil]
    split <;> split <;> omega

end Counts

end Store

namespace Cascade

/-- A selector list stands for a ruleset for each of its selectors: every list of the store gets the
same rules in the same order up to their numbers, the same priorities are noted, as many rules are
added, and every element gets the same sets. -/
theorem apply_addSingly (media : List String) (ops : List Store.Op) (sheet : SheetId)
    (sets : DeclaredSets) {selectors : List (Selector × Specificity)} (some : selectors ≠ []) :
    let store := (Store.empty media).run ops
    let listed := store.addRuleset sheet selectors sets
    let singly := store.addSingly sheet selectors sets
    listed.universal.map Rule.unnumbered = singly.universal.map Rule.unnumbered ∧
      (∀ tag, (listed.byTag.lookup tag).map (List.map Rule.unnumbered) =
        (singly.byTag.lookup tag).map (List.map Rule.unnumbered)) ∧
      listed.priorities = singly.priorities ∧ listed.size = singly.size ∧
      (∀ declarations, (Statement.ruleset selectors declarations).ruleCount =
        (selectors.map (fun selector =>
          (Statement.ruleset [selector] declarations).ruleCount)).sum) ∧
      ∀ {ν : Type} (mode : MatchMode) (tree : Tree ν) (element : ν) (inline : Option InlineStyle),
        apply listed mode tree element inline = apply singly mode tree element inline := by
  intro store listed singly
  have ordered : store.Ordered := (Store.Ordered.empty media).run ops
  have listedOrdered : listed.Ordered := ordered.addRuleset sheet selectors sets
  have singlyOrdered : singly.Ordered := ordered.addSingly sheet selectors sets
  refine ⟨(Store.collects_universal.addSingly ordered sheet selectors sets).symm, fun tag => ?_,
    (Store.priorities_addSingly some).symm, (Store.size_addSingly store sheet selectors sets).symm,
    Store.ruleCount_singly selectors, fun mode tree element inline => ?_⟩
  · exact listedOrdered.lookup_congr singlyOrdered
      ((Store.collects_rulesOf tag).addSingly ordered sheet selectors sets).symm
  · have same := (Store.collects_candidates (tree.tag element)).addSingly ordered sheet selectors sets
    exact apply_eq_of_candidates same.symm mode inline

/-- A selector that comes twice, with normal and important declarations, over older rules. The rules
are numbered otherwise. -/
theorem apply_addSingly_repeated :
    let older := Ascii.bytes "p, .x \x7b float: left !important \x7d"
    let sets := DeclaredSets.ofList [⟨"color", "red", false⟩, ⟨"float", "right", true⟩]
    let typed : Selector × Specificity := (⟨[.tag "p"], []⟩, ⟨0, 0, 1⟩)
    let selectors := [typed, (⟨[.listed "class" "x"], []⟩, ⟨0, 1, 0⟩), typed]
    let store := (Store.empty []).run [.add ⟨.author, 1⟩ older]
    let listed := store.addRuleset ⟨.author, 1⟩ selectors sets
    let singly := store.addSingly ⟨.author, 1⟩ selectors sets
    selectors ≠ [] ∧ listed.size = 8 ∧
      listed.universal.map Rule.sequence ≠ singly.universal.map Rule.sequence ∧
      listed.universal.map Rule.unnumbered = singly.universal.map Rule.unnumbered ∧
      (∀ tag, (listed.byTag.lookup tag).map (List.map Rule.unnumbered) =
        (singly.byTag.lookup tag).map (List.map Rule.unnumbered)) ∧
      listed.priorities = singly.priorities ∧ listed.size = singly.size ∧
      (∀ declarations, (Statement.ruleset selectors declarations).ruleCount =
        (selectors.map (fun selector =>
          (Statement.ruleset [selector] declarations).ruleCount)).sum) ∧
      ∀ {ν : Type} (mode : MatchMode) (tree : Tree ν) (element : ν) (inline : Option InlineStyle),
        apply listed mode tree element inline = apply singly mode tree element inline := by
  intro older sets typed selectors store listed singly
  have some : selectors ≠ [] := by simp [selectors]
  exact ⟨some, by decide +kernel, by decide +kernel,
    apply_addSingly [] [.add ⟨.author, 1⟩ older] ⟨.author, 1⟩ sets some⟩

end Cascade

end StyleCascade
