import Mathlib.Data.List.Nodup
import StyleCascade.Proofs.Sheet.Append
import StyleCascade.Proofs.Sheet.Cascade

namespace StyleCascade

namespace CascadeKey

/-- What is compared before the number of the rule. -/
def grade (key : CascadeKey) : List Nat :=
  [key.important.toNat, key.origin.rank, key.inline.toNat, key.specificity.ids,
    key.specificity.classes, key.specificity.types, key.sheet]

theorem rank_eq (key : CascadeKey) : key.rank = key.grade ++ [key.sequence] :=
  rfl

/-- Keys are compared front to back, so a last place decides only between equal fronts. -/
theorem append_lt_append_iff {front back : List Nat} {one other : Nat}
    (same : front.length = back.length) :
    front ++ [one] < back ++ [other] ↔ front < back ∨ front = back ∧ one < other := by
  induction front generalizing back with
  | nil =>
    obtain rfl := List.length_eq_zero_iff.mp same.symm
    simp [List.cons_lt_cons_iff]
  | cons first rest ih =>
    cases back with
    | nil => cases same
    | cons head tail =>
      have shorter : rest.length = tail.length := Nat.succ.inj same
      simp only [List.cons_append, List.cons_lt_cons_iff, ih shorter, List.cons.injEq]
      tauto

/-- The number of a rule is looked at last. -/
theorem beats_iff_grade {a b : CascadeKey} :
    a.beats b = true ↔ b.grade < a.grade ∨ b.grade = a.grade ∧ b.sequence < a.sequence := by
  rw [beats_iff, rank_eq, rank_eq]
  exact append_lt_append_iff rfl

theorem rank_ne_of_grade_ne {a b : CascadeKey} (apart : a.grade ≠ b.grade) : a.rank ≠ b.rank := by
  intro same
  rw [rank_eq, rank_eq] at same
  exact apart (List.append_inj_left' same rfl)

/-- A key without the number of its rule. -/
def unnumbered (key : CascadeKey) : CascadeKey :=
  { key with sequence := 0 }

/-- Numbers may be left out if they never speak for the first key. -/
theorem beats_unnumbered {a b : CascadeKey}
    (settled : b.grade = a.grade → a.sequence ≤ b.sequence) :
    a.unnumbered.beats b.unnumbered = a.beats b := by
  rw [Bool.eq_iff_iff, beats_iff_grade, beats_iff_grade]
  refine or_congr_right (and_congr_right fun tie => ?_)
  have older := settled tie
  have still : a.unnumbered.sequence = b.unnumbered.sequence := rfl
  omega

theorem inline_eq_of_grade_eq {a b : CascadeKey} (same : a.grade = b.grade) :
    a.inline = b.inline := by
  have ranks : a.unnumbered.rank = b.unnumbered.rank := congrArg (· ++ [0]) same
  have inlines : a.unnumbered.inline = b.unnumbered.inline := inline_eq_of_rank_eq ranks
  exact inlines

theorem important_eq_of_grade_eq {a b : CascadeKey} (same : a.grade = b.grade) :
    a.important = b.important := by
  have ranks : a.unnumbered.rank = b.unnumbered.rank := congrArg (· ++ [0]) same
  have marks : a.unnumbered.important = b.unnumbered.important := important_eq_of_rank_eq ranks
  exact marks

end CascadeKey

namespace Rule

/-- A rule without its numbers. -/
def unnumbered (rule : Rule) : Rule :=
  { rule with sequence := 0, block := 0 }

/-- Rules of two sheets differ before their numbers are looked at. -/
theorem grade_ne_of_sheet_ne {one other : Rule} (apart : one.sheet ≠ other.sheet) :
    one.key.grade ≠ other.key.grade := by
  obtain ⟨⟨origin, number⟩, _⟩ := one
  obtain ⟨⟨otherOrigin, otherNumber⟩, _⟩ := other
  intro same
  simp only [CascadeKey.grade, key, List.cons.injEq] at same
  obtain ⟨-, origins, -, -, -, -, numbers, -⟩ := same
  apply apart
  cases origin <;> cases otherOrigin <;> cases origins <;> cases numbers <;> rfl

end Rule

namespace Store

/-- The rules of a block, without their numbers. -/
def blockRules (priority : Priority) (properties : PropertySet)
    (selectors : List (Selector × Specificity)) : List Rule :=
  if properties.isEmpty then []
  else
    selectors.map (fun (selector, specificity) =>
      ⟨priority.sheet, priority.important, specificity, 0, selector, properties, 0⟩)

/-- The rules of a statement, without their numbers. -/
def statementRules (sheet : SheetId) : Statement → List Rule
  | .ruleset selectors declarations =>
    let sets := DeclaredSets.ofList declarations
    blockRules ⟨sheet, false⟩ sets.normal selectors ++
      blockRules ⟨sheet, true⟩ sets.important selectors
  | _ => []

/-- The rules of a sheet for some media, without their numbers. -/
def sheetRules (media : List String) (sheet : SheetId) (source : List UInt8) : List Rule :=
  (SheetText.read media source).statements.flatMap (statementRules sheet)

/-- The rules of a block have its sheet and its importance. -/
theorem priority_of_mem_blockRules {priority : Priority} {properties : PropertySet}
    {selectors : List (Selector × Specificity)} {rule : Rule}
    (listed : rule ∈ blockRules priority properties selectors) :
    rule.sheet = priority.sheet ∧ rule.important = priority.important := by
  unfold blockRules at listed
  split at listed
  · cases listed
  · obtain ⟨_, _, rfl⟩ := List.mem_map.mp listed
    exact ⟨rfl, rfl⟩

theorem sheet_of_mem_sheetRules {media : List String} {sheet : SheetId} {source : List UInt8}
    {rule : Rule} (inside : rule ∈ sheetRules media sheet source) : rule.sheet = sheet := by
  obtain ⟨statement, _, listed⟩ := List.mem_flatMap.mp inside
  cases statement with
  | ruleset selectors declarations =>
    rcases List.mem_append.mp listed with normal | important
    · exact (priority_of_mem_blockRules normal).1
    · exact (priority_of_mem_blockRules important).1
  | link | skippedMedia | fault => cases listed

/-- Puts a rule in its place in a list of the rules with some subjects. -/
def collect (wanted : Option String → Bool) (entries : List Rule) (rule : Rule) : List Rule :=
  if wanted rule.selector.subjectTag? then CascadeKey.place Rule.key rule entries else entries

section Collect

variable {wanted : Option String → Bool}

/-- Two rules of different rank can be collected in either order. -/
theorem collect_comm {one other : Rule} (apart : one.key.rank ≠ other.key.rank)
    (entries : List Rule) :
    collect wanted (collect wanted entries other) one =
      collect wanted (collect wanted entries one) other := by
  unfold collect
  by_cases oneWanted : wanted one.selector.subjectTag? = true
  · by_cases otherWanted : wanted other.selector.subjectTag? = true
    · simp only [if_pos oneWanted, if_pos otherWanted, CascadeKey.place_comm apart]
    · simp only [if_pos oneWanted, if_neg otherWanted]
  · simp only [if_neg oneWanted]

/-- A rule can be moved past any number of rules of other ranks. -/
theorem foldl_collect_comm {rule : Rule} {rules : List Rule}
    (apart : ∀ other ∈ rules, rule.key.rank ≠ other.key.rank) (entries : List Rule) :
    collect wanted (rules.foldl (collect wanted) entries) rule =
      rules.foldl (collect wanted) (collect wanted entries rule) := by
  induction rules generalizing entries with
  | nil => rfl
  | cons first rest ih =>
    rw [List.foldl_cons, List.foldl_cons, ← collect_comm (apart first List.mem_cons_self)]
    exact ih (fun other inside => apart other (List.mem_cons_of_mem _ inside)) _

/-- Two lists of rules with different ranks can be collected in either order. -/
theorem foldl_collect_swap {rules others : List Rule}
    (apart : ∀ one ∈ rules, ∀ other ∈ others, one.key.rank ≠ other.key.rank)
    (entries : List Rule) :
    others.foldl (collect wanted) (rules.foldl (collect wanted) entries) =
      rules.foldl (collect wanted) (others.foldl (collect wanted) entries) := by
  induction rules generalizing entries with
  | nil => rfl
  | cons first rest ih =>
    have firstApart := apart first List.mem_cons_self
    rw [List.foldl_cons, List.foldl_cons, foldl_collect_comm firstApart]
    exact ih (fun one inside => apart one (List.mem_cons_of_mem _ inside)) _

end Collect

/-- A list of a store that collects the rules with some subjects. -/
structure Collects (list : Store → List Rule) (wanted : Option String → Bool) : Prop where
  empty : ∀ media, list (.empty media) = []
  frame : ∀ {one other : Store}, one.byTag = other.byTag → one.universal = other.universal →
    list one = list other
  known : ∀ {store : Store}, store.Ordered → ∀ rule ∈ list store, rule ∈ store.rules
  insert : ∀ {store : Store} {rule : Rule}, store.Ordered → rule.sequence = store.nextSequence →
    rule.block ≤ rule.sequence → list (store.insert rule) = collect wanted (list store) rule

theorem collects_universal : Collects universal (fun subject => subject = none) where
  empty _ := rfl
  frame _ same := same
  known _ _ inside := mem_rules_iff.mpr (Or.inl inside)
  insert _ _ _ := by simp only [universal_insert, collect, decide_eq_true_eq]

/-- The list of a tag collects the rules of that subject. -/
theorem collects_rulesOf (tag : String) :
    Collects (fun store => store.rulesOf tag) (fun subject => subject = some tag) where
  empty _ := rfl
  frame same _ := by simp only [rulesOf, same]
  known ordered _ inside := ordered.mem_rules_of_rulesOf inside
  insert _ _ _ := by simp only [rulesOf_insert, collect, decide_eq_true_eq]

/-- The candidates for an element name are sorted as a whole, so a new one among them gets the
same place as if they were kept in one list. -/
theorem collects_candidates (tag : String) :
    Collects (fun store => Cascade.candidates store tag)
      (fun subject => subject = none ∨ subject = some tag) where
  empty _ := by simp [Cascade.candidates, rulesOf, Store.empty]
  frame sameTags same := by simp only [Cascade.candidates, rulesOf, sameTags, same]
  known ordered rule inside := by
    rcases List.mem_merge.mp inside with typed | untyped
    · exact ordered.mem_rules_of_rulesOf typed
    · exact mem_rules_iff.mpr (Or.inl untyped)
  insert {store rule} ordered youngest begun := by
    have parts (other : Store) : (Cascade.candidates other tag).Perm
        (other.rulesOf tag ++ other.universal) := List.merge_perm_append _
    have before := Cascade.candidates_sorted ordered tag
    have after : CascadeKey.Sorted Rule.key (Cascade.candidates (store.insert rule) tag) :=
      Cascade.candidates_sorted (ordered.insert youngest begun) tag
    have older : ∀ other ∈ Cascade.candidates store tag, rule.key.rank ≠ other.key.rank := by
      intro other inside
      refine Ordered.rank_ne_of_older (ordered.older other ?_) youngest
      rcases List.mem_append.mp ((parts store).mem_iff.mp inside) with typed | untyped
      · exact ordered.mem_rules_of_rulesOf typed
      · exact mem_rules_iff.mpr (Or.inl untyped)
    have grown (more : (Cascade.candidates (store.insert rule) tag).Perm
        (rule :: (store.rulesOf tag ++ store.universal))) :
        Cascade.candidates (store.insert rule) tag =
          CascadeKey.place Rule.key rule (Cascade.candidates store tag) := by
      have placed := CascadeKey.place_perm Rule.key rule (Cascade.candidates store tag)
      exact after.eq_of_perm (CascadeKey.place_sorted before older)
        (more.trans (((parts store).symm.cons rule).trans placed.symm))
    have all := parts (store.insert rule)
    rw [rulesOf_insert, universal_insert] at all
    cases subject : rule.selector.subjectTag? with
    | none =>
      simp only [subject, reduceCtorEq, if_false, if_true] at all
      have placed := CascadeKey.place_perm Rule.key rule store.universal
      have wanted := grown (all.trans ((placed.append_left _).trans List.perm_middle))
      simpa [collect, subject] using wanted
    | some name =>
      simp only [subject, reduceCtorEq, if_false, Option.some.injEq] at all
      by_cases same : name = tag
      · simp only [same, if_true] at all
        have placed := CascadeKey.place_perm Rule.key rule (store.rulesOf tag)
        have wanted := grown (all.trans (placed.append_right _))
        simpa [collect, subject, same] using wanted
      · simp only [if_neg same] at all
        have unwanted := after.eq_of_perm before (all.trans (parts store).symm)
        simpa [collect, subject, same] using unwanted

namespace Collects

variable {list : Store → List Rule} {wanted : Option String → Bool} {store : Store}

/-- The next rule of a block goes where it goes without its numbers. -/
theorem addRule (collects : Collects list wanted) (ordered : store.Ordered) (priority : Priority)
    (properties : PropertySet) {block : Nat} (begun : block ≤ store.nextSequence)
    (selector : Selector × Specificity) :
    (list (store.addRule priority properties block selector)).map Rule.unnumbered =
      collect wanted ((list store).map Rule.unnumbered)
        ⟨priority.sheet, priority.important, selector.2, 0, selector.1, properties, 0⟩ := by
  let rule : Rule := ⟨priority.sheet, priority.important, selector.2, store.nextSequence,
    selector.1, properties, block⟩
  have added : list (store.addRule priority properties block selector) =
      collect wanted (list store) rule := by
    have inserted : list (store.insert rule) = collect wanted (list store) rule :=
      collects.insert ordered rfl begun
    have counted : list (store.addRule priority properties block selector) =
        list (store.insert rule) := collects.frame rfl rfl
    exact counted.trans inserted
  have older : ∀ other ∈ list store, other.key.sequence ≤ rule.key.sequence :=
    fun other inside => (ordered.older other (collects.known ordered other inside)).le
  rw [added]
  show (if _ then _ else _ : List Rule).map Rule.unnumbered = if _ then _ else _
  split
  · exact CascadeKey.map_place_of_mem fun other inside =>
      CascadeKey.beats_unnumbered fun _ => older other inside
  · rfl

/-- Adding rules in a row to the store collects them in the list it keeps, up to the numbers they
are given. -/
theorem addRules (collects : Collects list wanted) (ordered : store.Ordered) (priority : Priority)
    (properties : PropertySet) {block : Nat} (begun : block ≤ store.nextSequence)
    (selectors : List (Selector × Specificity)) :
    (list (selectors.foldl (fun result selector =>
      result.addRule priority properties block selector) store)).map Rule.unnumbered =
      (selectors.map (fun (selector, specificity) =>
        (⟨priority.sheet, priority.important, specificity, 0, selector, properties, 0⟩ : Rule))).foldl
          (collect wanted) ((list store).map Rule.unnumbered) := by
  induction selectors generalizing store with
  | nil => rfl
  | cons first rest ih =>
    have next := ih (ordered.addRule priority properties begun first) (Nat.le_succ_of_le begun)
    rw [collects.addRule ordered priority properties begun first] at next
    exact next

/-- The same for the rules of one block. -/
theorem addBlock (collects : Collects list wanted) (ordered : store.Ordered) (priority : Priority)
    (properties : PropertySet) (selectors : List (Selector × Specificity)) :
    (list (store.addBlock priority properties selectors)).map Rule.unnumbered =
      (blockRules priority properties selectors).foldl (collect wanted)
        ((list store).map Rule.unnumbered) := by
  have noted : list (store.notePriority priority) = list store := by
    unfold Store.notePriority
    split
    · rfl
    · exact collects.frame rfl rfl
  have begun := (Ordered.nextSequence_notePriority store priority).ge
  have added := collects.addRules (ordered.notePriority priority) priority properties begun selectors
  rw [noted] at added
  unfold Store.addBlock blockRules
  split
  · rfl
  · exact added

/-- A ruleset adds its normal rules, and then the important ones. -/
theorem addBlocks (collects : Collects list wanted) (ordered : store.Ordered) (sheet : SheetId)
    (selectors : List (Selector × Specificity)) (sets : DeclaredSets) :
    (list ((store.addBlock ⟨sheet, false⟩ sets.normal selectors).addBlock ⟨sheet, true⟩
        sets.important selectors)).map Rule.unnumbered =
      (blockRules ⟨sheet, false⟩ sets.normal selectors ++
        blockRules ⟨sheet, true⟩ sets.important selectors).foldl (collect wanted)
          ((list store).map Rule.unnumbered) := by
  rw [collects.addBlock (ordered.addBlock _ _ selectors), collects.addBlock ordered,
    List.foldl_append]

/-- The same for all the statements of a sheet. -/
theorem addStatements (collects : Collects list wanted) (ordered : store.Ordered)
    (sheet : SheetId) (statements : List Statement) :
    (list (statements.foldl (Store.addStatement sheet) store)).map Rule.unnumbered =
      (statements.flatMap (statementRules sheet)).foldl (collect wanted)
        ((list store).map Rule.unnumbered) := by
  induction statements generalizing store with
  | nil => rfl
  | cons first rest ih =>
    have step : (list (Store.addStatement sheet store first)).map Rule.unnumbered =
        (statementRules sheet first).foldl (collect wanted) ((list store).map Rule.unnumbered) := by
      cases first with
      | ruleset selectors declarations =>
        exact collects.addBlocks ordered sheet selectors (DeclaredSets.ofList declarations)
      | link | skippedMedia | fault => rfl
    rw [List.foldl_cons, ih (ordered.addStatement sheet first), step, List.flatMap_cons,
      List.foldl_append]

/-- What a sheet adds to a list only depends on the media in force. -/
theorem add (collects : Collects list wanted) (ordered : store.Ordered) (sheet : SheetId)
    (source : List UInt8) :
    (list (store.add sheet source)).map Rule.unnumbered =
      (sheetRules store.media sheet source).foldl (collect wanted)
        ((list store).map Rule.unnumbered) := by
  let text := store.readText source
  let linked := store.noteLinks
    ((text.statements.filterMap Statement.link?).map (fun url => (sheet, url)))
  have same : list linked = list store := collects.frame rfl rfl
  have statements := collects.addStatements (ordered.withLinks linked.links) sheet text.statements
  rw [← same]
  exact statements

/-- What adding sheets to an empty store leaves in a list. -/
theorem run_adds (collects : Collects list wanted) (ordered : store.Ordered)
    (sheets : List (SheetId × List UInt8)) :
    (list (store.run (sheets.map (fun (sheet, source) => .add sheet source)))).map
        Rule.unnumbered =
      sheets.foldl (fun entries (sheet, source) =>
        (sheetRules store.media sheet source).foldl (collect wanted) entries)
          ((list store).map Rule.unnumbered) := by
  induction sheets generalizing store with
  | nil => rfl
  | cons first rest ih =>
    obtain ⟨sheet, source⟩ := first
    have later := ih (ordered.add sheet source)
    rw [collects.add ordered sheet source, media_add] at later
    exact later

/-- Sheets of different identities come to the same list in any order. -/
theorem run_perm (collects : Collects list wanted) (media : List String)
    {sheets others : List (SheetId × List UInt8)} (perm : sheets.Perm others)
    (distinct : (sheets.map Prod.fst).Nodup) :
    (list ((Store.empty media).run (sheets.map (fun (sheet, source) => .add sheet source)))).map
        Rule.unnumbered =
      (list ((Store.empty media).run (others.map (fun (sheet, source) => .add sheet source)))).map
        Rule.unnumbered := by
  have ordered := Ordered.empty media
  rw [collects.run_adds ordered, collects.run_adds ordered]
  refine perm.foldl_eq' ?_ _
  rintro ⟨sheet, source⟩ inside ⟨other, otherSource⟩ otherInside entries
  by_cases same : sheet = other
  · -- one identity stands for one sheet
    have pairs := List.inj_on_of_nodup_map distinct inside otherInside same
    rw [pairs]
  · refine foldl_collect_swap ?_ entries
    intro one isOne two isTwo
    rw [← sheet_of_mem_sheetRules isOne, ← sheet_of_mem_sheetRules isTwo] at same
    exact CascadeKey.rank_ne_of_grade_ne (Rule.grade_ne_of_sheet_ne same)

end Collects

end Store

namespace Cascade

/-- A set with its key, without the number of its rule. -/
def unnumbered (entry : CascadeKey × PropertySet) : CascadeKey × PropertySet :=
  (entry.1.unnumbered, entry.2)

/-- Sets whose keys differ before their numbers are looked at find their places without them. -/
theorem map_foldl_place {added entries : KeyedSets}
    (differ : added.Pairwise (fun one other => one.1.grade ≠ other.1.grade))
    (apart : ∀ one ∈ added, ∀ other ∈ entries, one.1.grade ≠ other.1.grade) :
    (added.foldl (fun result entry => CascadeKey.place Prod.fst entry result) entries).map
        unnumbered =
      (added.map unnumbered).foldl (fun result entry => CascadeKey.place Prod.fst entry result)
        (entries.map unnumbered) := by
  induction added generalizing entries with
  | nil => rfl
  | cons first rest ih =>
    obtain ⟨firstDiffers, differRest⟩ := List.pairwise_cons.mp differ
    have firstApart := apart first List.mem_cons_self
    have placed : (CascadeKey.place Prod.fst first entries).map unnumbered =
        CascadeKey.place Prod.fst (unnumbered first) (entries.map unnumbered) :=
      CascadeKey.map_place_of_mem fun other inside =>
        CascadeKey.beats_unnumbered fun tie => absurd tie (firstApart other inside)
    have restApart : ∀ one ∈ rest, ∀ other ∈ CascadeKey.place Prod.fst first entries,
        one.1.grade ≠ other.1.grade := by
      intro one isOne other isOther
      rcases CascadeKey.mem_place.mp isOther with rfl | old
      · exact Ne.symm (firstDiffers one isOne)
      · exact apart one (List.mem_cons_of_mem _ isOne) other old
    have later := ih differRest restApart
    rw [placed] at later
    exact later

theorem inlineSets_grades_differ (inline : Option InlineStyle) :
    (inlineSets inline).Pairwise (fun one other => one.1.grade ≠ other.1.grade) :=
  (inlineSets_importance_differ inline).imp fun differ same =>
    differ (CascadeKey.important_eq_of_grade_eq same)

/-- The cascade does not look at the numbers of the candidates once they are in order. -/
theorem apply_eq_of_candidates {ν : Type} {one other : Store} {tree : Tree ν} {element : ν}
    (same : (candidates one (tree.tag element)).map Rule.unnumbered =
      (candidates other (tree.tag element)).map Rule.unnumbered)
    (mode : MatchMode) (inline : Option InlineStyle) :
    apply one mode tree element inline = apply other mode tree element inline := by
  have matchedUnnumbered (store : Store) : (matched store mode tree element).map Rule.unnumbered =
      ((candidates store (tree.tag element)).map Rule.unnumbered).filter
        (fun rule => rule.selector.holds mode tree element) := by
    rw [List.filter_map]
    rfl
  have applied (store : Store) : apply store mode tree element inline =
      (((inlineSets inline).map unnumbered).foldl
        (fun result entry => CascadeKey.place Prod.fst entry result)
          (ofRules ((matched store mode tree element).map Rule.unnumbered))).map Prod.snd := by
    have apart : ∀ own ∈ inlineSets inline, ∀ entry ∈ ofRules (matched store mode tree element),
        own.1.grade ≠ entry.1.grade := by
      intro own isOwn entry isRule tie
      obtain ⟨⟨important, set⟩, _, rfl⟩ := List.mem_map.mp isOwn
      obtain ⟨rule, _, rfl⟩ := List.mem_map.mp isRule
      cases CascadeKey.inline_eq_of_grade_eq tie
    have bare : (ofRules (matched store mode tree element)).map unnumbered =
        ofRules ((matched store mode tree element).map Rule.unnumbered) := by
      rw [ofRules, ofRules, List.map_map, List.map_map]
      rfl
    have sets (entries : KeyedSets) : (entries.map unnumbered).map Prod.snd = entries.map Prod.snd := by
      rw [List.map_map]
      rfl
    rw [apply, ← sets, withInline_eq, map_foldl_place (inlineSets_grades_differ inline) apart, bare]
  rw [applied, applied, matchedUnnumbered, matchedUnnumbered, same]

/-- Sheets of different identities can be added in any order: every list of the store has the same
rules in the same order up to their numbers, and every element gets the same sets. -/
theorem apply_run_perm (media : List String) {sheets others : List (SheetId × List UInt8)}
    (perm : sheets.Perm others) (distinct : (sheets.map Prod.fst).Nodup) :
    let one := (Store.empty media).run (sheets.map (fun (sheet, source) => .add sheet source))
    let other := (Store.empty media).run (others.map (fun (sheet, source) => .add sheet source))
    one.universal.map Rule.unnumbered = other.universal.map Rule.unnumbered ∧
      (∀ tag, (one.byTag.lookup tag).map (List.map Rule.unnumbered) =
        (other.byTag.lookup tag).map (List.map Rule.unnumbered)) ∧
      ∀ {ν : Type} (mode : MatchMode) (tree : Tree ν) (element : ν) (inline : Option InlineStyle),
        apply one mode tree element inline = apply other mode tree element inline := by
  intro one other
  refine ⟨Store.collects_universal.run_perm media perm distinct, ?_, ?_⟩
  · intro tag
    have lists : (one.rulesOf tag).map Rule.unnumbered = (other.rulesOf tag).map Rule.unnumbered :=
      (Store.collects_rulesOf tag).run_perm media perm distinct
    have looked (store : Store) (ordered : store.Ordered) :
        (store.byTag.lookup tag).map (List.map Rule.unnumbered) =
          if (store.rulesOf tag).map Rule.unnumbered = [] then none
          else some ((store.rulesOf tag).map Rule.unnumbered) := by
      rw [ordered.lookup_eq]
      by_cases noneThere : store.rulesOf tag = []
      · simp [noneThere]
      · simp [noneThere]
    have ordered := Store.Ordered.empty media
    rw [looked one (ordered.run _), looked other (ordered.run _), lists]
  · intro ν mode tree element inline
    have same := (Store.collects_candidates (tree.tag element)).run_perm media perm distinct
    exact apply_eq_of_candidates same mode inline

/-- A sheet of the reader between two of the author, all with rules for the same elements. -/
theorem apply_run_perm_three_sheets :
    let first := Ascii.bytes "p \x7b color: red \x7d .x, p.x \x7b float: left; color: pink !important \x7d"
    let second := Ascii.bytes "p.x \x7b color: blue \x7d div .x \x7b color: green \x7d"
    let third := Ascii.bytes "p \x7b color: gray !important \x7d"
    let sheets : List (SheetId × List UInt8) :=
      [(⟨.author, 1⟩, first), (⟨.user, 1⟩, third), (⟨.author, 2⟩, second)]
    let one := (Store.empty []).run (sheets.map (fun (sheet, source) => .add sheet source))
    let other := (Store.empty []).run (sheets.reverse.map (fun (sheet, source) => .add sheet source))
    sheets.Perm sheets.reverse ∧ (sheets.map Prod.fst).Nodup ∧ one.size = 8 ∧
      one.universal.map Rule.unnumbered = other.universal.map Rule.unnumbered ∧
      (∀ tag, (one.byTag.lookup tag).map (List.map Rule.unnumbered) =
        (other.byTag.lookup tag).map (List.map Rule.unnumbered)) ∧
      ∀ {ν : Type} (mode : MatchMode) (tree : Tree ν) (element : ν) (inline : Option InlineStyle),
        apply one mode tree element inline = apply other mode tree element inline := by
  intro first second third sheets one other
  have perm : sheets.Perm sheets.reverse := (List.reverse_perm sheets).symm
  have distinct : (sheets.map Prod.fst).Nodup := by decide
  exact ⟨perm, distinct, by decide +kernel, apply_run_perm [] perm distinct⟩

end Cascade

end StyleCascade
