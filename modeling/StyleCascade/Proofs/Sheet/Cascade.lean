import StyleCascade.Proofs.Sheet.Store
import StyleCascade.Sheet.Cascade

namespace StyleCascade

namespace Selector

variable {ν : Type} {selector : Selector} {mode : MatchMode} {tree : Tree ν} {element : ν}

/-- A subject that asks for an element name is met by elements of that name only. -/
theorem tag_of_holds {tag : String} (subject : selector.subjectTag? = some tag)
    (holds : selector.holds mode tree element = true) : tree.tag element = tag := by
  unfold subjectTag? at subject
  split at subject
  · next name rest asks =>
    cases Option.some.inj subject
    have met := (Bool.and_eq_true_iff.mp holds).1
    rw [asks] at met
    exact of_decide_eq_true (List.all_eq_true.mp met (.tag tag) List.mem_cons_self)
  · cases subject

end Selector

namespace Cascade

variable {ν : Type} {store : Store} {mode : MatchMode} {tree : Tree ν} {element : ν}

/-- Of all rules under tags, those that match an element stand under its name. -/
theorem filter_byTag (entries : Entries String (List Rule)) (tag : String) (matching : Rule → Bool)
    (tags : (entries.map Prod.fst).Nodup)
    (elsewhere : ∀ other rules, (other, rules) ∈ entries → other ≠ tag →
      ∀ rule ∈ rules, matching rule = false) :
    (entries.flatMap Prod.snd).filter matching =
    ((entries.lookup tag).getD []).filter matching := by
  induction entries with
  | nil => rfl
  | cons first rest ih =>
    obtain ⟨name, rules⟩ := first
    obtain ⟨absent, tagsRest⟩ := List.nodup_cons.mp tags
    have ih := ih tagsRest fun other rules listed =>
      elsewhere other rules (List.mem_cons_of_mem _ listed)
    rw [List.flatMap_cons, List.filter_append, ih]
    by_cases same : tag = name
    · subst same
      have noneBehind : rest.lookup tag = none := by
        cases found : rest.lookup tag with
        | none => rfl
        | some behind =>
          have listed := (Entries.lookup_eq_some_iff tagsRest).mp found
          exact absurd (List.mem_map.mpr ⟨_, listed, rfl⟩) absent
      simp [noneBehind]
    · have unmatched : rules.filter matching = [] := by
        refine List.filter_eq_nil_iff.mpr fun rule inside => ?_
        rw [elsewhere name rules List.mem_cons_self (Ne.symm same) rule inside]
        exact Bool.false_ne_true
      have other : (tag == name) = false := beq_false_of_ne same
      rw [unmatched, List.lookup_cons, other, List.nil_append]

/-- The rules that can match are in cascade order. -/
theorem candidates_sorted (ordered : store.Ordered) (tag : String) :
    CascadeKey.Sorted Rule.key (candidates store tag) := by
  have weaken {rules : List Rule} (sorted : CascadeKey.Sorted Rule.key rules) :
      rules.Pairwise (fun one other => (!other.key.beats one.key) = true) :=
    sorted.imp fun stronger => by rw [CascadeKey.not_beats_of_beats stronger]; rfl
  have merged : (candidates store tag).Pairwise (fun one other =>
      (!other.key.beats one.key) = true) := by
    refine List.pairwise_merge ?_ ?_ _ _ (weaken (ordered.rulesOf_sorted tag))
      (weaken ordered.universal_sorted)
    · intro one other third first second
      simp only [Bool.not_eq_true'] at first second ⊢
      exact CascadeKey.not_beats_trans first second
    · intro one other
      cases stronger : other.key.beats one.key with
      | false => rfl
      | true => simp [CascadeKey.not_beats_of_beats stronger]
  -- rules that meet were added at different times, so no two of them have the same rank
  have differ {rules : List Rule} (sorted : CascadeKey.Sorted Rule.key rules) :
      rules.Pairwise (fun one other => one.key.rank ≠ other.key.rank) :=
    sorted.imp fun stronger same => by
      rw [CascadeKey.beats_iff, same] at stronger
      exact lt_irrefl _ stronger
  have ranks : (candidates store tag).Pairwise (fun one other =>
      one.key.rank ≠ other.key.rank) := by
    have together : (store.rulesOf tag ++ store.universal).Pairwise (fun one other =>
        one.key.rank ≠ other.key.rank) := by
      refine List.pairwise_append.mpr ⟨differ (ordered.rulesOf_sorted tag),
        differ ordered.universal_sorted, fun one inside other isUntyped same => ?_⟩
      exact ordered.apart tag _ (ordered.mem_byTag_of_mem inside) one inside other isUntyped
        (CascadeKey.sequence_eq_of_rank_eq same)
    exact (List.merge_perm_append _).symm.pairwise together fun same => same.symm
  exact (merged.and ranks).imp fun ⟨weaker, apart⟩ =>
    CascadeKey.beats_of_not_beats (by simpa using weaker) apart

/-- The rules that match are those of the whole store, in cascade order. -/
theorem matched_perm (ordered : store.Ordered) (mode : MatchMode) (tree : Tree ν) (element : ν) :
    (matched store mode tree element).Perm
      (store.rules.filter (fun rule => rule.selector.holds mode tree element)) := by
  have typed := filter_byTag store.byTag (tree.tag element)
    (fun rule => rule.selector.holds mode tree element) ordered.tags
    (fun other rules listed apart rule inside => by
      cases holds : rule.selector.holds mode tree element with
      | false => rfl
      | true =>
        have asks := Selector.tag_of_holds (ordered.typed other rules listed rule inside) holds
        exact absurd asks.symm apart)
  rw [Store.rules, List.filter_append, typed, ← List.filter_append]
  exact ((List.merge_perm_append _).trans List.perm_append_comm).filter _

/-- The own style of an element with its keys. -/
def inlineSets (inline : Option InlineStyle) : KeyedSets :=
  (inline.elim [] InlineStyle.entries).map (fun (important, set) => (inlineKey important, set))

/-- All sets that apply to an element, from every list of the store and from its own style. -/
def applicable (store : Store) (mode : MatchMode) (tree : Tree ν) (element : ν)
    (inline : Option InlineStyle) : KeyedSets :=
  ofRules (store.rules.filter (fun rule => rule.selector.holds mode tree element)) ++
    inlineSets inline

/-- An inline style is placed like any other set, so all that is known of placing holds of it. -/
theorem withInline_eq (entries : KeyedSets) (inline : Option InlineStyle) :
    withInline entries inline =
      (inlineSets inline).foldl (fun result entry => CascadeKey.place Prod.fst entry result)
        entries := by
  cases inline with
  | none => rfl
  | some style =>
    rw [inlineSets, List.foldl_map]
    rfl

/-- Placing adds exactly the sets that are placed. -/
theorem foldl_place_perm (added entries : KeyedSets) :
    (added.foldl (fun result entry => CascadeKey.place Prod.fst entry result) entries).Perm
      (entries ++ added) := by
  induction added generalizing entries with
  | nil => rw [List.append_nil]; exact .refl _
  | cons first rest ih =>
    have placed := (CascadeKey.place_perm Prod.fst first entries).append_right rest
    exact (ih _).trans (placed.trans List.perm_middle.symm)

/-- Placing sets whose ranks differ from each other and from those present keeps the list strictly
descending. -/
theorem foldl_place_sorted {added entries : KeyedSets}
    (sorted : CascadeKey.Sorted Prod.fst entries)
    (differ : added.Pairwise (fun one other => one.1.rank ≠ other.1.rank))
    (apart : ∀ one ∈ added, ∀ other ∈ entries, one.1.rank ≠ other.1.rank) :
    CascadeKey.Sorted Prod.fst
      (added.foldl (fun result entry => CascadeKey.place Prod.fst entry result) entries) := by
  induction added generalizing entries with
  | nil => exact sorted
  | cons first rest ih =>
    obtain ⟨firstDiffers, differRest⟩ := List.pairwise_cons.mp differ
    refine ih (CascadeKey.place_sorted sorted (apart first List.mem_cons_self)) differRest ?_
    intro one isOne other isOther
    rcases CascadeKey.mem_place.mp isOther with rfl | old
    · exact Ne.symm (firstDiffers one isOne)
    · exact apart one (List.mem_cons_of_mem _ isOne) other old

/-- The two sets of an own style differ in importance. -/
theorem inlineSets_importance_differ (inline : Option InlineStyle) :
    (inlineSets inline).Pairwise (fun one other => one.1.important ≠ other.1.important) := by
  cases inline with
  | none => exact .nil
  | some style =>
    refine List.pairwise_map.mpr (List.Pairwise.filter _ ?_)
    exact List.pairwise_pair.mpr fun same => by cases same

theorem inlineSets_differ (inline : Option InlineStyle) :
    (inlineSets inline).Pairwise (fun one other => one.1.rank ≠ other.1.rank) :=
  (inlineSets_importance_differ inline).imp fun differ same =>
    differ (CascadeKey.important_eq_of_rank_eq same)

/-- The cascade is the naive one: the sets of all rules that match, and those of the element's own
style, in strictly decreasing order. -/
theorem apply_eq_naive (media : List String) (ops : List Store.Op) (mode : MatchMode)
    (tree : Tree ν) (element : ν) (inline : Option InlineStyle) :
    let store := (Store.empty media).run ops
    ∃ entries, apply store mode tree element inline = entries.map Prod.snd ∧
      entries.Perm (applicable store mode tree element inline) ∧
      CascadeKey.Sorted Prod.fst entries := by
  intro store
  have ordered : store.Ordered := (Store.Ordered.empty media).run ops
  have rules := (matched_perm ordered mode tree element).map (fun rule => (rule.key, rule.properties))
  have rulesSorted : CascadeKey.Sorted Prod.fst (ofRules (matched store mode tree element)) :=
    List.pairwise_map.mpr ((candidates_sorted ordered (tree.tag element)).filter _)
  refine ⟨_, rfl, ?_, ?_⟩
  · rw [withInline_eq]
    exact (foldl_place_perm _ _).trans (rules.append_right _)
  · rw [withInline_eq]
    refine foldl_place_sorted rulesSorted (inlineSets_differ inline) ?_
    intro one isInline other isRule same
    -- no rule has the mark of an own style
    obtain ⟨⟨important, set⟩, _, rfl⟩ := List.mem_map.mp isInline
    obtain ⟨rule, _, rfl⟩ := List.mem_map.mp isRule
    cases CascadeKey.inline_eq_of_rank_eq same

end Cascade

end StyleCascade
