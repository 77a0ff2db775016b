import StyleCascade.Proofs.Intern.Pool
import StyleCascade.Proofs.Sheet.Order

namespace StyleCascade

namespace Store

/-- What can be done with a store. -/
inductive Op
  | add (sheet : SheetId) (source : List UInt8)
  | remove (sheet : SheetId)

/-- Adds or removes a sheet. -/
def step (store : Store) : Op → Store
  | .add sheet source => store.add sheet source
  | .remove sheet => store.remove sheet

/-- Adds and removes sheets, one after the other. -/
def run (store : Store) (ops : List Op) : Store :=
  ops.foldl step store

theorem mem_rules_iff {store : Store} {rule : Rule} :
    rule ∈ store.rules ↔
      rule ∈ store.universal ∨ ∃ tag rules, (tag, rules) ∈ store.byTag ∧ rule ∈ rules := by
  simp [rules]

/-- Rules without a subject tag stand in a list of their own. -/
theorem universal_insert (store : Store) (rule : Rule) :
    (store.insert rule).universal =
      if rule.selector.subjectTag? = none then CascadeKey.place Rule.key rule store.universal
      else store.universal := by
  unfold insert
  cases subject : rule.selector.subjectTag? <;> rfl

section

variable (store : Store) (rule : Rule)

-- inserting a rule touches nothing but rules

@[simp]
theorem priorities_insert : (store.insert rule).priorities = store.priorities := by
  unfold insert
  cases rule.selector.subjectTag? <;> rfl

@[simp]
theorem links_insert : (store.insert rule).links = store.links := by
  unfold insert
  cases rule.selector.subjectTag? <;> rfl

@[simp]
theorem media_insert : (store.insert rule).media = store.media := by
  unfold insert
  cases rule.selector.subjectTag? <;> rfl

@[simp]
theorem nextSequence_insert : (store.insert rule).nextSequence = store.nextSequence := by
  unfold insert
  cases rule.selector.subjectTag? <;> rfl

end

/-- All others stand in the list of their tag, which is the only one that an insertion touches. -/
theorem rulesOf_insert (store : Store) (rule : Rule) (tag : String) :
    (store.insert rule).rulesOf tag =
      if rule.selector.subjectTag? = some tag then
        CascadeKey.place Rule.key rule (store.rulesOf tag)
      else store.rulesOf tag := by
  unfold insert
  cases subject : rule.selector.subjectTag? with
  | none => rfl
  | some name =>
    rw [rulesOf, Entries.lookup_put]
    by_cases same : tag = name
    · subst same
      simp
    · have other : (tag == name) = false := beq_false_of_ne same
      have differs : ¬some name = some tag := fun equal => same (Option.some.inj equal).symm
      rw [other, if_neg differs]
      rfl

/-- The lists of a store are in order, and each rule is in the list it belongs to. -/
structure Ordered (store : Store) : Prop where
  tags : (store.byTag.map Prod.fst).Nodup
  filled : ∀ tag rules, (tag, rules) ∈ store.byTag → rules ≠ []
  typed : ∀ tag rules, (tag, rules) ∈ store.byTag →
    ∀ rule ∈ rules, rule.selector.subjectTag? = some tag
  untyped : ∀ rule ∈ store.universal, rule.selector.subjectTag? = none
  typed_sorted : ∀ tag rules, (tag, rules) ∈ store.byTag → CascadeKey.Sorted Rule.key rules
  universal_sorted : CascadeKey.Sorted Rule.key store.universal
  older : ∀ rule ∈ store.rules, rule.sequence < store.nextSequence
  blocks : ∀ rule ∈ store.rules, rule.block ≤ rule.sequence
  apart : ∀ tag rules, (tag, rules) ∈ store.byTag → ∀ one ∈ rules, ∀ other ∈ store.universal,
    one.sequence ≠ other.sequence

namespace Ordered

variable {store : Store}

theorem empty (media : List String) : (Store.empty media).Ordered where
  tags := List.nodup_nil
  filled := by simp [Store.empty]
  typed := by simp [Store.empty]
  untyped := by simp [Store.empty]
  typed_sorted := by simp [Store.empty]
  universal_sorted := List.Pairwise.nil
  older := by simp [Store.empty, rules]
  blocks := by simp [Store.empty, rules]
  apart := by simp [Store.empty]

/-- A tag has the list that stands under it, or none. -/
theorem rulesOf_cases (ordered : store.Ordered) (tag : String) :
    (tag, store.rulesOf tag) ∈ store.byTag ∨ store.rulesOf tag = [] := by
  unfold rulesOf
  cases found : store.byTag.lookup tag with
  | none => exact Or.inr rfl
  | some rules => exact Or.inl ((Entries.lookup_eq_some_iff ordered.tags).mp found)

theorem rulesOf_of_mem (ordered : store.Ordered) {tag : String} {rules : List Rule}
    (listed : (tag, rules) ∈ store.byTag) : store.rulesOf tag = rules := by
  rw [rulesOf, (Entries.lookup_eq_some_iff ordered.tags).mpr listed, Option.getD_some]

/-- A fact about all rules under tags, asked for by tag. -/
theorem mem_byTag_of_mem (ordered : store.Ordered) {tag : String} {rule : Rule}
    (inside : rule ∈ store.rulesOf tag) : (tag, store.rulesOf tag) ∈ store.byTag := by
  rcases ordered.rulesOf_cases tag with listed | none
  · exact listed
  · rw [none] at inside
    cases inside

theorem rulesOf_sorted (ordered : store.Ordered) (tag : String) :
    CascadeKey.Sorted Rule.key (store.rulesOf tag) := by
  rcases ordered.rulesOf_cases tag with listed | none
  · exact ordered.typed_sorted tag _ listed
  · rw [none]
    exact .nil

/-- A bucket is there if and only if it has rules. -/
theorem lookup_eq (ordered : store.Ordered) (tag : String) :
    store.byTag.lookup tag =
      if store.rulesOf tag = [] then none else some (store.rulesOf tag) := by
  unfold rulesOf
  cases found : store.byTag.lookup tag with
  | none => rfl
  | some rules =>
    have listed := (Entries.lookup_eq_some_iff ordered.tags).mp found
    rw [Option.getD_some, if_neg (ordered.filled tag rules listed)]

theorem rank_ne_of_older {rule other : Rule} {next : Nat} (older : other.sequence < next)
    (new : rule.sequence = next) : rule.key.rank ≠ other.key.rank := by
  intro same
  have sequences : rule.sequence = other.sequence := CascadeKey.sequence_eq_of_rank_eq same
  omega

theorem mem_rules_of_rulesOf (ordered : store.Ordered) {tag : String} {rule : Rule}
    (inside : rule ∈ store.rulesOf tag) : rule ∈ store.rules :=
  mem_rules_iff.mpr (Or.inr ⟨tag, _, ordered.mem_byTag_of_mem inside, inside⟩)

/-- What stands under a tag behind an insertion: what stood there, or the new list. -/
theorem mem_byTag_insert (ordered : store.Ordered) {rule : Rule} {tag : String}
    {rules : List Rule} (listed : (tag, rules) ∈ (store.insert rule).byTag) :
    (tag, rules) ∈ store.byTag ∨
      rule.selector.subjectTag? = some tag ∧
        rules = CascadeKey.place Rule.key rule (store.rulesOf tag) := by
  unfold Store.insert at listed
  cases subject : rule.selector.subjectTag? with
  | none =>
    rw [subject] at listed
    exact Or.inl listed
  | some name =>
    rw [subject] at listed
    rcases (Entries.mem_put_iff ordered.tags).mp listed with ⟨rfl, rfl⟩ | ⟨_, old⟩
    · exact Or.inr ⟨rfl, rfl⟩
    · exact Or.inl old

/-- What stands in the list without a tag behind an insertion: what stood there, or the new rule. -/
theorem mem_universal_insert {rule other : Rule}
    (inside : other ∈ (store.insert rule).universal) :
    other ∈ store.universal ∨ other = rule ∧ rule.selector.subjectTag? = none := by
  rw [universal_insert] at inside
  split at inside
  next subject =>
    rcases CascadeKey.mem_place.mp inside with same | old
    · exact Or.inr ⟨same, subject⟩
    · exact Or.inl old
  next => exact Or.inl inside

theorem mem_rules_insert (ordered : store.Ordered) {rule other : Rule}
    (inside : other ∈ (store.insert rule).rules) : other = rule ∨ other ∈ store.rules := by
  rcases mem_rules_iff.mp inside with untyped | ⟨tag, rules, listed, typed⟩
  · rcases mem_universal_insert untyped with old | ⟨same, _⟩
    · exact Or.inr (mem_rules_iff.mpr (Or.inl old))
    · exact Or.inl same
  · rcases ordered.mem_byTag_insert listed with old | ⟨_, rfl⟩
    · exact Or.inr (mem_rules_iff.mpr (Or.inr ⟨tag, rules, old, typed⟩))
    · rcases CascadeKey.mem_place.mp typed with same | old
      · exact Or.inl same
      · exact Or.inr (ordered.mem_rules_of_rulesOf old)

/-- Inserting a rule that is younger than all others, and counting on. -/
theorem insert (ordered : store.Ordered) {rule : Rule}
    (youngest : rule.sequence = store.nextSequence) (block : rule.block ≤ rule.sequence) :
    ({ store.insert rule with nextSequence := store.nextSequence + 1 } : Store).Ordered := by
  have unranked : ∀ other ∈ store.rules, rule.key.rank ≠ other.key.rank :=
    fun other inside => rank_ne_of_older (ordered.older other inside) youngest
  have younger : ∀ other ∈ store.rules, rule.sequence ≠ other.sequence := by
    intro other inside
    have older := ordered.older other inside
    omega
  constructor
  case tags =>
    show ((store.insert rule).byTag.map Prod.fst).Nodup
    unfold Store.insert
    cases rule.selector.subjectTag? with
    | none => exact ordered.tags
    | some tag => exact Entries.nodup_keys_put _ _ ordered.tags
  case filled =>
    intro tag rules listed
    rcases ordered.mem_byTag_insert listed with old | ⟨_, rfl⟩
    · exact ordered.filled tag rules old
    · exact CascadeKey.place_ne_nil _ _ _
  case typed =>
    intro tag rules listed other inside
    rcases ordered.mem_byTag_insert listed with old | ⟨subject, rfl⟩
    · exact ordered.typed tag rules old other inside
    · rcases CascadeKey.mem_place.mp inside with rfl | before
      · exact subject
      · exact ordered.typed tag _ (ordered.mem_byTag_of_mem before) other before
  case untyped =>
    intro other inside
    rcases mem_universal_insert inside with old | ⟨rfl, subject⟩
    · exact ordered.untyped other old
    · exact subject
  case typed_sorted =>
    intro tag rules listed
    rcases ordered.mem_byTag_insert listed with old | ⟨_, rfl⟩
    · exact ordered.typed_sorted tag rules old
    · exact CascadeKey.place_sorted (ordered.rulesOf_sorted tag) fun other inside =>
        unranked other (ordered.mem_rules_of_rulesOf inside)
  case universal_sorted =>
    show CascadeKey.Sorted Rule.key (store.insert rule).universal
    rw [universal_insert]
    split
    · exact CascadeKey.place_sorted ordered.universal_sorted fun other inside =>
        unranked other (mem_rules_iff.mpr (Or.inl inside))
    · exact ordered.universal_sorted
  case older =>
    intro other inside
    rcases ordered.mem_rules_insert inside with rfl | old
    · exact youngest ▸ Nat.lt_succ_self _
    · exact Nat.lt_succ_of_lt (ordered.older other old)
  case blocks =>
    intro other inside
    rcases ordered.mem_rules_insert inside with rfl | old
    · exact block
    · exact ordered.blocks other old
  case apart =>
    intro tag rules listed one inside other isUntyped
    rcases mem_universal_insert isUntyped with oldUntyped | ⟨rfl, noTag⟩
    · rcases ordered.mem_byTag_insert listed with old | ⟨_, rfl⟩
      · exact ordered.apart tag rules old one inside other oldUntyped
      · rcases CascadeKey.mem_place.mp inside with rfl | before
        · exact younger other (mem_rules_iff.mpr (Or.inl oldUntyped))
        · exact ordered.apart tag _ (ordered.mem_byTag_of_mem before) one before other oldUntyped
    · rcases ordered.mem_byTag_insert listed with old | ⟨subject, _⟩
      · exact Ne.symm (younger one (mem_rules_iff.mpr (Or.inr ⟨tag, rules, old, inside⟩)))
      · cases noTag.symm.trans subject

/-- Adding the next rule keeps a store in order. -/
theorem addRule (ordered : store.Ordered) (priority : Priority) (properties : PropertySet)
    {block : Nat} (begun : block ≤ store.nextSequence) (selector : Selector × Specificity) :
    (store.addRule priority properties block selector).Ordered :=
  ordered.insert rfl begun

theorem withLinks (ordered : store.Ordered) (links : List (SheetId × String)) :
    ({ store with links := links } : Store).Ordered :=
  { ordered with }

theorem notePriority (ordered : store.Ordered) (priority : Priority) :
    (store.notePriority priority).Ordered := by
  unfold Store.notePriority
  split
  · exact ordered
  · exact { ordered with }

/-- The lists stay ordered under the rules of one block: the numbers they are given are above all
that were. -/
theorem addRules (ordered : store.Ordered) (priority : Priority) (properties : PropertySet)
    {block : Nat} (begun : block ≤ store.nextSequence)
    (selectors : List (Selector × Specificity)) :
    (selectors.foldl (fun result selector =>
      result.addRule priority properties block selector) store).Ordered := by
  induction selectors generalizing store with
  | nil => exact ordered
  | cons first rest ih =>
    exact ih (ordered.addRule priority properties begun first) (Nat.le_succ_of_le begun)

theorem nextSequence_notePriority (store : Store) (priority : Priority) :
    (store.notePriority priority).nextSequence = store.nextSequence := by
  unfold Store.notePriority
  split <;> rfl

theorem addBlock (ordered : store.Ordered) (priority : Priority) (properties : PropertySet)
    (selectors : List (Selector × Specificity)) :
    (store.addBlock priority properties selectors).Ordered := by
  unfold Store.addBlock
  split
  · exact ordered
  · exact (ordered.notePriority priority).addRules priority properties
      (nextSequence_notePriority store priority).ge selectors

theorem addStatement (ordered : store.Ordered) (sheet : SheetId) (statement : Statement) :
    (Store.addStatement sheet store statement).Ordered := by
  cases statement with
  | ruleset selectors declarations =>
    exact (ordered.addBlock _ _ selectors).addBlock _ _ selectors
  | link url => exact ordered
  | skippedMedia media => exact ordered
  | fault declarations offset cause => exact ordered

theorem addStatements (ordered : store.Ordered) (sheet : SheetId) (statements : List Statement) :
    (statements.foldl (Store.addStatement sheet) store).Ordered := by
  induction statements generalizing store with
  | nil => exact ordered
  | cons first rest ih => exact ih (ordered.addStatement sheet first)

theorem add (ordered : store.Ordered) (sheet : SheetId) (source : List UInt8) :
    (store.add sheet source).Ordered :=
  (ordered.withLinks _).addStatements sheet _

/-- Removing a sheet filters every list and drops the tags that are left without a rule. -/
theorem mem_byTag_remove {sheet : SheetId} {tag : String} {rules : List Rule} :
    (tag, rules) ∈ (store.remove sheet).byTag ↔
      rules ≠ [] ∧ ∃ before, (tag, before) ∈ store.byTag ∧
        rules = before.filter (fun rule => rule.sheet ≠ sheet) := by
  constructor
  · intro listed
    obtain ⟨mapped, filled⟩ := List.mem_filter.mp listed
    obtain ⟨⟨name, before⟩, old, same⟩ := List.mem_map.mp mapped
    obtain ⟨rfl, rfl⟩ := Prod.mk.inj same
    refine ⟨?_, before, old, rfl⟩
    intro none
    rw [none] at filled
    cases filled
  · rintro ⟨filled, before, old, rfl⟩
    refine List.mem_filter.mpr ⟨List.mem_map.mpr ⟨(tag, before), old, rfl⟩, ?_⟩
    simpa using filled

theorem rules_remove (store : Store) (sheet : SheetId) :
    (store.remove sheet).rules = store.rules.filter (fun rule => rule.sheet ≠ sheet) := by
  have flat (entries : Entries String (List Rule)) :
      ((entries.map (fun entry =>
        (entry.1, entry.2.filter (fun rule => decide (rule.sheet ≠ sheet))))).filter
          (fun entry => !entry.2.isEmpty)).flatMap Prod.snd =
        (entries.flatMap Prod.snd).filter (fun rule => decide (rule.sheet ≠ sheet)) := by
    induction entries with
    | nil => rfl
    | cons first rest ih =>
      obtain ⟨tag, rules⟩ := first
      rw [List.flatMap_cons, List.filter_append, ← ih, List.map_cons, List.filter_cons]
      cases emptied : (rules.filter (fun rule => decide (rule.sheet ≠ sheet))).isEmpty with
      | true =>
        have noneLeft := List.isEmpty_iff.mp emptied
        simp only [noneLeft, Bool.not_true, Bool.false_eq_true, if_false, List.nil_append]
      | false => simp only [Bool.not_false, if_true, List.flatMap_cons]
  rw [rules, rules, List.filter_append, ← flat]
  rfl

/-- Removing a sheet leaves the order of the other rules alone. -/
theorem remove (ordered : store.Ordered) (sheet : SheetId) : (store.remove sheet).Ordered where
  tags := by
    have tagsKept :
        ((store.remove sheet).byTag.map Prod.fst).Sublist (store.byTag.map Prod.fst) := by
      refine (List.filter_sublist.map Prod.fst).trans ?_
      rw [List.map_map]
      exact List.Sublist.refl _
    exact ordered.tags.sublist tagsKept
  filled tag rules listed := (mem_byTag_remove.mp listed).1
  typed tag rules listed rule inside := by
    obtain ⟨_, before, old, rfl⟩ := mem_byTag_remove.mp listed
    exact ordered.typed tag before old rule (List.mem_filter.mp inside).1
  untyped rule inside := ordered.untyped rule (List.mem_filter.mp inside).1
  typed_sorted tag rules listed := by
    obtain ⟨_, before, old, rfl⟩ := mem_byTag_remove.mp listed
    exact (ordered.typed_sorted tag before old).filter _
  universal_sorted := ordered.universal_sorted.filter _
  older rule inside := by
    rw [rules_remove] at inside
    exact ordered.older rule (List.mem_filter.mp inside).1
  blocks rule inside := by
    rw [rules_remove] at inside
    exact ordered.blocks rule (List.mem_filter.mp inside).1
  apart tag rules listed one inside other isUntyped := by
    obtain ⟨_, before, old, rfl⟩ := mem_byTag_remove.mp listed
    exact ordered.apart tag before old one (List.mem_filter.mp inside).1 other
      (List.mem_filter.mp isUntyped).1

/-- Removing a sheet takes its rules out of every list. -/
theorem rulesOf_remove (ordered : store.Ordered) (sheet : SheetId) (tag : String) :
    (store.remove sheet).rulesOf tag =
      (store.rulesOf tag).filter (fun rule => rule.sheet ≠ sheet) := by
  rcases (ordered.remove sheet).rulesOf_cases tag with listed | none
  · obtain ⟨_, before, old, same⟩ := mem_byTag_remove.mp listed
    rw [same, ordered.rulesOf_of_mem old]
  · rw [none]
    rcases ordered.rulesOf_cases tag with old | noneBefore
    · refine Decidable.byContradiction fun filled => ?_
      have listed := mem_byTag_remove.mpr ⟨Ne.symm filled, _, old, rfl⟩
      rw [(ordered.remove sheet).rulesOf_of_mem listed] at none
      exact filled none.symm
    · rw [noneBefore]
      rfl

theorem step (ordered : store.Ordered) (op : Op) : (store.step op).Ordered := by
  cases op with
  | add sheet source => exact ordered.add sheet source
  | remove sheet => exact ordered.remove sheet

/-- Every store that can come about is in order. -/
theorem run (ordered : store.Ordered) (ops : List Op) : (store.run ops).Ordered := by
  induction ops generalizing store with
  | nil => exact ordered
  | cons first rest ih => exact ih (ordered.step first)

end Ordered

end Store

end StyleCascade
