import Mathlib.Data.List.Nodup
import StyleCascade.Proofs.Sheet.Append

namespace StyleCascade

namespace Selector

theorem ne_nil_of_takeList {tokens rest : List Token} {selectors : List (Selector × Specificity)}
    (read : takeList tokens = .ok (selectors, rest)) : selectors ≠ [] := by
  fun_induction takeList tokens with
  | case1 => cases read
  | case2 => cases read
  | case3 tokens selector behind taken next more shape comma ih =>
    obtain ⟨_, _, same⟩ := Reading.map_eq_ok.mp read
    cases same
    exact List.cons_ne_nil _ _
  | case4 =>
    cases read
    exact List.cons_ne_nil _ _
  | case5 => cases read

end Selector

namespace Statement

/-- The selectors of a ruleset are of a kind. -/
def Selects (good : List (Selector × Specificity) → Prop) : Statement → Prop
  | .ruleset selectors _ => good selectors
  | _ => True

/-- A ruleset has a selector. -/
abbrev Headed : Statement → Prop :=
  Selects (· ≠ [])

variable {good : List (Selector × Specificity) → Prop} {limit : Nat} {source : List UInt8}
  {media : List String} {token : Token} {tokens : List Token}

/-- Lists of selectors that are read from tokens up to a number of them are of the kind. -/
def SelectsWithin (good : List (Selector × Specificity) → Prop) (limit : Nat) : Prop :=
  ∀ tokens selectors rest, tokens.length ≤ limit →
    Selector.takeList tokens = .ok (selectors, rest) → good selectors

/-- The rulesets that reading a statement comes to have selectors of the kind. -/
def SelectsReading (good : List (Selector × Specificity) → Prop) (reading : StatementReading) :
    Prop :=
  ∀ statements rest, reading = .ok (statements, rest) →
    ∀ statement ∈ statements, statement.Selects good

theorem selects_nothing (rest : List Token) : SelectsReading good (.ok ([], rest)) := by
  intro statements behind read
  cases read
  exact List.forall_mem_nil _

theorem selects_takeRuleset (kind : SelectsWithin good limit) (short : tokens.length ≤ limit) :
    SelectsReading good (takeRuleset source tokens) := by
  intro statements rest read
  unfold takeRuleset at read
  split at read
  · cases read
  next selectors behind listed =>
  split at read
  · cases read
  unfold takeBlock at read
  simp only at read
  split at read
  · cases read
  · cases read
    exact List.forall_mem_singleton.mpr (kind tokens selectors behind short listed)

theorem selects_takeDescription : SelectsReading good (takeDescription tokens) := by
  fun_induction takeDescription tokens with
  | case1 | case2 | case3 => exact selects_nothing _
  | case4 => exact fun _ _ read => by cases read
  | case5 token more _ _ _ ih => exact ih

theorem selects_takeLink : SelectsReading good (takeLink tokens) := by
  intro statements rest read
  unfold takeLink at read
  split at read
  · cases read
  split at read
  · cases read
  split at read
  · cases read
  · cases read
    exact List.forall_mem_singleton.mpr True.intro

theorem selects_takePlain (kind : SelectsWithin good limit)
    (short : (token :: tokens).length ≤ limit) :
    SelectsReading good (takePlain source token tokens) := by
  unfold takePlain
  split
  · exact selects_nothing _
  · exact selects_takeDescription
  · exact selects_takeDescription
  · exact selects_takeRuleset kind short

theorem selects_settle {reading : StatementReading} (selects : SelectsReading good reading) :
    ∀ statement ∈ (settle source tokens reading).1, statement.Selects good := by
  cases reading with
  | ok found => exact selects found.1 found.2 rfl
  | error failed => exact List.forall_mem_singleton.mpr True.intro

theorem selects_readNested (kind : SelectsWithin good limit) (short : tokens.length ≤ limit) :
    ∀ statement ∈ (readNested source tokens).1, statement.Selects good := by
  fun_induction readNested source tokens with
  | case1 | case2 => exact List.forall_mem_nil _
  | case3 tokens token rest front inner outcome more ih =>
    have gap := Token.length_skipSpace_le tokens
    rw [front] at gap
    have less : outcome.2.length < (token :: rest).length :=
      length_settle_lt fun _ _ read => length_lt_of_takePlain read
    exact List.forall_mem_append.mpr
      ⟨selects_settle (selects_takePlain kind (by omega)), ih (by omega)⟩

theorem selects_takeMedia (kind : SelectsWithin good limit) (short : tokens.length ≤ limit) :
    SelectsReading good (takeMedia source media tokens) := by
  intro statements rest read
  unfold takeMedia at read
  split at read
  · cases read
  next names inner named =>
  have less := length_lt_of_takeMediaNames named
  split at read
  · cases read
    exact selects_readNested kind (by omega)
  · cases read
    exact List.forall_mem_singleton.mpr True.intro

theorem selects_takeOuter (kind : SelectsWithin good limit)
    (short : (token :: tokens).length ≤ limit) :
    SelectsReading good (takeOuter source media token tokens) := by
  unfold takeOuter
  split
  · exact selects_takeLink
  · exact selects_takeMedia kind (Nat.le_of_succ_le short)
  · exact selects_takePlain kind short

/-- Every ruleset that is read has selectors of the kind. -/
theorem selects_readAll (kind : SelectsWithin good limit) (short : tokens.length ≤ limit) :
    ∀ statement ∈ readAll source media tokens, statement.Selects good := by
  fun_induction readAll source media tokens with
  | case1 => exact List.forall_mem_nil _
  | case2 tokens token rest front outcome ih =>
    have gap := Token.length_skipSpace_le tokens
    rw [front] at gap
    have less : outcome.2.length < (token :: rest).length :=
      length_settle_lt fun _ _ read => length_lt_of_takeOuter read
    exact List.forall_mem_append.mpr
      ⟨selects_settle (selects_takeOuter kind (by omega)), ih (by omega)⟩

theorem headed_readAll : ∀ statement ∈ readAll source media tokens, statement.Headed :=
  selects_readAll (fun _ _ _ _ read => Selector.ne_nil_of_takeList read) (Nat.le_refl _)

end Statement

namespace Store

section Rules

variable {store : Store} {rule : Rule} {priority other : Priority} {properties : PropertySet}
  {block : Nat} {selector : Selector × Specificity} {selectors : List (Selector × Specificity)}

/-- When the list of one tag grows by a rule, so do the rules of all tags taken together. -/
theorem flatMap_put_perm {tag : String} {rules : List Rule} (entries : Entries String (List Rule))
    (grown : rules.Perm (rule :: (entries.lookup tag).getD [])) :
    ((Entries.put tag rules entries).flatMap Prod.snd).Perm
      (rule :: entries.flatMap Prod.snd) := by
  induction entries with
  | nil =>
    rw [Entries.put, List.flatMap_cons, List.flatMap_nil, List.append_nil]
    exact grown
  | cons first rest ih =>
    obtain ⟨name, old⟩ := first
    by_cases same : tag = name
    · subst same
      rw [List.lookup_cons_self, Option.getD_some] at grown
      rw [Entries.put, if_pos (beq_self_eq_true tag)]
      exact grown.append_right _
    · have apart : (name == tag) = false := beq_false_of_ne (Ne.symm same)
      rw [List.lookup_cons, beq_false_of_ne same] at grown
      rw [Entries.put, apart, if_neg Bool.false_ne_true, List.flatMap_cons, List.flatMap_cons]
      exact ((ih grown).append_left old).trans List.perm_middle

/-- A store that a rule is inserted into has this rule beside its own. -/
theorem rules_insert_perm (store : Store) (rule : Rule) :
    (store.insert rule).rules.Perm (rule :: store.rules) := by
  unfold insert
  cases rule.selector.subjectTag? with
  | none => exact (CascadeKey.place_perm Rule.key rule store.universal).append_right _
  | some tag =>
    have placed := CascadeKey.place_perm Rule.key rule (store.rulesOf tag)
    exact ((flatMap_put_perm store.byTag placed).append_left store.universal).trans
      List.perm_middle

/-- A rule of the store has a priority. -/
def Carries (store : Store) (priority : Priority) : Prop :=
  ∃ rule ∈ store.rules, rule.priority = priority

theorem carries_addRule :
    (store.addRule priority properties block selector).Carries other ↔
      other = priority ∨ store.Carries other := by
  have perm : (store.addRule priority properties block selector).rules.Perm _ :=
    rules_insert_perm store _
  simp only [Carries, perm.mem_iff, List.mem_cons, or_and_right, exists_or, exists_eq_left]
  exact or_congr_left eq_comm

/-- A store has grown by some rules, each with a number of its own. -/
structure Grows (store grown : Store) (rules : Nat) : Prop where
  size : grown.size = store.size + rules
  numbers : grown.nextSequence = store.nextSequence + rules

theorem Grows.refl (store : Store) : store.Grows store 0 :=
  ⟨rfl, rfl⟩

theorem Grows.trans {grown last : Store} {some more : Nat} (first : store.Grows grown some)
    (second : grown.Grows last more) : store.Grows last (some + more) :=
  ⟨by rw [second.size, first.size, Nat.add_assoc],
    by rw [second.numbers, first.numbers, Nat.add_assoc]⟩

theorem grows_addRule :
    store.Grows (store.addRule priority properties block selector) 1 :=
  ⟨(rules_insert_perm store _).length_eq, rfl⟩

/-- After a block a priority is carried if it was before, or if it is the block's own. -/
theorem carries_addRules (some : selectors ≠ []) :
    (selectors.foldl (fun result selector =>
      result.addRule priority properties block selector) store).Carries other ↔
        other = priority ∨ store.Carries other := by
  induction selectors generalizing store with
  | nil => exact absurd rfl some
  | cons first rest ih =>
    rw [List.foldl_cons]
    by_cases last : rest = []
    · rw [last, List.foldl_nil, carries_addRule]
    · rw [ih last, carries_addRule, ← or_assoc, or_self]

theorem grows_addRules :
    store.Grows (selectors.foldl (fun result selector =>
      result.addRule priority properties block selector) store) selectors.length := by
  induction selectors generalizing store with
  | nil => exact Grows.refl store
  | cons first rest ih =>
    rw [List.length_cons, Nat.add_comm]
    exact grows_addRule.trans ih

theorem priorities_addRules :
    (selectors.foldl (fun result selector =>
      result.addRule priority properties block selector) store).priorities = store.priorities := by
  induction selectors generalizing store with
  | nil => rfl
  | cons first rest ih => exact ih.trans (priorities_insert store _)

theorem rules_notePriority : (store.notePriority priority).rules = store.rules := by
  unfold notePriority
  split <;> rfl

theorem mem_priorities_notePriority :
    other ∈ (store.notePriority priority).priorities ↔
      other = priority ∨ other ∈ store.priorities := by
  unfold notePriority
  split
  · next known =>
    have listed := List.contains_iff_mem.mp known
    exact ⟨Or.inr, fun either => either.elim (fun same => same ▸ listed) id⟩
  · simp only [List.mem_append, List.mem_singleton]
    exact Or.comm

/-- An empty block adds nothing; every other adds one rule for each selector. -/
theorem grows_addBlock (store : Store) (priority : Priority) (properties : PropertySet)
    (selectors : List (Selector × Specificity)) :
    store.Grows (store.addBlock priority properties selectors)
      (if properties.isEmpty then 0 else selectors.length) := by
  have noted : store.Grows (store.notePriority priority) 0 :=
    ⟨congrArg List.length rules_notePriority, Ordered.nextSequence_notePriority store priority⟩
  unfold addBlock
  split
  · exact Grows.refl store
  · rw [← Nat.zero_add selectors.length]
    exact noted.trans grows_addRules

theorem grows_addStatement (store : Store) (sheet : SheetId) (statement : Statement) :
    store.Grows (addStatement sheet store statement) statement.ruleCount := by
  cases statement with
  | ruleset selectors declarations =>
    exact (grows_addBlock store _ _ selectors).trans (grows_addBlock _ _ _ selectors)
  | link | skippedMedia | fault => exact Grows.refl store

/-- By induction over the statements, the store grows by what they report. -/
theorem grows_addStatements (store : Store) (sheet : SheetId) (statements : List Statement) :
    store.Grows (statements.foldl (addStatement sheet) store)
      (statements.foldl (fun total statement => total + statement.ruleCount) 0) := by
  induction statements generalizing store with
  | nil => exact Grows.refl store
  | cons first rest ih =>
    rw [List.foldl_cons, List.foldl_cons, SheetText.foldl_ruleCount, Nat.zero_add]
    exact (grows_addStatement store sheet first).trans (ih _)

/-- A sheet adds as many rules as it counts, each with a number of its own. -/
theorem grows_add (store : Store) (sheet : SheetId) (source : List UInt8) :
    store.Grows (store.add sheet source) (store.readText source).counts.rules := by
  have linked (links : List (SheetId × String)) : store.Grows { store with links := links } 0 :=
    ⟨rfl, rfl⟩
  rw [← Nat.zero_add (store.readText source).counts.rules]
  exact (linked _).trans (grows_addStatements _ sheet _)

end Rules

/-- The representation of a store: its lists are in order, its rules are numbered apart, and the
priorities on note are those of its rules. -/
structure WellFormed (store : Store) : Prop extends store.Ordered where
  numbered : (store.rules.map Rule.sequence).Nodup
  priorities_apart : store.priorities.Nodup
  noted : ∀ priority, priority ∈ store.priorities ↔ store.Carries priority

namespace WellFormed

variable {store : Store} {priority : Priority} {properties : PropertySet} {block : Nat}
  {selectors : List (Selector × Specificity)}

theorem empty (media : List String) : (Store.empty media).WellFormed :=
  { Ordered.empty media with
    numbered := List.nodup_nil
    priorities_apart := List.nodup_nil
    noted := by simp [Store.empty, Carries, rules] }

/-- A new rule takes a number that no rule had. -/
theorem numbered_addRule (ordered : store.Ordered)
    (numbered : (store.rules.map Rule.sequence).Nodup) (selector : Selector × Specificity) :
    ((store.addRule priority properties block selector).rules.map Rule.sequence).Nodup := by
  have perm : (store.addRule priority properties block selector).rules.Perm _ :=
    rules_insert_perm store _
  rw [(perm.map Rule.sequence).nodup_iff, List.map_cons, List.nodup_cons]
  refine ⟨fun old => ?_, numbered⟩
  -- the number of the rule is one that no rule had before
  obtain ⟨rule, inside, same⟩ := List.mem_map.mp old
  have older := ordered.older rule inside
  simp only at same
  omega

/-- Sequence numbers stay apart, since each new rule takes a number above all that were given. -/
theorem numbered_addRules (ordered : store.Ordered) (begun : block ≤ store.nextSequence)
    (numbered : (store.rules.map Rule.sequence).Nodup) :
    ((selectors.foldl (fun result selector =>
      result.addRule priority properties block selector) store).rules.map Rule.sequence).Nodup := by
  induction selectors generalizing store with
  | nil => exact numbered
  | cons first rest ih =>
    have next := ordered.addRule priority properties begun first
    exact ih next (Nat.le_succ_of_le begun) (numbered_addRule ordered numbered first)

theorem priorities_apart_notePriority (apart : store.priorities.Nodup) :
    (store.notePriority priority).priorities.Nodup := by
  unfold Store.notePriority
  split
  · exact apart
  · next new =>
    have absent : priority ∉ store.priorities := fun old => new (List.contains_iff_mem.mpr old)
    exact List.nodup_append_comm.mp (List.nodup_cons.mpr ⟨absent, apart⟩)

theorem addBlock (wellFormed : store.WellFormed) (priority : Priority) (properties : PropertySet)
    (some : selectors ≠ []) : (store.addBlock priority properties selectors).WellFormed := by
  have ordered := wellFormed.toOrdered.addBlock priority properties selectors
  unfold Store.addBlock at ordered ⊢
  split
  · exact wellFormed
  · next filled =>
    rw [if_neg filled] at ordered
    have begun := (Ordered.nextSequence_notePriority store priority).ge
    have rules : (store.notePriority priority).rules = store.rules := rules_notePriority
    refine { ordered with numbered := ?_, priorities_apart := ?_, noted := fun other => ?_ }
    · refine numbered_addRules (wellFormed.toOrdered.notePriority priority) begun ?_
      rw [rules]
      exact wellFormed.numbered
    · rw [priorities_addRules]
      exact priorities_apart_notePriority wellFormed.priorities_apart
    · have carried : (store.notePriority priority).Carries other ↔ store.Carries other := by
        rw [Carries, rules, Carries]
      rw [priorities_addRules, carries_addRules some, mem_priorities_notePriority, carried,
        wellFormed.noted]

theorem addStatement (wellFormed : store.WellFormed) (sheet : SheetId) {statement : Statement}
    (headed : statement.Headed) : (Store.addStatement sheet store statement).WellFormed := by
  cases statement with
  | ruleset selectors declarations =>
    exact (wellFormed.addBlock _ _ headed).addBlock _ _ headed
  | link | skippedMedia | fault => exact wellFormed

/-- The invariant survives every statement that has a selector. -/
theorem addStatements (wellFormed : store.WellFormed) (sheet : SheetId)
    {statements : List Statement} (headed : ∀ statement ∈ statements, statement.Headed) :
    (statements.foldl (Store.addStatement sheet) store).WellFormed := by
  induction statements generalizing store with
  | nil => exact wellFormed
  | cons first rest ih =>
    have next := wellFormed.addStatement sheet (headed first List.mem_cons_self)
    exact ih next fun statement inside => headed statement (List.mem_cons_of_mem first inside)

theorem add (wellFormed : store.WellFormed) (sheet : SheetId) (source : List UInt8) :
    (store.add sheet source).WellFormed := by
  have linked (links : List (SheetId × String)) :
      ({ store with links := links } : Store).WellFormed :=
    { wellFormed.toOrdered.withLinks links with
      numbered := wellFormed.numbered
      priorities_apart := wellFormed.priorities_apart
      noted := wellFormed.noted }
  exact (linked _).addStatements sheet Statement.headed_readAll

theorem remove (wellFormed : store.WellFormed) (sheet : SheetId) :
    (store.remove sheet).WellFormed := by
  refine { wellFormed.toOrdered.remove sheet with
    numbered := ?_, priorities_apart := ?_, noted := fun priority => ?_ }
  · rw [Ordered.rules_remove]
    exact wellFormed.numbered.sublist (List.filter_sublist.map Rule.sequence)
  · exact wellFormed.priorities_apart.filter _
  · -- a priority goes if and only if its sheet does, and with it all rules that have it
    have left : priority ∈ (store.remove sheet).priorities ↔
        store.Carries priority ∧ priority.sheet ≠ sheet := by
      rw [← wellFormed.noted]
      simp [Store.remove]
    rw [left, Carries, Carries, Ordered.rules_remove]
    simp only [List.mem_filter, decide_eq_true_eq]
    constructor
    · rintro ⟨⟨rule, inside, rfl⟩, kept⟩
      exact ⟨rule, ⟨inside, kept⟩, rfl⟩
    · rintro ⟨rule, ⟨inside, kept⟩, rfl⟩
      exact ⟨⟨rule, inside, rfl⟩, kept⟩

theorem step (wellFormed : store.WellFormed) (op : Op) : (store.step op).WellFormed := by
  cases op with
  | add sheet source => exact wellFormed.add sheet source
  | remove sheet => exact wellFormed.remove sheet

theorem run (wellFormed : store.WellFormed) (ops : List Op) : (store.run ops).WellFormed := by
  induction ops generalizing store with
  | nil => exact wellFormed
  | cons first rest ih => exact ih (wellFormed.step first)

end WellFormed

/-- Whatever sheets are added and removed, a store is well formed, and a further sheet adds as many
rules to it as it counts. -/
theorem run_wellFormed (media : List String) (ops : List Op) :
    let store := (Store.empty media).run ops
    store.WellFormed ∧ ∀ sheet source,
      (store.add sheet source).size = store.size + (store.readText source).counts.rules :=
  ⟨(WellFormed.empty media).run ops, fun sheet source => (grows_add _ sheet source).size⟩

end Store

end StyleCascade
