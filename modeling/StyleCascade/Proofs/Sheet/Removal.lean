import Mathlib.Order.Monotone.Basic
import StyleCascade.Proofs.Sheet.Store

namespace StyleCascade

/-- Another number for the time at which a rule was added, and for that of its block. -/
def Rule.renumber (f : Nat → Nat) (rule : Rule) : Rule :=
  { rule with sequence := f rule.sequence, block := f rule.block }

namespace Store

/-- An operation takes a sheet out. -/
def Op.removes (sheet : SheetId) : Op → Bool
  | .add _ _ => false
  | .remove other => other = sheet

/-- The additions behind which the same sheet is not removed any more. -/
def survivors : List Op → List Op
  | [] => []
  | .add sheet source :: rest =>
    if rest.any (Op.removes sheet) then survivors rest else .add sheet source :: survivors rest
  | .remove _ :: rest => survivors rest

/-- The fresh store has what is left of a store without some sheets. -/
structure Mirrors (gone : SheetId → Bool) (f : Nat → Nat) (store fresh : Store) : Prop where
  mono : StrictMono f
  below : ∀ number < fresh.nextSequence, f number < store.nextSequence
  universal : store.universal.filter (fun rule => !gone rule.sheet) =
    fresh.universal.map (Rule.renumber f)
  typed : ∀ tag, (store.rulesOf tag).filter (fun rule => !gone rule.sheet) =
    (fresh.rulesOf tag).map (Rule.renumber f)
  priorities : store.priorities.filter (fun priority => !gone priority.sheet) = fresh.priorities
  links : store.links.filter (fun link => !gone link.1) = fresh.links
  media : store.media = fresh.media

/-- The numbers to come are alike from the next one on. -/
def Aligned (f : Nat → Nat) (store fresh : Store) : Prop :=
  ∀ later, f (fresh.nextSequence + later) = store.nextSequence + later

variable {gone : SheetId → Bool} {f : Nat → Nat} {store fresh : Store}

theorem beats_renumber (mono : StrictMono f) (one other : Rule) :
    (one.renumber f).key.beats (other.renumber f).key = one.key.beats other.key := by
  have same : ((other.renumber f).key.rank < (one.renumber f).key.rank) =
      (other.key.rank < one.key.rank) := by
    simp only [CascadeKey.rank, Rule.key, Rule.renumber, List.cons_lt_cons_iff, mono.lt_iff_lt,
      mono.injective.eq_iff]
  simp only [CascadeKey.beats, same]

/-- Only the numbers given so far matter to a renumbering. -/
theorem renumber_congr {g : Nat → Nat} {bound : Nat} (same : ∀ number < bound, f number = g number)
    {rules : List Rule} (older : ∀ rule ∈ rules, rule.sequence < bound ∧ rule.block < bound) :
    rules.map (Rule.renumber f) = rules.map (Rule.renumber g) := by
  refine List.map_congr_left fun rule inside => ?_
  obtain ⟨sequence, block⟩ := older rule inside
  rw [Rule.renumber, Rule.renumber, same _ sequence, same _ block]

/-- The numbers up to a bound as they are, and all later ones alike from a start on. -/
def realign (f : Nat → Nat) (bound start number : Nat) : Nat :=
  if number < bound then f number else start + (number - bound)

section Realign

variable {bound start : Nat}

theorem realign_of_lt {number : Nat} (less : number < bound) :
    realign f bound start number = f number :=
  if_pos less

theorem realign_add (f : Nat → Nat) (bound start later : Nat) :
    realign f bound start (bound + later) = start + later := by
  rw [realign, if_neg (by omega), Nat.add_sub_cancel_left]

theorem strictMono_realign (mono : StrictMono f) (below : ∀ number < bound, f number < start) :
    StrictMono (realign f bound start) := by
  intro one other less
  rcases Nat.lt_or_ge other bound with otherOld | later
  · rw [realign_of_lt (Nat.lt_trans less otherOld), realign_of_lt otherOld]
    exact mono less
  · obtain ⟨more, rfl⟩ := Nat.exists_eq_add_of_le later
    rw [realign_add]
    rcases Nat.lt_or_ge one bound with oneOld | young
    · rw [realign_of_lt oneOld]
      exact Nat.lt_add_right more (below one oneOld)
    · obtain ⟨fewer, rfl⟩ := Nat.exists_eq_add_of_le young
      rw [realign_add]
      omega

end Realign

/-- The numbers of rules that are still to come can be chosen alike. -/
theorem Mirrors.align (mirrors : Mirrors gone f store fresh) (ordered : fresh.Ordered) :
    ∃ g, Mirrors gone g store fresh ∧ Aligned g store fresh := by
  let g := realign f fresh.nextSequence store.nextSequence
  have old : ∀ number < fresh.nextSequence, f number = g number :=
    fun _ less => (realign_of_lt less).symm
  have older (rule : Rule) (inside : rule ∈ fresh.rules) :
      rule.sequence < fresh.nextSequence ∧ rule.block < fresh.nextSequence := by
    have sequence := ordered.older rule inside
    have block := ordered.blocks rule inside
    omega
  refine ⟨g, { mirrors with mono := ?_, below := ?_, universal := ?_, typed := ?_ },
    realign_add f _ _⟩
  · exact strictMono_realign mirrors.mono mirrors.below
  · intro number less
    rw [← old number less]
    exact mirrors.below number less
  · rw [mirrors.universal]
    exact renumber_congr old fun rule inside => older rule (mem_rules_iff.mpr (Or.inl inside))
  · intro tag
    rw [mirrors.typed]
    exact renumber_congr old fun rule inside => older rule (ordered.mem_rules_of_rulesOf inside)

section Kept

variable {priority : Priority}

/-- A priority that stays is listed after the removal exactly when it was before. -/
theorem filter_priorities_contains (kept : gone priority.sheet = false)
    (priorities : List Priority) :
    (priorities.filter (fun other => !gone other.sheet)).contains priority =
      priorities.contains priority := by
  rw [Bool.eq_iff_iff]
  simp [kept]

theorem Mirrors.notePriority (mirrors : Mirrors gone f store fresh)
    (kept : gone priority.sheet = false) :
    Mirrors gone f (store.notePriority priority) (fresh.notePriority priority) := by
  have same := filter_priorities_contains kept store.priorities
  rw [mirrors.priorities] at same
  unfold Store.notePriority
  rw [same]
  split
  · exact mirrors
  · refine { mirrors with priorities := ?_ }
    rw [List.filter_append, mirrors.priorities]
    simp [kept]

/-- A list that mirrors another one still does so with a rule in its place. -/
theorem filter_place_renumber (mono : StrictMono f) {rule : Rule} (kept : gone rule.sheet = false)
    {rules mirrored : List Rule} (sorted : CascadeKey.Sorted Rule.key rules)
    (same : rules.filter (fun rule => !gone rule.sheet) = mirrored.map (Rule.renumber f)) :
    (CascadeKey.place Rule.key (rule.renumber f) rules).filter (fun rule => !gone rule.sheet) =
      (CascadeKey.place Rule.key rule mirrored).map (Rule.renumber f) := by
  have stays : (!gone (rule.renumber f).sheet) = true := by
    show (!gone rule.sheet) = true
    rw [kept]
    rfl
  rw [CascadeKey.filter_place_of_true (fun rule => !gone rule.sheet) stays sorted, same,
    CascadeKey.map_place (beats_renumber mono)]

/-- A rule of a sheet that stays is put into both stores. -/
theorem Mirrors.insert (mirrors : Mirrors gone f store fresh) (ordered : store.Ordered)
    {rule : Rule} (kept : gone rule.sheet = false) :
    Mirrors gone f (store.insert (rule.renumber f)) (fresh.insert rule) := by
  constructor
  case mono => exact mirrors.mono
  case below => simpa only [nextSequence_insert] using mirrors.below
  case universal =>
    rw [universal_insert, universal_insert]
    show (if rule.selector.subjectTag? = none then _ else _ : List Rule).filter _ = _
    split
    · exact filter_place_renumber mirrors.mono kept ordered.universal_sorted mirrors.universal
    · exact mirrors.universal
  case typed =>
    intro tag
    rw [rulesOf_insert, rulesOf_insert]
    show (if rule.selector.subjectTag? = some tag then _ else _ : List Rule).filter _ = _
    split
    · exact filter_place_renumber mirrors.mono kept (ordered.rulesOf_sorted tag)
        (mirrors.typed tag)
    · exact mirrors.typed tag
  case priorities => rw [priorities_insert, priorities_insert, mirrors.priorities]
  case links => rw [links_insert, links_insert, mirrors.links]
  case media => rw [media_insert, media_insert, mirrors.media]

/-- The next rule of a sheet that stays is added to both stores. -/
theorem Mirrors.addRule (mirrors : Mirrors gone f store fresh) (aligned : Aligned f store fresh)
    (ordered : store.Ordered) (kept : gone priority.sheet = false) (properties : PropertySet)
    (block : Nat) (selector : Selector × Specificity) :
    Mirrors gone f (store.addRule priority properties (f block) selector)
      (fresh.addRule priority properties block selector) := by
  unfold Store.addRule
  generalize isRule : Rule.mk priority.sheet priority.important selector.2 fresh.nextSequence
    selector.1 properties block = rule
  have isRenumbered : Rule.mk priority.sheet priority.important selector.2 store.nextSequence
      selector.1 properties (f block) = rule.renumber f := by
    rw [← isRule, Rule.renumber, ← Nat.add_zero store.nextSequence, ← aligned 0]
    rfl
  have stays : gone rule.sheet = false := by
    rw [← isRule]
    exact kept
  rw [isRenumbered]
  refine { mirrors.insert ordered stays with below := ?_ }
  intro number less
  show f number < store.nextSequence + 1
  rcases Nat.lt_succ_iff_lt_or_eq.mp less with old | rfl
  · exact Nat.lt_succ_of_lt (mirrors.below number old)
  · have next := aligned 0
    rw [Nat.add_zero, Nat.add_zero] at next
    omega

/-- Two stores to which the same is going to be added. -/
structure InStep (gone : SheetId → Bool) (f : Nat → Nat) (store fresh : Store) : Prop where
  mirrors : Mirrors gone f store fresh
  aligned : Aligned f store fresh
  ordered : store.Ordered

/-- Rules that stay can be added to both stores at once. -/
theorem InStep.addRules (together : InStep gone f store fresh)
    (kept : gone priority.sheet = false) (properties : PropertySet) {block : Nat}
    (begun : block ≤ fresh.nextSequence) (selectors : List (Selector × Specificity)) :
    InStep gone f
      (selectors.foldl (fun result selector =>
        result.addRule priority properties (f block) selector) store)
      (selectors.foldl (fun result selector =>
        result.addRule priority properties block selector) fresh) := by
  induction selectors generalizing store fresh with
  | nil => exact together
  | cons first rest ih =>
    obtain ⟨mirrors, aligned, ordered⟩ := together
    have begunBefore : f block ≤ store.nextSequence := by
      have next := aligned 0
      have up := mirrors.mono.monotone begun
      rw [Nat.add_zero, Nat.add_zero] at next
      omega
    refine ih ⟨mirrors.addRule aligned ordered kept properties block first, ?_,
      ordered.addRule priority properties begunBefore first⟩ (Nat.le_succ_of_le begun)
    intro later
    have next := aligned (later + 1)
    show f (fresh.nextSequence + 1 + later) = store.nextSequence + 1 + later
    rw [Nat.add_assoc, Nat.add_comm 1 later, next]
    omega

/-- So can a block that stays. -/
theorem InStep.addBlock (together : InStep gone f store fresh)
    (kept : gone priority.sheet = false) (properties : PropertySet)
    (selectors : List (Selector × Specificity)) :
    InStep gone f (store.addBlock priority properties selectors)
      (fresh.addBlock priority properties selectors) := by
  unfold Store.addBlock
  split
  · exact together
  · obtain ⟨mirrors, aligned, ordered⟩ := together
    have next := aligned 0
    rw [Nat.add_zero, Nat.add_zero] at next
    rw [← next]
    refine InStep.addRules ⟨mirrors.notePriority kept, ?_, ordered.notePriority priority⟩ kept
      properties (Ordered.nextSequence_notePriority fresh priority).ge selectors
    intro later
    rw [Ordered.nextSequence_notePriority, Ordered.nextSequence_notePriority, aligned]

variable {sheet : SheetId}

/-- So can the statements of a sheet that stays. -/
theorem InStep.addStatements (together : InStep gone f store fresh) (kept : gone sheet = false)
    (statements : List Statement) :
    InStep gone f (statements.foldl (Store.addStatement sheet) store)
      (statements.foldl (Store.addStatement sheet) fresh) := by
  induction statements generalizing store fresh with
  | nil => exact together
  | cons first rest ih =>
    refine ih ?_
    cases first with
    | ruleset selectors declarations =>
      exact (together.addBlock kept _ selectors).addBlock kept _ selectors
    | link url => exact together
    | skippedMedia media => exact together
    | fault declarations offset cause => exact together

/-- A sheet that stays is added to both stores. -/
theorem InStep.add (together : InStep gone f store fresh) (kept : gone sheet = false)
    (source : List UInt8) : InStep gone f (store.add sheet source) (fresh.add sheet source) := by
  have sameText : store.readText source = fresh.readText source := by
    rw [readText, readText, together.mirrors.media]
  unfold Store.add Store.addText
  rw [sameText]
  generalize (fresh.readText source).statements = statements
  have noted (links : List (SheetId × String)) (own : ∀ link ∈ links, link.1 = sheet) :
      InStep gone f { store with links := store.links ++ links }
        { fresh with links := fresh.links ++ links } := by
    refine ⟨{ together.mirrors with links := ?_ }, together.aligned, together.ordered.withLinks _⟩
    rw [List.filter_append, together.mirrors.links, List.filter_eq_self.mpr]
    intro link inside
    rw [own link inside, kept]
    rfl
  refine (noted _ ?_).addStatements kept statements
  intro link inside
  obtain ⟨url, _, rfl⟩ := List.mem_map.mp inside
  rfl

end Kept

section Gone

variable {sheet : SheetId} {priority : Priority}

/-- A rule of a sheet that goes leaves no trace. -/
theorem Mirrors.insert_gone (mirrors : Mirrors gone f store fresh) {rule : Rule}
    (goes : gone rule.sheet = true) : Mirrors gone f (store.insert rule) fresh := by
  have dropped : (!gone rule.sheet) = false := by
    rw [goes]
    rfl
  have unplaced (rules : List Rule) :=
    CascadeKey.filter_place_of_false Rule.key (fun rule => !gone rule.sheet) dropped rules
  constructor
  case mono => exact mirrors.mono
  case below => simpa only [nextSequence_insert] using mirrors.below
  case universal =>
    rw [universal_insert, ← mirrors.universal]
    split
    · exact unplaced _
    · rfl
  case typed =>
    intro tag
    rw [rulesOf_insert, ← mirrors.typed]
    split
    · exact unplaced _
    · rfl
  case priorities => rw [priorities_insert, mirrors.priorities]
  case links => rw [links_insert, mirrors.links]
  case media => rw [media_insert, mirrors.media]

/-- A rule of a sheet that goes is added on one side only, and the two stores still mirror each
other. -/
theorem Mirrors.addRule_gone (mirrors : Mirrors gone f store fresh)
    (goes : gone priority.sheet = true) (properties : PropertySet) (block : Nat)
    (selector : Selector × Specificity) :
    Mirrors gone f (store.addRule priority properties block selector) fresh := by
  unfold Store.addRule
  generalize isRule : Rule.mk priority.sheet priority.important selector.2 store.nextSequence
    selector.1 properties block = rule
  have own : gone rule.sheet = true := by
    rw [← isRule]
    exact goes
  exact { mirrors.insert_gone own with
    below := fun number less => Nat.lt_succ_of_lt (mirrors.below number less) }

/-- The same for a block of such a sheet. -/
theorem Mirrors.addBlock_gone (mirrors : Mirrors gone f store fresh)
    (goes : gone priority.sheet = true) (properties : PropertySet)
    (selectors : List (Selector × Specificity)) :
    Mirrors gone f (store.addBlock priority properties selectors) fresh := by
  unfold Store.addBlock
  split
  · exact mirrors
  · have noted : Mirrors gone f (store.notePriority priority) fresh := by
      unfold Store.notePriority
      split
      · exact mirrors
      · refine { mirrors with priorities := ?_ }
        rw [List.filter_append, mirrors.priorities]
        simp [goes]
    generalize store.nextSequence = block
    generalize store.notePriority priority = start at noted
    induction selectors generalizing start with
    | nil => exact noted
    | cons first rest ih => exact ih _ (noted.addRule_gone goes properties block first)

/-- A sheet that goes is added to the store alone. -/
theorem Mirrors.add_gone (mirrors : Mirrors gone f store fresh) (goes : gone sheet = true)
    (source : List UInt8) : Mirrors gone f (store.add sheet source) fresh := by
  unfold Store.add Store.addText
  generalize (store.readText source).statements = statements
  have noted (links : List (SheetId × String)) (own : ∀ link ∈ links, link.1 = sheet) :
      Mirrors gone f { store with links := store.links ++ links } fresh := by
    refine { mirrors with links := ?_ }
    rw [List.filter_append, mirrors.links, List.filter_eq_nil_iff.mpr, List.append_nil]
    intro link inside
    rw [own link inside, goes]
    exact Bool.false_ne_true
  have start := noted ((statements.filterMap Statement.link?).map (fun url => (sheet, url))) (by
    intro link inside
    obtain ⟨url, _, rfl⟩ := List.mem_map.mp inside
    rfl)
  have adds (rest : List Statement) (before : Store) (still : Mirrors gone f before fresh) :
      Mirrors gone f (rest.foldl (Store.addStatement sheet) before) fresh := by
    induction rest generalizing before with
    | nil => exact still
    | cons first rest ih =>
      refine ih _ ?_
      cases first with
      | ruleset selectors declarations =>
        exact (still.addBlock_gone goes _ selectors).addBlock_gone goes _ selectors
      | link url => exact still
      | skippedMedia media => exact still
      | fault declarations offset cause => exact still
  exact adds statements _ start

end Gone

/-- The sheets that operations remove. -/
def goneIn (ops : List Op) (sheet : SheetId) : Bool :=
  ops.any (Op.removes sheet)

/-- Once a sheet is removed, nothing more of it has to go. -/
theorem Mirrors.remove {sheet : SheetId} {rest : List Op} (ordered : store.Ordered)
    (mirrors : Mirrors (goneIn (.remove sheet :: rest)) f store fresh) :
    Mirrors (goneIn rest) f (store.remove sheet) fresh := by
  have filtered {α : Type} (sheetOf : α → SheetId) (entries : List α) :
      (entries.filter (fun entry => decide (sheetOf entry ≠ sheet))).filter
          (fun entry => !goneIn rest (sheetOf entry)) =
        entries.filter (fun entry => !goneIn (.remove sheet :: rest) (sheetOf entry)) := by
    rw [List.filter_filter]
    refine List.filter_congr fun entry _ => ?_
    rw [goneIn, goneIn, List.any_cons, Op.removes, Bool.not_or, Bool.and_comm]
    congr 1
    rw [decide_not, decide_eq_decide.mpr eq_comm]
  refine ⟨mirrors.mono, mirrors.below, ?_, ?_, ?_, ?_, mirrors.media⟩
  · exact (filtered Rule.sheet _).trans mirrors.universal
  · intro tag
    rw [Ordered.rulesOf_remove ordered]
    exact (filtered Rule.sheet _).trans (mirrors.typed tag)
  · exact (filtered Priority.sheet _).trans mirrors.priorities
  · exact (filtered Prod.fst _).trans mirrors.links

/-- Carrying operations out on a store, and those additions that stay on its mirror. -/
theorem Mirrors.run {ops : List Op} (mirrors : Mirrors (goneIn ops) f store fresh)
    (ordered : store.Ordered) (freshOrdered : fresh.Ordered) :
    ∃ g, Mirrors (goneIn []) g (store.run ops) (fresh.run (survivors ops)) := by
  induction ops generalizing f store fresh with
  | nil => exact ⟨f, mirrors⟩
  | cons op rest ih =>
    cases op with
    | add sheet source =>
      cases goes : goneIn rest sheet with
      | true =>
        have skipped : survivors (.add sheet source :: rest) = survivors rest := if_pos goes
        rw [skipped]
        exact ih (mirrors.add_gone goes source) (ordered.add sheet source) freshOrdered
      | false =>
        have kept : survivors (.add sheet source :: rest) = .add sheet source :: survivors rest :=
          if_neg (by rw [goneIn] at goes; simp [goes])
        rw [kept]
        obtain ⟨g, again, aligned⟩ := mirrors.align freshOrdered
        have together := InStep.add ⟨again, aligned, ordered⟩ goes source
        exact ih together.mirrors together.ordered (freshOrdered.add sheet source)
    | remove sheet => exact ih (mirrors.remove ordered) (ordered.remove sheet) freshOrdered

/-- Removing a sheet takes out as many rules as the store had of it. -/
theorem removedBy_eq (store : Store) (sheet : SheetId) :
    store.removedBy sheet = store.rules.countP (fun rule => rule.sheet = sheet) := by
  have parts := List.length_eq_countP_add_countP (fun rule : Rule => decide (rule.sheet = sheet))
    (l := store.rules)
  have left : (store.remove sheet).size =
      store.rules.countP (fun rule => !decide (rule.sheet = sheet)) := by
    rw [size, Ordered.rules_remove, List.countP_eq_length_filter]
    simp only [decide_not, ne_eq]
  rw [removedBy, left, size]
  simp only [Bool.not_eq_true, decide_eq_false_iff_not, decide_not] at parts
  omega

/-- A store has no memory of the sheets that were removed: it has the rules, the priorities and the
links of a fresh store to which only the sheets that stayed were added, up to the numbers of rules;
and each removal takes out just the rules of its sheet. -/
theorem run_forgets (media : List String) (ops : List Op) :
    let final := (Store.empty media).run ops
    let fresh := (Store.empty media).run (survivors ops)
    (∃ f : Nat → Nat, StrictMono f ∧
      final.universal = fresh.universal.map (Rule.renumber f) ∧
      (∀ tag, final.byTag.lookup tag =
        (fresh.byTag.lookup tag).map (List.map (Rule.renumber f))) ∧
      final.priorities = fresh.priorities ∧ final.links = fresh.links) ∧
    ∀ before sheet after, ops = before ++ .remove sheet :: after →
      ((Store.empty media).run before).removedBy sheet =
        ((Store.empty media).run before).rules.countP (fun rule => rule.sheet = sheet) := by
  intro final fresh
  have start : Mirrors (goneIn ops) id (Store.empty media) (Store.empty media) :=
    ⟨strictMono_id, fun _ less => less, rfl, fun _ => rfl, rfl, rfl, rfl⟩
  have ordered := Ordered.empty media
  obtain ⟨f, mirrors⟩ := start.run ordered ordered
  have all {α : Type} (sheetOf : α → SheetId) (entries : List α) :
      entries.filter (fun entry => !goneIn [] (sheetOf entry)) = entries :=
    List.filter_eq_self.mpr fun _ _ => rfl
  refine ⟨⟨f, mirrors.mono, ?_, ?_, ?_, ?_⟩, fun before sheet _ _ => removedBy_eq _ sheet⟩
  · exact (all Rule.sheet _).symm.trans mirrors.universal
  · intro tag
    have lists : final.rulesOf tag = (fresh.rulesOf tag).map (Rule.renumber f) :=
      (all Rule.sheet _).symm.trans (mirrors.typed tag)
    rw [(ordered.run ops).lookup_eq, (ordered.run (survivors ops)).lookup_eq]
    show (if final.rulesOf tag = [] then _ else some (final.rulesOf tag)) =
      (if fresh.rulesOf tag = [] then _ else some (fresh.rulesOf tag)).map _
    rw [lists]
    by_cases noneLeft : fresh.rulesOf tag = []
    · rw [noneLeft]
      rfl
    · rw [if_neg noneLeft, if_neg (by simpa using noneLeft)]
      rfl
  · exact (all Priority.sheet _).symm.trans mirrors.priorities
  · exact (all Prod.fst _).symm.trans mirrors.links

end Store

end StyleCascade
