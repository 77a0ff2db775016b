import StyleCascade.Proofs.Resolve.Outline

namespace StyleCascade

/-- The metrics of a font at its size. -/
def Answers.measured (answers : Answers) (config : Config) (key : FontKey) : Metrics :=
  answers.metrics key (key.pixels config.dpi)

/-- What is known of hosts that give these answers. -/
def Answers.traits (answers : Answers) (config : Config) : Traits where
  color color := ∃ text, Color.read text = .ok color
  image url image? := image? = answers.image? url
  font font := font.metrics = answers.measured config font.key
  script script := script = answers.script

namespace Hosts

variable {σ : Type} {hosts : Hosts σ} {answers : Answers}

/-- The hosts give these answers in every state. -/
def Pure (hosts : Hosts σ) (answers : Answers) : Prop :=
  ∀ state, hosts.now state = answers

theorem pure_ofAnswers (answers : Answers) : (ofAnswers answers : Hosts σ).Pure answers := by
  intro state
  obtain ⟨metrics, image?, script⟩ := answers
  cases script <;> rfl

/-- A pure host has exactly the traits of the answers it gives. -/
theorem Pure.traits (pure : hosts.Pure answers) (config : Config) :
    hosts.Have config (answers.traits config) where
  color text _ read := ⟨text, read⟩
  image state url := by rw [pure state]; rfl
  font state key := by rw [pure state]; rfl
  script state := by rw [pure state]; rfl

end Hosts

/-- Answers that a pure host can be met with are its own, as far as acceptance can tell. -/
theorem Traits.Allows.accept_eq {answers met : Answers} {config : Config}
    (allowed : (answers.traits config).Allows met) (basis : Basis) :
    basis.accept met = basis.accept answers := by
  have images : met.image? = answers.image? := funext allowed.image
  have script : met.script = answers.script := allowed.script
  funext property value
  rw [Basis.accept, Basis.accept, images, script]

namespace Basis

variable {basis : Basis} {answers : Answers} {sets : List PropertySet} {property : Property}
  {value : Value}

/-- Why a property rejects a value, if it does. -/
def fault? (basis : Basis) (answers : Answers) (property : Property) (value : Value) :
    Option ValueFault :=
  match basis.accept answers property value with
  | .ok _ => none
  | .error cause => some cause

/-- A property takes a value. -/
def accepts (basis : Basis) (answers : Answers) (property : Property) (value : Value) : Bool :=
  (basis.fault? answers property value).isNone

/-- The first value that a property takes. -/
def chosen? (basis : Basis) (answers : Answers) (sets : List PropertySet) (property : Property) :
    Option Value :=
  (declared sets property).find? (basis.accepts answers property)

/-- What the first value comes to that a property takes. -/
def winner? (basis : Basis) (answers : Answers) (sets : List PropertySet) (property : Property) :
    Option Accepted :=
  (basis.chosen? answers sets property).bind (fun value =>
    (basis.accept answers property value).toOption)

/-- What the values come to that properties take. -/
def winners (basis : Basis) (answers : Answers) (sets : List PropertySet) :
    List (Property × Accepted) :=
  Property.all.filterMap (fun property =>
    (basis.winner? answers sets property).map (fun accepted => (property, accepted)))

/-- The values of a property that come before the first one that it takes. -/
def passedOver (basis : Basis) (answers : Answers) (sets : List PropertySet)
    (property : Property) : List Value :=
  (declared sets property).takeWhile (fun value => !basis.accepts answers property value)

/-- The diagnostics of values that are passed over: by property, and then in the order of the
sets. -/
def rejections (basis : Basis) (answers : Answers) (sets : List PropertySet) : List Diagnostic :=
  -- each value that is passed over has a fault
  Property.all.flatMap (fun property =>
    (basis.passedOver answers sets property).filterMap (fun value =>
      (basis.fault? answers property value).map (fun cause => (property, cause))))

theorem fault?_of_ok {accepted : Accepted}
    (takes : basis.accept answers property value = .ok accepted) :
    basis.fault? answers property value = none := by
  rw [fault?, takes]

theorem fault?_of_error {cause : ValueFault}
    (rejects : basis.accept answers property value = .error cause) :
    basis.fault? answers property value = some cause := by
  rw [fault?, rejects]

theorem accepts_of_ok {accepted : Accepted}
    (takes : basis.accept answers property value = .ok accepted) :
    basis.accepts answers property value = true := by
  rw [accepts, fault?_of_ok takes, Option.isNone_none]

theorem accepts_of_error {cause : ValueFault}
    (rejects : basis.accept answers property value = .error cause) :
    basis.accepts answers property value = false := by
  rw [accepts, fault?_of_error rejects, Option.isNone_some]

variable {config : Config} {values : List Value} {verdict : Verdict}

/-- For answers that are always the same, a property rejects the values in front of the first one
that it takes. -/
theorem Offers.faults_eq (offers : basis.Offers (answers.traits config) property values verdict) :
    verdict.faults =
      (values.takeWhile (fun value => !basis.accepts answers property value)).filterMap
        (basis.fault? answers property) := by
  induction offers with
  | none => rfl
  | @taken value rest met plain accepted allowed evaluates takes =>
    have ok : basis.accept answers property value = .ok accepted := by
      rw [← allowed.accept_eq, accept_of_evaluated evaluates]
      exact takes
    rw [List.takeWhile_cons_of_neg (by simp [accepts_of_ok ok])]
    rfl
  | @rejected value rest met cause verdict allowed rejects others ih =>
    rw [allowed.accept_eq] at rejects
    rw [List.takeWhile_cons_of_pos (by simp [accepts_of_error rejects]),
      List.filterMap_cons_some (fault?_of_error rejects), ih]

/-- For answers that are always the same, a property takes the first value that it accepts. -/
theorem Offers.taken_eq (offers : basis.Offers (answers.traits config) property values verdict) :
    verdict.taken.map Prod.snd =
      (values.find? (basis.accepts answers property)).bind (fun value =>
        (basis.accept answers property value).toOption) := by
  induction offers with
  | none => rfl
  | @taken value rest met plain accepted allowed evaluates takes =>
    have ok : basis.accept answers property value = .ok accepted := by
      rw [← allowed.accept_eq, accept_of_evaluated evaluates]
      exact takes
    rw [List.find?_cons_of_pos (accepts_of_ok ok), Option.bind_some, ok]
    rfl
  | @rejected value rest met cause verdict allowed rejects others ih =>
    rw [allowed.accept_eq] at rejects
    rw [List.find?_cons_of_neg (by simp [accepts_of_error rejects]), ← ih]

theorem SameFont.winners {one other : Basis} (same : one.SameFont other) (answers : Answers)
    (sets : List PropertySet) : one.winners answers sets = other.winners answers sets := by
  have accepts (property : Property) :
      one.accepts answers property = other.accepts answers property := by
    funext value
    rw [Basis.accepts, Basis.accepts, fault?, fault?, same.accept]
  simp only [Basis.winners, winner?, chosen?, accepts, same.accept]

/-- The outline of an element whose parent's outline is the parent of the basis, for answers that
are always the same. -/
def outline (basis : Basis) (answers : Answers) (sets : List PropertySet) : Record :=
  let winners := basis.winners answers sets
  let root := answers.measured basis.config basis.config.rootFont
  let draft := (Draft.blank basis root).sketchAll basis winners
  Draft.outline basis root (answers.measured basis.config draft.font) winners

/-- Shares the record that the winners make, for answers that are always the same. -/
def share (basis : Basis) (answers : Answers) (held : Held) (tables : Tables)
    (sets : List PropertySet) : Handle Record × Tables :=
  let root := answers.measured basis.config basis.config.rootFont
  let drafted := Draft.takeAll basis held (Draft.start basis held tables root)
    (basis.winners answers sets)
  Draft.share basis held drafted (answers.measured basis.config drafted.1.font)

/-- What is shared in the tables depends on the winners alone. -/
theorem share_of_winners {other : List PropertySet} (held : Held) (tables : Tables)
    (same : basis.winners answers sets = basis.winners answers other) :
    basis.share answers held tables sets = basis.share answers held tables other := by
  rw [share, share, same]

end Basis

namespace Course.Leads

variable {σ : Type} {answers : Answers} {basis : Basis} {held : Held} {tables : Tables}
  {sets : List PropertySet} {course : Course} {found : Resolution σ}

/-- In a course that pure hosts lead, what is taken are the winners. -/
theorem accepted_eq
    (leads : course.Leads (answers.traits basis.config) basis held tables sets found) :
    course.accepted = basis.winners answers sets := by
  refine List.filterMap_congr fun property _ => ?_
  have taken : _ = basis.winner? answers sets property := (leads.offers property).taken_eq
  rw [← taken, Option.map_map]
  rfl

/-- And what is complained about are the rejections before them. -/
theorem rejections_eq
    (leads : course.Leads (answers.traits basis.config) basis held tables sets found) :
    found.events.filterMap Event.diagnostic? = basis.rejections answers sets := by
  rw [leads.diagnostics]
  refine List.flatMap_congr fun property _ => ?_
  rw [(leads.offers property).faults_eq, List.map_filterMap]
  rfl

/-- What is resolved is what the winners make. -/
theorem share_eq
    (leads : course.Leads (answers.traits basis.config) basis held tables sets found) :
    (found.record, found.tables) = basis.share answers held tables sets := by
  have root : course.root = answers.measured basis.config basis.config.rootFont := leads.rootHas
  have own : course.own = answers.measured basis.config (course.drafted basis held tables).1.font :=
    leads.ownHas
  rw [leads.shared, own, Course.drafted, root, leads.accepted_eq]
  rfl

/-- The outline of a run is a function of the declarations and of the parent's outline alone: it
does not depend on the tables the run found. -/
theorem outline_eq {parent : Option Record}
    (leads : course.Leads (answers.traits basis.config) basis held tables sets found)
    (sound : tables.Sound) (meets : Draft.Meets tables basis.parent parent)
    (parentHeld : ∀ record ∈ basis.parent, record ∈ held.map Handle.value) :
    course.outline { basis with parent := parent } =
      Basis.outline { basis with parent := parent } answers sets := by
  obtain ⟨_, _, draft, _⟩ := leads.drafted_shown sound meets parentHeld
  have root : course.root = answers.measured basis.config basis.config.rootFont := leads.rootHas
  have own : course.own = answers.measured basis.config (course.drafted basis held tables).1.font :=
    leads.ownHas
  rw [draft.font] at own
  have accepted := leads.accepted_eq.trans (meets.sameFont.winners answers sets)
  rw [root, accepted] at own
  rw [Course.outline, Basis.outline, own, root, accepted]

end Course.Leads

/-- For hosts that always give the same answers, resolving shares the record that the winners make,
and reports the values that come before them. -/
theorem resolve_eq_share {σ : Type} {hosts : Hosts σ} {answers : Answers}
    (pure : hosts.Pure answers) (basis : Basis) {tables : Tables} (sound : tables.Sound)
    (files : tables.Files (answers.traits basis.config)) (held : Held) (state : σ)
    (sets : List PropertySet) :
    let found := resolve hosts basis held tables state sets
    (found.record, found.tables) = basis.share answers held tables sets ∧
      found.events.filterMap Event.diagnostic? = basis.rejections answers sets := by
  obtain ⟨course, leads⟩ :=
    resolve_course basis sound files (pure.traits basis.config) held state sets
  exact ⟨leads.share_eq, leads.rejections_eq⟩

/-- For hosts that always give the same answers, resolving gives the record that the tables show for
the outline, and forgets nothing that is held. -/
theorem resolve_shows {σ : Type} {hosts : Hosts σ} {answers : Answers} (pure : hosts.Pure answers)
    (basis : Basis) {tables : Tables} {held : Held} {parent : Option Record} (sound : tables.Sound)
    (backs : tables.Backs held) (files : tables.Files (answers.traits basis.config))
    (meets : Draft.Meets tables basis.parent parent)
    (parentHeld : ∀ record ∈ basis.parent, record ∈ held.map Handle.value) (state : σ)
    (sets : List PropertySet) :
    let found := resolve hosts basis held tables state sets
    found.tables.Sound ∧ found.tables.Backs (found.record :: held) ∧
      found.tables.Files (answers.traits basis.config) ∧
      found.tables.Shows found.record.value
        (Basis.outline { basis with parent := parent } answers sets) ∧
      ∀ record ∈ held.map Handle.value, tables.Keeps found.tables record := by
  obtain ⟨course, leads⟩ := resolve_course basis sound files (pure.traits basis.config) held state sets
  obtain ⟨behind, behindBacks, shows, keeps⟩ := leads.shows sound backs meets parentHeld
  rw [leads.outline_eq sound meets parentHeld] at shows
  exact ⟨behind, behindBacks, leads.files, shows, keeps⟩

end StyleCascade
