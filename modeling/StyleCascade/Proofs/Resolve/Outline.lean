import StyleCascade.Proofs.Resolve.Course

namespace StyleCascade

namespace Draft

/-- Takes what a value came to, with handles that only tell what they are handles of. -/
def sketch (draft : Draft) (basis : Basis) (property : Property) : Accepted → Draft
  | .inherited => draft.inherit basis property
  | .written change => { draft with record := change draft.record }
  | .fontLength length => { draft with waiting := draft.waiting ++ [(property, length)] }
  | .alignPercent percent => { draft with alignPercent := some percent }
  | .font change => { draft with font := change draft.font }
  | .color color =>
    { draft with record := draft.record.withColor property ⟨0, color⟩ }.markColor property
  | .image url _ =>
    { draft with record := draft.record.withImage property (some ⟨0, ⟨url, none⟩⟩) }

/-- The draft of a root, without tables, in a font with some metrics. -/
def blankRoot (basis : Basis) (root : Metrics) : Draft :=
  ofRecord (.initial ⟨0, basis.rootColor⟩ ⟨0, ⟨basis.config.rootFont, root⟩⟩)
    basis.config.rootFont

/-- The draft of an element for which nothing is declared yet, without tables. -/
def blank (basis : Basis) (root : Metrics) : Draft :=
  match basis.parent with
  | some parent => ofParent parent
  | none => blankRoot basis root

/-- Takes what the values of several properties came to, without tables. -/
def sketchAll (draft : Draft) (basis : Basis) (accepted : List (Property × Accepted)) : Draft :=
  accepted.foldl (fun draft (property, value) => draft.sketch basis property value) draft

/-- The outline of an element whose parent's outline is the parent of the basis: its draft without
tables is finished in a font with some metrics. -/
def outline (basis : Basis) (root own : Metrics) (accepted : List (Property × Accepted)) : Record :=
  let draft := (blank basis root).sketchAll basis accepted
  draft.finished basis.parent.isNone ⟨0, ⟨draft.font, own⟩⟩

variable {tables : Tables} {held : Held} {draft outline : Draft}

/-- The tables show the record of a draft, which is like its outline otherwise. -/
structure Shown (tables : Tables) (draft outline : Draft) : Prop where
  record : tables.Shows draft.record outline.record
  rest : draft = { outline with record := draft.record }

theorem Shown.ofRecord {record sketched : Record} {one other : FontKey}
    (shown : tables.Shows record sketched) (same : one = other) :
    Shown tables (ofRecord record one) (Draft.ofRecord sketched other) :=
  ⟨shown, by rw [same]; rfl⟩

theorem Shown.font (shown : Shown tables draft outline) : draft.font = outline.font := by
  rw [shown.rest]

/-- A change that no handle takes part in is made on both sides. -/
theorem Shown.uniform {change : Record → Record} (uniform : Record.Uniform change)
    (shown : Shown tables draft outline) :
    Shown tables { draft with record := change draft.record }
      { outline with record := change outline.record } where
  record := shown.record.uniform uniform
  rest := by rw [shown.rest]

theorem Shown.replace {record sketched : Record} (shown : Shown tables draft outline)
    (again : tables.Shows record sketched) :
    Shown tables { draft with record := record } { outline with record := sketched } where
  record := again
  rest := by rw [shown.rest]

theorem markColor_record (draft : Draft) (property : Property) :
    (draft.markColor property).record = draft.record := by
  cases property <;> rfl

theorem Shown.markColor (shown : Shown tables draft outline) (property : Property) :
    Shown tables (draft.markColor property) (outline.markColor property) where
  record := by
    rw [markColor_record, markColor_record]
    exact shown.record
  rest := by
    rw [shown.rest]
    cases property <;> rfl

/-- What the tables kept is still shown. -/
theorem Shown.of_keeps {other : Tables} (sound : other.Sound)
    (keeps : tables.Keeps other draft.record) (shown : Shown tables draft outline) :
    Shown other draft outline :=
  ⟨shown.record.of_keeps sound keeps, shown.rest⟩

/-- The tables show the parent of a basis for the parent of another one. -/
inductive Meets (tables : Tables) : Option Record → Option Record → Prop
  | root : Meets tables none none
  | child {parent sketched : Record} (shown : tables.Shows parent sketched) :
      Meets tables (some parent) (some sketched)

variable {basis : Basis} {parent : Option Record}

theorem Meets.sameFont (meets : Meets tables basis.parent parent) :
    basis.SameFont { basis with parent := parent } := by
  obtain ⟨config, above⟩ := basis
  refine ⟨rfl, ?_⟩
  cases meets with
  | root => rfl
  | child shown => exact congrArg some shown.font_value

theorem Meets.isNone (meets : Meets tables basis.parent parent) :
    basis.parent.isNone = parent.isNone := by
  obtain ⟨config, above⟩ := basis
  cases meets <;> rfl

/-- The properties that a font settles together. -/
def fontParts : List Property :=
  [.fontFamily, .fontSize, .fontStyle, .fontWeight]

/-- Outside the font, inheriting copies the one property from the parent and marks its colour as
set; without a parent it does nothing. -/
theorem inherit_of_not_fontPart {property : Property} (other : property ∉ fontParts)
    (draft : Draft) (basis : Basis) :
    draft.inherit basis property =
      basis.parent.elim draft (fun parent =>
        { draft with record := draft.record.copy parent property }.markColor property) := by
  obtain ⟨config, parent⟩ := basis
  cases parent <;> cases property <;> first | rfl | exact absurd (by decide) other

/-- Inheriting commutes with forgetting which handles stand for the colours, the font and the
images. -/
theorem Shown.inherit (shown : Shown tables draft outline)
    (meets : Meets tables basis.parent parent) (property : Property) :
    Shown tables (draft.inherit basis property)
      (outline.inherit { basis with parent := parent } property) := by
  by_cases part : property ∈ fontParts
  · have sameFont := meets.sameFont.inheritedFont
    have rest := shown.rest
    simp only [fontParts, List.mem_cons, List.not_mem_nil, or_false] at part
    rcases part with rfl | rfl | rfl | rfl
    all_goals
      refine ⟨shown.record, ?_⟩
      rw [rest]
      simp only [Draft.inherit, sameFont]
  · rw [inherit_of_not_fontPart part, inherit_of_not_fontPart part]
    obtain ⟨config, above⟩ := basis
    cases meets with
    | root => exact shown
    | child above => exact (shown.replace (shown.record.copy above property)).markColor property

/-- What every step keeps holds when all values are taken. -/
theorem takeAll_induction {motive : Draft × Tables → Prop} {start : Draft × Tables}
    {winners : List (Property × Accepted)} (first : motive start)
    (step : ∀ state property accepted, (property, accepted) ∈ winners → motive state →
      motive (state.1.take basis held state.2 property accepted)) :
    motive (takeAll basis held start winners) := by
  induction winners generalizing start with
  | nil => exact first
  | cons winner rest ih =>
    obtain ⟨property, accepted⟩ := winner
    refine ih (step start property accepted List.mem_cons_self first) ?_
    exact fun state name value inside => step state name value (List.mem_cons_of_mem _ inside)

/-- Taking a value keeps the draft with its outline, and what is held with its own. -/
theorem Shown.take (sound : tables.Sound) (shown : Shown tables draft outline)
    (held : Held) (meets : Meets tables basis.parent parent) (property : Property)
    {accepted : Accepted} (uniform : accepted.Uniform) :
    let taken := draft.take basis held tables property accepted
    taken.2.Sound ∧ taken.2.records = tables.records ∧
      Shown taken.2 taken.1 (outline.sketch { basis with parent := parent } property accepted) ∧
      ∀ record ∈ held.map Handle.value, tables.Keeps taken.2 record := by
  have unchanged : ∀ record ∈ held.map Handle.value, tables.Keeps tables record :=
    fun record _ => .refl tables record
  have own : draft.record ∈ [draft.record] ++ held.map Handle.value := List.mem_cons_self
  cases accepted with
  | inherited => exact ⟨sound, rfl, shown.inherit meets property, unchanged⟩
  | written change => exact ⟨sound, rfl, shown.uniform uniform, unchanged⟩
  | fontLength length =>
    refine ⟨sound, rfl, ⟨shown.record, ?_⟩, unchanged⟩
    rw [shown.rest]
    rfl
  | alignPercent percent =>
    refine ⟨sound, rfl, ⟨shown.record, ?_⟩, unchanged⟩
    rw [shown.rest]
    rfl
  | font change =>
    refine ⟨sound, rfl, ⟨shown.record, ?_⟩, unchanged⟩
    rw [shown.rest]
    rfl
  | color color =>
    have behind := sound.internColor held [draft.record] color
    obtain ⟨has, listed⟩ := Tables.listed_internColor sound held [draft.record] color 0
    have kept := shown.of_keeps behind (Tables.keeps_internColor sound color own)
    refine ⟨behind, rfl, ?_, ?_⟩
    · exact (kept.replace (kept.record.withColor has listed property)).markColor property
    · exact fun record inside =>
        Tables.keeps_internColor sound color (List.mem_append_right _ inside)
  | image url image =>
    have behind := sound.internImage held [draft.record] url image
    obtain ⟨has, listed⟩ := Tables.listed_internImage sound held [draft.record] url
      image 0 none
    have kept := shown.of_keeps behind (Tables.keeps_internImage sound url image own)
    refine ⟨behind, rfl, ?_, ?_⟩
    · exact kept.replace (kept.record.withImage has listed property)
    · exact fun record inside =>
        Tables.keeps_internImage sound url image (List.mem_append_right _ inside)

theorem Meets.of_keeps {other : Tables} (sound : other.Sound)
    (keeps : ∀ record ∈ basis.parent, tables.Keeps other record)
    (meets : Meets tables basis.parent parent) : Meets other basis.parent parent := by
  cases ofBasis : basis.parent with
  | none =>
    rw [ofBasis] at meets
    cases meets
    exact .root
  | some above =>
    rw [ofBasis] at meets
    obtain _ | shown := meets
    exact .child (shown.of_keeps sound (keeps above ofBasis))

/-- Taking values one after the other, as long as the parent is held. -/
theorem Shown.takeAll (sound : tables.Sound) (shown : Shown tables draft outline)
    (meets : Meets tables basis.parent parent)
    (parentHeld : ∀ record ∈ basis.parent, record ∈ held.map Handle.value)
    (winners : List (Property × Accepted))
    (uniform : ∀ property accepted, (property, accepted) ∈ winners → accepted.Uniform) :
    let taken := Draft.takeAll basis held (draft, tables) winners
    taken.2.Sound ∧ taken.2.records = tables.records ∧
      Shown taken.2 taken.1 (outline.sketchAll { basis with parent := parent } winners) ∧
      ∀ record ∈ held.map Handle.value, tables.Keeps taken.2 record := by
  induction winners generalizing tables draft outline with
  | nil => exact ⟨sound, rfl, shown, fun record _ => .refl tables record⟩
  | cons first rest ih =>
    obtain ⟨property, accepted⟩ := first
    obtain ⟨behind, same, next, kept⟩ := shown.take sound held meets property
      (uniform property accepted List.mem_cons_self)
    have meetsBehind := meets.of_keeps behind fun record inside =>
      kept record (parentHeld record inside)
    obtain ⟨last, lastSame, done, keptRest⟩ := ih behind next meetsBehind
      fun other value inside => uniform other value (List.mem_cons_of_mem _ inside)
    exact ⟨last, lastSame.trans same, done,
      fun record inside => (kept record inside).trans (keptRest record inside)⟩

/-- A record without a parent starts from the initial values, with the two handles it needs filed.
-/
theorem ofRoot_shown (sound : tables.Sound) {root : Metrics}
    (agrees : tables.Agrees held [] ⟨basis.config.rootFont, root⟩) :
    let started := ofRoot basis held tables root
    started.2.Sound ∧ started.2.records = tables.records ∧
      Shown started.2 started.1 (blankRoot basis root) ∧
      ∀ record ∈ held.map Handle.value, tables.Keeps started.2 record := by
  have colored := sound.internColor held [] basis.rootColor
  have fonted := colored.internFont held [] ⟨basis.config.rootFont, root⟩
  obtain ⟨hasColor, listedColor⟩ := Tables.listed_internColor sound held [] basis.rootColor 0
  obtain ⟨hasFont, listedFont⟩ := Tables.listed_internFont colored agrees 0
  have initial : ((tables.internColor held [] basis.rootColor).2.internFont held []
      ⟨basis.config.rootFont, root⟩).2.Shows _ _ :=
    Tables.shows_initial hasColor listedColor hasFont listedFont
  exact ⟨fonted, rfl, .ofRecord initial rfl, fun record inside =>
    (Tables.keeps_internColor sound _ inside).trans (Tables.keeps_internFont colored _ inside)⟩

/-- Both ways to start a record, below a parent and without one, show the start of the outline. -/
theorem start_shown (sound : tables.Sound) {root : Metrics}
    (agrees : tables.Agrees held [] ⟨basis.config.rootFont, root⟩)
    (meets : Meets tables basis.parent parent) :
    let started := Draft.start basis held tables root
    started.2.Sound ∧ started.2.records = tables.records ∧
      Shown started.2 started.1 (blank { basis with parent := parent } root) ∧
      ∀ record ∈ held.map Handle.value, tables.Keeps started.2 record := by
  obtain ⟨config, above⟩ := basis
  cases meets with
  | child shown =>
    have copied := shown.initial.copyAll shown (Property.all.filter Property.isInherited)
    exact ⟨sound, rfl, .ofRecord copied (congrArg Font.key shown.font_value),
      fun record _ => .refl tables record⟩
  | root => exact ofRoot_shown sound agrees

section Finished

theorem withWaiting_uniform (draft : Draft) (metrics : Metrics) :
    Record.Uniform (draft.withWaiting metrics) := by
  intro record f
  simp only [withWaiting]
  generalize draft.waiting = waiting
  induction waiting generalizing record with
  | nil => rfl
  | cons first rest ih =>
    obtain ⟨property, length⟩ := first
    simp only [List.foldl_cons]
    have step : (record.rename f).withPixels property (length.pixels metrics) =
        (record.withPixels property (length.pixels metrics)).rename f :=
      Record.withPixels_uniform property (length.pixels metrics) record f
    rw [step, ih]

theorem withTextColor_uniform (draft : Draft) : Record.Uniform draft.withTextColor := by
  intro record f
  simp only [withTextColor, Record.rename, Edges.mapSides, apply_ite f.color]

theorem withAlign_uniform (draft : Draft) (em : Int) : Record.Uniform (draft.withAlign em) := by
  intro record f
  unfold withAlign
  cases draft.alignPercent <;> rfl

/-- Finishing a record commutes with showing as well: all it files is the font. -/
theorem Shown.finished (shown : Shown tables draft outline) {font named : Handle Font}
    (has : tables.naming.font named = font) (listed : tables.listed.font named) (isRoot : Bool) :
    tables.Shows (draft.finished isRoot font) (outline.finished isRoot named) := by
  obtain ⟨record, rest⟩ := shown
  have sameValue : font.value = named.value := by rw [← has]; exact listed.2
  generalize draft.record = recordOfDraft at record rest
  subst rest
  simp only [Draft.finished, sameValue]
  have measured := (record.uniform (withWaiting_uniform outline named.value.metrics)).withFont
    has listed
  have colored := measured.uniform (withTextColor_uniform outline)
  have aligned := colored.uniform (withAlign_uniform outline named.value.metrics.em)
  exact ((aligned.uniform (Record.fixDisplay_uniform isRoot)).uniform
    Record.fixOffsets_uniform).uniform Record.fixWidths_uniform

/-- Sharing the font and the record of a draft in the end. -/
theorem Shown.share (sound : tables.Sound) (backs : tables.Backs held)
    (shown : Shown tables draft outline) {own : Metrics}
    (agrees : tables.Agrees held [draft.record] ⟨draft.font, own⟩) (basis : Basis) :
    let shared := Draft.share basis held (draft, tables) own
    shared.2.Sound ∧ shared.2.Backs (shared.1 :: held) ∧
      shared.2.Shows shared.1.value
        (outline.finished basis.parent.isNone ⟨0, ⟨outline.font, own⟩⟩) ∧
      ∀ record ∈ held.map Handle.value, tables.Keeps shared.2 record := by
  let font : Font := ⟨draft.font, own⟩
  have fonted := sound.internFont held [draft.record] font
  have keeps (record : Record) (used : record ∈ [draft.record] ++ held.map Handle.value) :=
    Tables.keeps_internFont sound font used
  have kept (record : Record) (inside : record ∈ held.map Handle.value) :=
    keeps record (List.mem_append_right _ inside)
  obtain ⟨has, listed⟩ := Tables.listed_internFont sound agrees 0
  have finished := (shown.of_keeps fonted (keeps _ List.mem_cons_self)).finished has listed
    basis.parent.isNone
  have fontedBacks := backs.of_keeps fonted rfl kept
  have given := fontedBacks.internRecord fonted finished
  have value : (Draft.share basis held (draft, tables) own).1.value = _ :=
    ValuePool.intern_value (tables.internFont held [draft.record] font).2.records
      (Handle.alive held) _
  refine ⟨fonted.internRecord held _, given, ?_,
    fun record inside => (kept record inside).internRecord⟩
  rw [← shown.font, value]
  exact finished.internRecord

end Finished

end Draft

namespace Course

variable {basis : Basis} {tables : Tables} {held : Held} {parent : Option Record} {course : Course}

/-- The outline of an element whose parent's outline is the parent of the basis. -/
def outline (course : Course) (basis : Basis) : Record :=
  Draft.outline basis course.root course.own course.accepted

variable {σ : Type} {traits : Traits} {sets : List PropertySet} {found : Resolution σ}

/-- What is taken was granted. -/
theorem Leads.grants (leads : course.Leads traits basis held tables sets found)
    {property : Property} {accepted : Accepted} (taken : (property, accepted) ∈ course.accepted) :
    property.Grants traits accepted := by
  obtain ⟨name, _, takes⟩ := List.mem_filterMap.mp taken
  obtain ⟨⟨plain, value⟩, verdict, same⟩ := Option.map_eq_some_iff.mp takes
  cases same
  exact (leads.offers property).grants verdict

/-- When all values are taken, the tables show the draft of an element, and they have forgotten
nothing that is held. -/
theorem Leads.drafted_shown (leads : course.Leads traits basis held tables sets found)
    (sound : tables.Sound) (meets : Draft.Meets tables basis.parent parent)
    (parentHeld : ∀ record ∈ basis.parent, record ∈ held.map Handle.value) :
    let drafted := course.drafted basis held tables
    let above : Basis := { basis with parent := parent }
    drafted.2.Sound ∧ drafted.2.records = tables.records ∧
      Draft.Shown drafted.2 drafted.1
        ((Draft.blank above course.root).sketchAll above course.accepted) ∧
      ∀ record ∈ held.map Handle.value, tables.Keeps drafted.2 record := by
  obtain ⟨started, startedRecords, start, startKeeps⟩ :=
    Draft.start_shown sound leads.rootAgrees meets
  have startMeets := meets.of_keeps started fun record inside =>
    startKeeps record (parentHeld record inside)
  obtain ⟨drafted, draftedRecords, draft, draftKeeps⟩ :=
    start.takeAll started startMeets parentHeld course.accepted
      fun _ _ taken => (leads.grants taken).uniform
  exact ⟨drafted, draftedRecords.trans startedRecords, draft, fun record inside =>
    (startKeeps record inside).trans (draftKeeps record inside)⟩

/-- What is given is the draft that took all values, finished in its font. -/
theorem Leads.value (leads : course.Leads traits basis held tables sets found) :
    let drafted := course.drafted basis held tables
    found.record.value = drafted.1.finished basis.parent.isNone
      (drafted.2.internFont held [drafted.1.record] ⟨drafted.1.font, course.own⟩).1 := by
  intro drafted
  have given : found.record = _ := congrArg Prod.fst leads.shared
  rw [given]
  exact ValuePool.intern_value _ _ _

/-- A course leads to the record that the tables show for its outline, and nothing that is held is
forgotten. -/
theorem Leads.shows (leads : course.Leads traits basis held tables sets found)
    (sound : tables.Sound) (backs : tables.Backs held)
    (meets : Draft.Meets tables basis.parent parent)
    (parentHeld : ∀ record ∈ basis.parent, record ∈ held.map Handle.value) :
    found.tables.Sound ∧ found.tables.Backs (found.record :: held) ∧
      found.tables.Shows found.record.value
        (course.outline { basis with parent := parent }) ∧
      ∀ record ∈ held.map Handle.value, tables.Keeps found.tables record := by
  obtain ⟨drafted, draftedRecords, draft, kept⟩ := leads.drafted_shown sound meets parentHeld
  have draftedBacks := backs.of_keeps drafted draftedRecords kept
  obtain ⟨shared, sharedBacks, shows, sharedKeeps⟩ :=
    draft.share drafted draftedBacks leads.ownAgrees basis
  have given := leads.shared
  rw [Prod.mk.injEq] at given
  rw [given.1, given.2]
  rw [meets.isNone] at shows
  exact ⟨shared, sharedBacks, shows, fun record inside =>
    (kept record inside).trans (sharedKeeps record inside)⟩

end Course

end StyleCascade
