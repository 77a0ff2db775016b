import Mathlib.Data.List.Nodup
import StyleCascade.Proofs.Declared.PropertySet
import StyleCascade.Proofs.Resolve.Canonical
import StyleCascade.Proofs.Resolve.Change
import StyleCascade.Proofs.Resolve.Taken

namespace StyleCascade

open Draft (fontParts)

namespace Draft

/-- The text that a property has so far. -/
def text? (draft : Draft) (property : Property) : Option String :=
  if property ∈ fontParts then draft.font.part? property else draft.record.text? property

/-- The line has a colour of its own. -/
def ownsColor (draft : Draft) : Property → Bool
  | .borderTopColor => draft.ownBorderColor.top
  | .borderRightColor => draft.ownBorderColor.right
  | .borderBottomColor => draft.ownBorderColor.bottom
  | .borderLeftColor => draft.ownBorderColor.left
  | .outlineColor => draft.ownOutlineColor
  | _ => false

/-- Two drafts agree in what they know of a property. -/
structure AgreeAt (property : Property) (one other : Draft) : Prop where
  text : other.text? property = one.text? property
  own : other.ownsColor property = one.ownsColor property
  waiting : ∀ length, (property, length) ∈ other.waiting → (property, length) ∈ one.waiting
  align : property = .verticalAlign → other.alignPercent = one.alignPercent

/-- Nothing waits for the end to give a property its value. -/
structure Clear (property : Property) (draft : Draft) : Prop where
  waiting : ∀ length, (property, length) ∉ draft.waiting
  align : property = .verticalAlign → draft.alignPercent = none

/-- A property has its text. -/
structure Settled (property : Property) (text : Option String) (draft : Draft) : Prop
    extends Clear property draft where
  text : draft.text? property = text
  own : property ∈ Property.lineColors → draft.ownsColor property = true

variable {traits : Traits} {basis : Basis} {held : Held} {tables : Tables}
  {draft one other third : Draft} {property asked : Property} {text : Option String}

theorem AgreeAt.refl (property : Property) (draft : Draft) : AgreeAt property draft draft :=
  ⟨rfl, rfl, fun _ mem => mem, fun _ => rfl⟩

theorem AgreeAt.trans (first : AgreeAt property one other) (second : AgreeAt property other third) :
    AgreeAt property one third :=
  { text := second.text.trans first.text
    own := second.own.trans first.own
    waiting := fun length mem => first.waiting length (second.waiting length mem)
    align := fun same => (second.align same).trans (first.align same) }

theorem Clear.of_agree (clear : Clear property one) (agree : AgreeAt property one other) :
    Clear property other :=
  { waiting := fun length mem => clear.waiting length (agree.waiting length mem)
    align := fun same => (agree.align same).trans (clear.align same) }

theorem Settled.of_agree (settled : Settled property text one)
    (agree : AgreeAt property one other) : Settled property text other :=
  { settled.toClear.of_agree agree with
    text := agree.text.trans settled.text
    own := fun line => agree.own.trans (settled.own line) }

/-- A change of the record that shows in one property only is unseen by every other. -/
theorem agree_withRecord {record : Record} (apart : asked ≠ property)
    (same : Record.SameBut [property] draft.record record) :
    AgreeAt asked draft { draft with record := record } :=
  { AgreeAt.refl asked draft with
    text := by
      unfold text?
      split
      · rfl
      · next noFont =>
        exact same asked noFont (fun mem => apart (List.mem_singleton.mp mem)) }

/-- A change of one part of the font is unseen by the other parts. -/
theorem agree_withFont {change : FontKey → FontKey} (apart : asked ≠ property)
    (sets : FontKey.Sets property change) :
    AgreeAt asked draft { draft with font := change draft.font } :=
  { AgreeAt.refl asked draft with
    text := by
      unfold text?
      split
      · exact sets.part?_eq draft.font apart
      · rfl }

/-- A mark on a colour is unseen by the other colours. -/
theorem agree_markColor (draft : Draft) (apart : asked ≠ property) :
    AgreeAt asked draft (draft.markColor property) where
  text := by cases property <;> rfl
  own := by
    cases property
    case borderTopColor | borderRightColor | borderBottomColor | borderLeftColor | outlineColor =>
      cases asked <;> first
        | rfl
        | exact absurd rfl apart
    all_goals rfl
  waiting := by cases property <;> exact fun _ mem => mem
  align := by cases property <;> exact fun _ => rfl

/-- Inheriting a part of a font sets it to that of the parent. -/
theorem inherit_of_fontPart (part : property ∈ fontParts) (draft : Draft) (basis : Basis) :
    ∃ change, FontKey.Sets property change ∧
      draft.inherit basis property = { draft with font := change draft.font } ∧
      ∀ key, (change key).part? property = basis.inheritedFont.part? property := by
  simp only [fontParts, List.mem_cons, List.not_mem_nil, or_false] at part
  obtain rfl | rfl | rfl | rfl := part
  · exact ⟨_, .family _, rfl, fun _ => rfl⟩
  · exact ⟨_, .size _, rfl, fun _ => rfl⟩
  · exact ⟨_, .style _, rfl, fun _ => rfl⟩
  · exact ⟨_, .weight _, rfl, fun _ => rfl⟩

theorem agree_inherit (draft : Draft) (basis : Basis) (apart : asked ≠ property) :
    AgreeAt asked draft (draft.inherit basis property) := by
  by_cases part : property ∈ fontParts
  · obtain ⟨change, sets, inherits, -⟩ := inherit_of_fontPart part draft basis
    rw [inherits]
    exact agree_withFont apart sets
  · rw [inherit_of_not_fontPart part]
    cases basis.parent with
    | none => exact .refl asked draft
    | some parent =>
      exact (agree_withRecord apart (Record.sameBut_copy _ _ _)).trans (agree_markColor _ apart)

/-- What one property takes is nothing to the others. -/
theorem agree_take {accepted : Accepted} (apart : asked ≠ property)
    (grants : property.Grants traits accepted) :
    AgreeAt asked draft (draft.take basis held tables property accepted).1 := by
  cases grants with
  | inherited => exact agree_inherit draft basis apart
  | written writes => exact agree_withRecord apart (writes.sameBut draft.record)
  | fontLength _ length =>
    refine { AgreeAt.refl asked draft with waiting := fun other mem => ?_ }
    obtain old | new := List.mem_append.mp mem
    · exact old
    · exact absurd (Prod.mk.inj (List.mem_singleton.mp new)).1 apart
  | alignPercent =>
    exact { AgreeAt.refl asked draft with align := fun same => absurd same apart }
  | font sets => exact agree_withFont apart sets
  | color =>
    exact (agree_withRecord apart (Record.sameBut_withColor _ _ _)).trans (agree_markColor _ apart)
  | image => exact agree_withRecord apart (Record.sameBut_withImage _ _ _)

/-- Values of other properties leave the asked one as it was, whatever they are and in whatever
order they come. -/
theorem agree_takeAll (start : Draft × Tables) {values : List (Property × Accepted)}
    (granted : ∀ property accepted, (property, accepted) ∈ values →
      property.Grants traits accepted)
    (apart : ∀ value ∈ values, asked ≠ value.1) :
    AgreeAt asked start.1 (takeAll basis held start values).1 :=
  takeAll_induction (motive := fun state => AgreeAt asked start.1 state.1) (.refl asked start.1)
    fun _ property accepted inside before =>
      before.trans
        (agree_take (apart (property, accepted) inside) (granted property accepted inside))

/-- The parent's value settles a property. -/
theorem inherit_settled {parent : Record} (clear : Clear property draft)
    (below : basis.parent = some parent) :
    Settled property (parent.text? property) (draft.inherit basis property) := by
  by_cases part : property ∈ fontParts
  · obtain ⟨change, -, inherits, same⟩ := inherit_of_fontPart part draft basis
    rw [inherits]
    refine { waiting := clear.waiting, align := clear.align, text := ?_, own := ?_ }
    · rw [text?, if_pos part, same, Basis.inheritedFont, below]
      exact FontKey.part?_eq_text? part parent
    · intro line
      have impossible : ∀ asked ∈ Property.lineColors, asked ∉ fontParts := by decide
      exact absurd part (impossible property line)
  · rw [inherit_of_not_fontPart part, below, Option.elim_some]
    refine { waiting := ?_, align := ?_, text := ?_, own := ?_ }
    · cases property <;> exact clear.waiting
    · cases property <;> exact clear.align
    · have copied : (draft.record.copy parent property).text? property = parent.text? property :=
        Record.text?_copy _ _ _
      rw [text?, if_neg part, markColor_record]
      exact copied
    · intro line
      simp only [Property.lineColors, List.mem_cons, List.not_mem_nil, or_false] at line
      obtain rfl | rfl | rfl | rfl | rfl := line <;> rfl

theorem ofParent_clear (parent : Record) (property : Property) :
    Clear property (ofParent parent) :=
  ⟨fun _ => List.not_mem_nil, fun _ => rfl⟩

theorem start_clear (basis : Basis) (held : Held) (tables : Tables) (root : Metrics)
    (property : Property) : Clear property (start basis held tables root).1 := by
  unfold start
  split
  · exact ofParent_clear _ property
  · exact ⟨fun _ => List.not_mem_nil, fun _ => rfl⟩

theorem mem_inherited_iff : property ∈ Property.all.filter Property.isInherited ↔
    property.isInherited = true := by
  rw [List.mem_filter, and_iff_right (Property.mem_all property)]

/-- Where nothing is declared, a property that inherits has the parent's value from the start. -/
theorem ofParent_inherited (parent : Record) (inherits : property.isInherited = true) :
    Settled property (parent.text? property) (ofParent parent) := by
  refine { ofParent_clear parent property with text := ?_, own := fun line => ?_ }
  · by_cases part : property ∈ fontParts
    · rw [text?, if_pos part]
      exact FontKey.part?_eq_text? part parent
    · rw [text?, if_neg part]
      refine (Record.text?_copyAll parent part _ _).trans (if_pos ?_)
      exact mem_inherited_iff.mpr inherits
  · have impossible : ∀ asked ∈ Property.lineColors, asked.isInherited = false := by decide
    rw [impossible property line] at inherits
    cases inherits

/-- Any other property starts with its initial value. -/
theorem ofParent_initial (parent : Record) (own : property.isInherited = false)
    (noLine : property ∉ Property.lineColors) (color : Handle Color) (font : Handle Font) :
    Settled property ((Record.initial color font).text? property) (ofParent parent) := by
  have noFont : property ∉ fontParts := by
    have impossible : ∀ asked ∈ fontParts, asked.isInherited = true := by decide
    intro part
    rw [impossible property part] at own
    cases own
  refine { ofParent_clear parent property with text := ?_, own := fun line => absurd line noLine }
  rw [text?, if_neg noFont]
  refine ((Record.text?_copyAll parent noFont _ _).trans (if_neg ?_)).trans ?_
  · rw [mem_inherited_iff, own]
    exact Bool.false_ne_true
  · cases property <;> first
      | rfl
      | exact absurd (by decide) noLine
      | cases own

/-- Above or below any record, a property that neither inherits nor has the colour of a line starts
with its initial value. -/
theorem start_initial (own : property.isInherited = false) (noLine : property ∉ Property.lineColors)
    (color : Handle Color) (font : Handle Font) (basis : Basis) (held : Held) (tables : Tables)
    (root : Metrics) :
    Settled property ((Record.initial color font).text? property)
      (start basis held tables root).1 := by
  unfold start
  split
  · exact ofParent_initial _ own noLine color font
  · cases property <;> first
      | exact absurd own (by decide)
      | exact absurd (by decide) noLine
      | exact
          { waiting := fun _ => List.not_mem_nil
            align := fun _ => rfl
            text := rfl
            own := fun line => absurd line noLine }

section Finished

/-- The lengths that wait for the font's metrics are written at the end and leave every property
alone that had none waiting. -/
theorem text?_withWaiting (noFont : property ∉ fontParts) (clear : Clear property draft)
    (metrics : Metrics) (record : Record) :
    (draft.withWaiting metrics record).text? property = record.text? property := by
  obtain ⟨unwritten, -⟩ := clear
  unfold withWaiting
  generalize draft.waiting = waiting at unwritten
  induction waiting generalizing record with
  | nil => rfl
  | cons first rest ih =>
    obtain ⟨other, length⟩ := first
    have apart : property ∉ [other] := by
      rw [List.mem_singleton]
      rintro rfl
      exact unwritten length List.mem_cons_self
    refine (ih _ (fun length mem => unwritten length (List.mem_cons_of_mem _ mem))).trans ?_
    exact Record.sameBut_withPixels record other _ property noFont apart

/-- The colour of the text goes to the line colours nobody set, and to nothing else. -/
theorem text?_withTextColor
    (own : property ∈ Property.lineColors → draft.ownsColor property = true) (record : Record) :
    (draft.withTextColor record).text? property = record.text? property := by
  by_cases line : property ∈ Property.lineColors
  · have owns := own line
    simp only [Property.lineColors, List.mem_cons, List.not_mem_nil, or_false] at line
    obtain rfl | rfl | rfl | rfl | rfl := line <;>
      simp only [ownsColor] at owns <;>
      simp [withTextColor, Record.text?, Edges.mapSides, Edges.get, owns]
  · cases property <;> first
      | rfl
      | exact absurd (by decide) line

theorem text?_withAlign (clear : Clear property draft) (em : Int) (record : Record) :
    (draft.withAlign em record).text? property = record.text? property := by
  unfold withAlign
  cases waits : draft.alignPercent with
  | none => rfl
  | some percent =>
    have apart : property ≠ .verticalAlign := by
      intro same
      rw [clear.align same] at waits
      cases waits
    cases property <;> first
      | rfl
      | exact absurd rfl apart

/-- A box that does not float goes on not to. -/
theorem text?_float_fixDisplay (isRoot : Bool) {record : Record}
    (lies : record.text? .float = some (Keyword.text FloatSide.none)) :
    (record.fixDisplay isRoot).text? .float = some (Keyword.text FloatSide.none) := by
  unfold Record.fixDisplay
  split
  · exact lies
  split
  · rfl
  split <;> exact lies

theorem finished_font (draft : Draft) (isRoot : Bool) (font : Handle Font) :
    (draft.finished isRoot font).font = font := by
  have aligned (em : Int) (record : Record) : (draft.withAlign em record).font = record.font := by
    unfold withAlign
    split <;> rfl
  have boxed (record : Record) : (record.fixDisplay isRoot).font = record.font := by
    obtain ⟨display, float, same⟩ := Record.fixDisplay_cases isRoot record
    rw [same]
  have placed (record : Record) : record.fixOffsets.font = record.font := by
    obtain ⟨offsets, same⟩ := Record.fixOffsets_cases record
    rw [same]
  exact (placed _).trans ((boxed _).trans (aligned _ _))

/-- What a property has settled on is its text until boxes, offsets and the widths of lines are
settled. -/
theorem Settled.aligned (settled : Settled property text draft) (noFont : property ∉ fontParts)
    (isRoot : Bool) (font : Handle Font) :
    ∃ aligned : Record, aligned.text? property = text ∧
      draft.finished isRoot font = ((aligned.fixDisplay isRoot).fixOffsets).fixWidths := by
  let measured := { draft.withWaiting font.value.metrics draft.record with font := font }
  let aligned := draft.withAlign font.value.metrics.em (draft.withTextColor measured)
  refine ⟨aligned, ?_, rfl⟩
  calc aligned.text? property
      = (draft.withTextColor measured).text? property := text?_withAlign settled.toClear _ _
    _ = measured.text? property := text?_withTextColor settled.own _
    _ = (draft.withWaiting font.value.metrics draft.record).text? property :=
        Record.sameBut_font _ font property noFont List.not_mem_nil
    _ = draft.record.text? property := text?_withWaiting noFont settled.toClear _ _
    _ = text := by rw [← settled.text, text?, if_neg noFont]

/-- What a property has settled on is its text in the end, but for boxes, offsets and the widths of
lines. -/
theorem Settled.finished (settled : Settled property text draft) (isRoot : Bool)
    {font : Handle Font} (key : property ∈ fontParts → font.value.key = draft.font)
    (late : property ∉ Property.display :: (Property.offsets ++ Property.lineWidths))
    (lies : property = .float → text = some (Keyword.text FloatSide.none)) :
    (draft.finished isRoot font).text? property = text := by
  rw [List.mem_cons, List.mem_append, not_or, not_or] at late
  obtain ⟨noDisplay, noOffset, noWidth⟩ := late
  by_cases part : property ∈ fontParts
  · rw [← FontKey.part?_eq_text? part, finished_font, key part, ← settled.text, text?, if_pos part]
  obtain ⟨aligned, before, finished⟩ := settled.aligned part isRoot font
  have boxed : (aligned.fixDisplay isRoot).text? property = text := by
    by_cases float : property = .float
    · have none := lies float
      rw [none] at before ⊢
      subst float
      exact text?_float_fixDisplay isRoot before
    · rw [← before]
      exact Record.sameBut_fixDisplay isRoot aligned property part (by simp [noDisplay, float])
  calc (draft.finished isRoot font).text? property
      = ((aligned.fixDisplay isRoot).fixOffsets).fixWidths.text? property := by rw [finished]
    _ = (aligned.fixDisplay isRoot).fixOffsets.text? property :=
        Record.sameBut_fixWidths _ property part noWidth
    _ = (aligned.fixDisplay isRoot).text? property :=
        Record.sameBut_fixOffsets _ property part noOffset
    _ = text := boxed

end Finished

/-- Properties other than the parts of a font leave the font that is asked for. -/
theorem font_take {accepted : Accepted} (noFont : property ∉ fontParts)
    (grants : property.Grants traits accepted) :
    (draft.take basis held tables property accepted).1.font = draft.font := by
  have marked (draft : Draft) : (draft.markColor property).font = draft.font := by
    cases property <;> rfl
  cases grants with
  | inherited =>
    rw [take, inherit_of_not_fontPart noFont]
    cases basis.parent with
    | none => rfl
    | some parent => exact marked _
  | written | fontLength | alignPercent | image => rfl
  | font sets => exact absurd sets.fontPart noFont
  | color => exact marked _

/-- The font stays as long as no value is one of its parts. -/
theorem font_takeAll (start : Draft × Tables) {values : List (Property × Accepted)}
    (granted : ∀ property accepted, (property, accepted) ∈ values →
      property.Grants traits accepted)
    (noFont : ∀ value ∈ values, value.1 ∉ fontParts) :
    (takeAll basis held start values).1.font = start.1.font :=
  takeAll_induction (motive := fun state => state.1.font = start.1.font) rfl
    fun _ property accepted inside before =>
      (font_take (noFont (property, accepted) inside) (granted property accepted inside)).trans
        before

theorem start_sound (sound : tables.Sound) (basis : Basis) (held : Held) (root : Metrics) :
    (start basis held tables root).2.Sound := by
  unfold start
  split
  · exact sound
  · exact (sound.internColor held [] basis.rootColor).internFont held [] _

theorem takeAll_sound {start : Draft × Tables} (sound : start.2.Sound) (basis : Basis)
    (held : Held) (values : List (Property × Accepted)) :
    (takeAll basis held start values).2.Sound :=
  takeAll_induction (motive := fun state => state.2.Sound) sound
    fun state property accepted _ before => take_sound before basis held state.1 property accepted

end Draft

namespace Course.Leads

variable {σ : Type} {traits : Traits} {basis : Basis} {held : Held} {tables : Tables}
  {sets : List PropertySet} {course : Course} {found : Resolution σ} {property : Property}
  {text : Option String}

/-- A property that takes no value stays as it is. -/
theorem stays (leads : course.Leads traits basis held tables sets found)
    (settled : Draft.Settled property text (Draft.start basis held tables course.root).1)
    (untaken : found.taken? property = none) :
    Draft.Settled property text (course.drafted basis held tables).1 :=
  settled.of_agree (Draft.agree_takeAll _ (fun _ _ => leads.grants)
    (leads.apart_of_not_taken untaken))

/-- A property has what its value settles when all values are taken. -/
theorem settles (leads : course.Leads traits basis held tables sets found) (sound : tables.Sound)
    {plain : Value} {accepted : Accepted}
    (taken : (course.verdict property).taken = some (plain, accepted))
    (settles : ∀ (draft : Draft) (tables : Tables), tables.Sound → Draft.Clear property draft →
      Draft.Settled property text (draft.take basis held tables property accepted).1) :
    Draft.Settled property text (course.drafted basis held tables).1 := by
  obtain ⟨before, after, split, apartBefore, apartAfter⟩ := Verdict.accepted_split taken
  replace split : course.accepted = before ++ (property, accepted) :: after := split
  have granted := fun name value (inside : (name, value) ∈ course.accepted) => leads.grants inside
  rw [split] at granted
  let start := Draft.start basis held tables course.root
  let middle := Draft.takeAll basis held start before
  have middleSound : middle.2.Sound :=
    Draft.takeAll_sound (Draft.start_sound sound basis held course.root) basis held before
  have untouched : Draft.AgreeAt property start.1 middle.1 :=
    Draft.agree_takeAll start
      (fun name value inside => granted name value (List.mem_append_left _ inside)) apartBefore
  have clear : Draft.Clear property middle.1 :=
    (Draft.start_clear basis held tables course.root property).of_agree untouched
  let next := middle.1.take basis held middle.2 property accepted
  have settled : Draft.Settled property text next.1 := settles middle.1 middle.2 middleSound clear
  have behind : Draft.AgreeAt property next.1 (Draft.takeAll basis held next after).1 :=
    Draft.agree_takeAll next
      (fun name value inside =>
        granted name value (List.mem_append_right _ (List.mem_cons_of_mem _ inside))) apartAfter
  have whole : course.drafted basis held tables = Draft.takeAll basis held next after := by
    rw [Course.drafted, split, Draft.takeAll, List.foldl_append, List.foldl_cons]
    rfl
  rw [whole]
  exact settled.of_agree behind

/-- A property that takes the parent's value has it when all values are taken. -/
theorem inherits (leads : course.Leads traits basis held tables sets found) (sound : tables.Sound)
    {parent : Record} (below : basis.parent = some parent) {word : Value}
    (taken : found.taken? property = some word) (inherits : word.isWord "inherit" = true) :
    Draft.Settled property (parent.text? property) (course.drafted basis held tables).1 := by
  obtain ⟨answers, accepted, _, accepts, verdict⟩ := leads.accepts_of_taken taken
  rw [Basis.acceptPlain, if_pos inherits] at accepts
  cases accepts
  exact leads.settles sound verdict fun _ _ _ clear => Draft.inherit_settled clear below

/-- What a property has settled on is its text in the record, but for boxes, offsets and the widths
of lines. -/
theorem text?_of_settled (leads : course.Leads traits basis held tables sets found)
    (settled : Draft.Settled property text (course.drafted basis held tables).1)
    (late : property ∉ Property.display :: (Property.offsets ++ Property.lineWidths))
    (lies : property = .float → text = some (Keyword.text FloatSide.none)) :
    found.record.value.text? property = text := by
  rw [leads.value]
  exact settled.finished _ (fun _ => congrArg Font.key leads.ownAgrees.value) late lies

end Course.Leads

section Reached

variable {σ : Type} {config : Config} {hosts : Hosts σ} {tables : Tables} {held : Held}

/-- Below a record that is held, an element that asks for the font of the parent has it: it is not
made a second time. -/
theorem Reached.font_eq (reached : Reached config hosts tables held) {parent : Handle Record}
    (parentHeld : parent ∈ held) {sets : List PropertySet} {traits : Traits} {course : Course}
    {found : Resolution σ}
    (leads : course.Leads traits ⟨config, some parent.value⟩ held tables sets found)
    (same : (course.drafted ⟨config, some parent.value⟩ held tables).1.font =
      parent.value.font.value.key) :
    found.record.value.font = parent.value.font := by
  obtain ⟨sound, backs⟩ := reached.backs
  have isHeld : ∀ record ∈ some parent, record ∈ held := by
    rintro record ⟨⟩
    exact parentHeld
  obtain ⟨outline, meets⟩ := backs.meets isHeld
  obtain ⟨draftedSound, -, -, kept⟩ := leads.drafted_shown sound meets (values_held isHeld)
  have used : parent.value ∈ held.map Handle.value := List.mem_map_of_mem parentHeld
  obtain ⟨_, shown⟩ := backs.shown parent parentHeld
  obtain ⟨key, listed⟩ := shown.listed_font
  have still := (kept parent.value used).font key listed
  rw [← sound.keys key parent.value.font listed, ← same] at still
  rw [leads.value, Draft.finished_font]
  exact congrArg Prod.fst (Pool.intern_of_alive draftedSound.fonts still
    (Held.font_alive (List.mem_append_right _ used)))

/-- Below a record that is held, a property that takes `inherit` has the parent's text, and so has
one that takes no value, if it inherits; any other one that takes no value has its initial text.
What else is declared, and what the hosts answer, has no say in this. Boxes, offsets and the widths
of lines are settled with other properties, and undeclared colours of lines are those of the text.
If no part of the font is declared, the parent's font is used. -/
theorem Reached.resolve_inherits (reached : Reached config hosts tables held)
    {parent : Handle Record} (parentHeld : parent ∈ held) (state : σ) (sets : List PropertySet) :
    let found := resolve hosts ⟨config, some parent.value⟩ held tables state sets
    let record := found.record.value
    (∀ property word, found.taken? property = some word → word.isWord "inherit" = true →
      property ∉ Property.display :: .float :: (Property.offsets ++ Property.lineWidths) →
        record.text? property = parent.value.text? property) ∧
    (∀ property, found.taken? property = none → property.isInherited = true →
      record.text? property = parent.value.text? property) ∧
    (∀ property, found.taken? property = none → property.isInherited = false →
      property ∉ Property.display ::
          (Property.lineColors ++ (Property.offsets ++ Property.lineWidths)) →
        ∀ color font, record.text? property = (Record.initial color font).text? property) ∧
    ((∀ property ∈ Draft.fontParts, found.taken? property = none) →
      record.font = parent.value.font) := by
  intro found record
  obtain ⟨course, leads⟩ :=
    reached.course (hosts.have_any config) (some parent.value) state sets
  replace leads : course.Leads .any ⟨config, some parent.value⟩ held tables sets found := leads
  have sound := reached.backs.1
  have early {property : Property} {text : Option String}
      (settled : Draft.Settled property text
        (course.drafted ⟨config, some parent.value⟩ held tables).1)
      (noLate : property ∉
        Property.display :: .float :: (Property.offsets ++ Property.lineWidths)) :
      record.text? property = text := by
    rw [List.mem_cons, List.mem_cons, not_or, not_or] at noLate
    obtain ⟨noDisplay, noFloat, others⟩ := noLate
    exact leads.text?_of_settled settled (List.not_mem_cons_of_ne_of_not_mem noDisplay others)
      (fun float => absurd float noFloat)
  refine ⟨?_, ?_, ?_, ?_⟩
  · intro property word taken inherits noLate
    exact early (leads.inherits sound rfl taken inherits) noLate
  · intro property untaken inherits
    have own : ∀ late ∈ Property.display :: .float :: (Property.offsets ++ Property.lineWidths),
        late.isInherited = false := by decide
    refine early (leads.stays (Draft.ofParent_inherited parent.value inherits) untaken)
      (fun late => ?_)
    rw [own property late] at inherits
    cases inherits
  · intro property untaken own late color initial
    rw [List.mem_cons, List.mem_append, not_or, not_or] at late
    obtain ⟨noDisplay, noColor, others⟩ := late
    refine leads.text?_of_settled
      (leads.stays (Draft.ofParent_initial parent.value own noColor color initial) untaken)
      (List.not_mem_cons_of_ne_of_not_mem noDisplay others) ?_
    rintro rfl
    rfl
  · intro untaken
    refine reached.font_eq parentHeld leads ?_
    exact Draft.font_takeAll _ (fun _ _ => leads.grants) (fun value inside part =>
      leads.apart_of_not_taken (untaken value.1 part) value inside rfl)

/-- Below a red box with a green line on top and a background, a blue one inherits the line. -/
theorem Reached.resolve_inherits_line :
    let hosts : Hosts Unit := .plain
    let top := resolve hosts ⟨.screen, none⟩ [] .empty () [.ofChoice (fun
      | .color => some (.ident "red")
      | .borderTopColor => some (.ident "green")
      | .backgroundColor => some (.ident "yellow")
      | .visibility => some (.ident "hidden")
      | _ => none)]
    let sets : List PropertySet :=
      [.ofChoice (fun
        | .borderTopColor => some (.ident "inherit")
        | .visibility => some (.ident "sideways")
        | .color => some (.ident "blue")
        | .position => some (.ident "fixed")
        | _ => none)]
    let found := resolve hosts ⟨.screen, some top.record.value⟩ [top.record] top.tables () sets
    let box := found.record.value
    Reached .screen hosts top.tables [top.record] ∧
      found.taken? .borderTopColor = some (.ident "inherit") ∧
      found.taken? .visibility = none ∧
      (∀ property ∈ Draft.fontParts, found.taken? property = none) ∧
      top.record.value.text? .borderTopColor = some "green" ∧
      box.text? .color = some "blue" ∧
      box.text? .borderTopColor = top.record.value.text? .borderTopColor ∧
      box.text? .visibility = top.record.value.text? .visibility ∧
      box.text? .backgroundColor = none ∧ box.font = top.record.value.font := by
  intro hosts top sets found box
  have reached : Reached .screen hosts top.tables [top.record] :=
    .resolved .fresh none (by simp) () _ top rfl
  obtain ⟨inherited, unset, initial, font⟩ :=
    reached.resolve_inherits List.mem_cons_self () sets
  have taken : found.taken? .borderTopColor = some (.ident "inherit") :=
    Resolution.taken?_of_word (by decide +kernel)
  have others : ∀ property ∈ .visibility :: .backgroundColor :: Draft.fontParts,
      (found.taken? property).isNone = true := by decide +kernel
  have untaken : ∀ property ∈ .visibility :: .backgroundColor :: Draft.fontParts,
      found.taken? property = none :=
    fun property inside => Option.isNone_iff_eq_none.mp (others property inside)
  have noParts : ∀ property ∈ Draft.fontParts, found.taken? property = none := by
    intro property part
    exact untaken property (List.mem_cons_of_mem _ (List.mem_cons_of_mem _ part))
  have noWord : found.taken? .visibility = none := untaken _ List.mem_cons_self
  have noBackground : found.taken? .backgroundColor = none := untaken _ (by simp)
  dsimp only [box, found]
  exact ⟨reached, taken, noWord, noParts, by decide +kernel, by decide +kernel,
    inherited .borderTopColor (.ident "inherit") taken rfl (by decide),
    unset .visibility noWord rfl,
    initial .backgroundColor noBackground rfl (by decide) top.record.value.color
      top.record.value.font,
    font noParts⟩

end Reached

end StyleCascade
