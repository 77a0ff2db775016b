import StyleCascade.Proofs.Resolve.Outline
import StyleCascade.Record.Text

namespace StyleCascade

namespace Property

/-- The offsets of a box. -/
def offsets : List Property :=
  [.top, .right, .bottom, .left]

/-- The widths of lines around a box. -/
def lineWidths : List Property :=
  [.borderTopWidth, .borderRightWidth, .borderBottomWidth, .borderLeftWidth, .outlineWidth]

/-- The colours of lines around a box. -/
def lineColors : List Property :=
  [.borderTopColor, .borderRightColor, .borderBottomColor, .borderLeftColor, .outlineColor]

end Property

namespace Record

open Draft (fontParts)

variable {record source one other : Record} {property : Property} {properties : List Property}

/-- The texts of a record after a change of some properties: those of the others are left. The parts
of a font are not told apart. -/
def SameBut (properties : List Property) (one other : Record) : Prop :=
  ∀ property, property ∉ fontParts → property ∉ properties →
    other.text? property = one.text? property

theorem sameBut_font (record : Record) (font : Handle Font) :
    SameBut [] record { record with font := font } := by
  intro property noFont _
  cases property <;> first
    | rfl
    | exact absurd (by decide) noFont

/-- The texts of a record, by the places of the properties. -/
def texts (record : Record) : List (Option String) :=
  Property.all.map record.text?

theorem texts_getElem? (record : Record) (property : Property) :
    record.texts[property.index]? = some (record.text? property) := by
  have found : Property.all[property.index]? = some property := Property.ofIndex?_index property
  rw [texts, List.getElem?_map, found, Option.map_some]

/-- Seen through its texts, copying a property outside the font writes one place. -/
theorem texts_copy (record source : Record) (noFont : property ∉ fontParts) :
    (record.copy source property).texts =
      record.texts.set property.index (source.text? property) := by
  cases property <;> first
    | exact absurd (by decide) noFont
    | simp only [copy, texts, Property.all, List.map_cons, List.map_nil, text?]
      rfl

theorem copy_of_fontPart (part : property ∈ fontParts) :
    record.copy source property = { record with font := source.font } := by
  simp only [fontParts, List.mem_cons, List.not_mem_nil, or_false] at part
  obtain rfl | rfl | rfl | rfl := part <;> rfl

theorem text?_copy (record source : Record) (property : Property) :
    (record.copy source property).text? property = source.text? property := by
  cases property <;> rfl

/-- A property that is no part of a font is the only one that is copied. -/
theorem text?_copy_single {asked : Property} (noFont : property ∉ fontParts)
    (apart : asked ≠ property) :
    (record.copy source property).text? asked = record.text? asked := by
  have places : property.index ≠ asked.index :=
    fun same => apart (Property.index_injective same.symm)
  have changed := texts_getElem? (record.copy source property) asked
  rw [texts_copy record source noFont, List.getElem?_set_ne places, texts_getElem?] at changed
  exact (Option.some.inj changed).symm

theorem text?_copy_of_ne {asked : Property} (apart : asked ≠ property)
    (noFont : asked ∉ fontParts) :
    (record.copy source property).text? asked = record.text? asked := by
  by_cases part : property ∈ fontParts
  · rw [copy_of_fontPart part]
    exact sameBut_font record source.font asked noFont List.not_mem_nil
  · exact text?_copy_single part apart

/-- The parts of the font go together: copying one of them copies them all. -/
theorem text?_copy_fontPart {asked : Property} (part : property ∈ fontParts)
    (asks : asked ∈ fontParts) :
    (record.copy source property).text? asked = source.text? asked := by
  rw [copy_of_fontPart part]
  simp only [fontParts, List.mem_cons, List.not_mem_nil, or_false] at asks
  obtain rfl | rfl | rfl | rfl := asks <;> rfl

/-- What is copied over can be copied back. -/
theorem copy_copy_self (record source : Record) (property : Property) :
    (record.copy source property).copy record property = record := by
  cases property <;> rfl

/-- Copying a property touches this one alone: its text is that of the source, and all others keep
theirs, save that the properties of a font are copied together. What has no text stays as well:
copying the property back gives the record again. -/
theorem copy_touches_property (record source : Record) (property : Property) :
    (∀ asked, (record.copy source property).text? asked =
      if asked = property ∨ asked ∈ fontParts ∧ property ∈ fontParts then source.text? asked
      else record.text? asked) ∧
    (record.copy source property).copy record property = record := by
  refine ⟨fun asked => ?_, copy_copy_self record source property⟩
  by_cases same : asked = property
  · rw [if_pos (Or.inl same), same, text?_copy]
  by_cases together : asked ∈ fontParts ∧ property ∈ fontParts
  · rw [if_pos (Or.inr together), text?_copy_fontPart together.2 together.1]
  rw [if_neg (not_or.mpr ⟨same, together⟩)]
  by_cases part : property ∈ fontParts
  · exact text?_copy_of_ne same (fun asks => together ⟨asks, part⟩)
  · exact text?_copy_single part same

/-- Copying properties that are no part of the font makes exactly those read as they do in the
source. -/
theorem text?_copyAll (source : Record) (noFont : property ∉ fontParts)
    (properties : List Property) (record : Record) :
    (record.copyAll source properties).text? property =
      if property ∈ properties then source.text? property else record.text? property := by
  induction properties generalizing record with
  | nil => rfl
  | cons first rest ih =>
    refine (ih (record.copy source first)).trans ?_
    by_cases later : property ∈ rest
    · rw [if_pos later, if_pos (List.mem_cons_of_mem first later)]
    · rw [if_neg later]
      by_cases same : property = first
      · rw [same, text?_copy, if_pos List.mem_cons_self]
      · rw [text?_copy_of_ne same noFont, if_neg (fun mem =>
          (List.mem_cons.mp mem).elim same later)]

theorem SameBut.of_copy (copied : one.copy other property = other) :
    SameBut [property] one other := by
  intro asked noFont apart
  rw [← copied]
  exact text?_copy_of_ne (fun same => apart (List.mem_singleton.mpr same)) noFont

theorem sameBut_copy (record source : Record) (property : Property) :
    SameBut [property] record (record.copy source property) :=
  .of_copy (by cases property <;> rfl)

theorem sameBut_withPixels (record : Record) (property : Property) (pixels : Int) :
    SameBut [property] record (record.withPixels property pixels) :=
  .of_copy (by cases property <;> rfl)

theorem sameBut_withColor (record : Record) (property : Property) (color : Handle Color) :
    SameBut [property] record (record.withColor property color) :=
  .of_copy (by cases property <;> rfl)

theorem sameBut_withImage (record : Record) (property : Property)
    (image : Option (Handle Image)) :
    SameBut [property] record (record.withImage property image) :=
  .of_copy (by cases property <;> rfl)

/-- A keyword changes its own property only. The hypothesis
says that the written record is the old one with that property copied over. -/
theorem sameBut_write {α : Type} [Keyword α] {word : String} {put : Record → α → Record}
    {change : Record → Record} (written : write word put = some change)
    (puts : ∀ value, record.copy (put record value) property = put record value) :
    SameBut [property] record (change record) := by
  obtain ⟨value, _, rfl⟩ := Option.map_eq_some_iff.mp written
  exact .of_copy (puts value)

/-- A keyword changes what its own property reads back as, and nothing else. -/
theorem sameBut_withWord {word : String} {change : Record → Record}
    (written : withWord? word property = some change) :
    SameBut [property] record (change record) := by
  cases property
  case outlineStyle =>
    obtain ⟨value, _, rfl⟩ := Option.map_eq_some_iff.mp written
    exact .of_copy rfl
  all_goals first
    | exact sameBut_write written (fun _ => rfl)
    | cases written

/-- A value is written where its property has its own. -/
theorem Writes.sameBut {change : Record → Record} (writes : Writes property change)
    (record : Record) : SameBut [property] record (change record) := by
  cases writes with
  | word written => exact sameBut_withWord written
  | length length => exact .of_copy (by cases property <;> rfl)
  | pixels _ pixels => exact sameBut_withPixels record property pixels
  | noImage => exact sameBut_withImage record property none
  | transparent | lineHeight | verticalAlign | zIndex | content => exact .of_copy rfl

theorem sameBut_fixDisplay (isRoot : Bool) (record : Record) :
    SameBut [.display, .float] record (record.fixDisplay isRoot) := by
  obtain ⟨display, float, same⟩ := fixDisplay_cases isRoot record
  intro property _ apart
  rw [same]
  cases property <;> first
    | rfl
    | exact absurd (by decide) apart

theorem sameBut_fixOffsets (record : Record) :
    SameBut Property.offsets record record.fixOffsets := by
  obtain ⟨offsets, same⟩ := fixOffsets_cases record
  intro property _ apart
  rw [same]
  cases property <;> first
    | rfl
    | exact absurd (by decide) apart

theorem sameBut_fixWidths (record : Record) :
    SameBut Property.lineWidths record record.fixWidths := by
  intro property _ apart
  cases property <;> first
    | rfl
    | exact absurd (by decide) apart

end Record

namespace FontKey

/-- The text of a part of a font. -/
def part? (key : FontKey) : Property → Option String
  | .fontFamily => some key.family
  | .fontSize => some key.sizeText
  | .fontStyle => some (if key.italic then "italic" else "normal")
  | .fontWeight => some (if key.bold then "bold" else "normal")
  | _ => none

theorem part?_eq_text? {property : Property} (part : property ∈ Draft.fontParts)
    (record : Record) : record.font.value.key.part? property = record.text? property := by
  simp only [Draft.fontParts, List.mem_cons, List.not_mem_nil, or_false] at part
  obtain rfl | rfl | rfl | rfl := part <;> rfl

namespace Sets

variable {property : Property} {change : FontKey → FontKey}

theorem fontPart (sets : Sets property change) : property ∈ Draft.fontParts := by
  cases sets <;> decide

/-- A change of one part of a font leaves the others. -/
theorem part?_eq (sets : Sets property change) (key : FontKey) {asked : Property}
    (apart : asked ≠ property) : (change key).part? asked = key.part? asked := by
  cases sets <;> cases asked <;> first
    | rfl
    | exact absurd rfl apart

end Sets

end FontKey

end StyleCascade
