import StyleCascade.Entries
import StyleCascade.Record.Copy
import StyleCascade.Record.Text
import StyleCascade.Record.Used
import StyleCascade.Record.Write

namespace StyleCascade

/-- A property that takes these forms takes the length. -/
def Length.permittedBy (forms : LengthForms) : Length → Bool
  | .px _ => true
  | .percent _ => forms.percent
  | .auto => forms.auto
  | .none => forms.none
  | .normal => forms.normal

theorem Length.permittedBy_negated {forms : LengthForms} {length : Length} :
    length.negated.permittedBy forms = length.permittedBy forms := by
  cases length <;> rfl

namespace Record

/-- The lengths of a record, with their properties. -/
def lengths (record : Record) : Entries Property Length := [
  (.backgroundPositionX, record.backgroundPositionX),
  (.backgroundPositionY, record.backgroundPositionY), (.borderSpacing, record.borderSpacing),
  (.bottom, record.offsets.bottom), (.height, record.height), (.left, record.offsets.left),
  (.letterSpacing, record.letterSpacing), (.marginTop, record.margin.top),
  (.marginRight, record.margin.right), (.marginBottom, record.margin.bottom),
  (.marginLeft, record.margin.left), (.maxHeight, record.maxHeight), (.maxWidth, record.maxWidth),
  (.minHeight, record.minHeight), (.minWidth, record.minWidth), (.paddingTop, record.padding.top),
  (.paddingRight, record.padding.right), (.paddingBottom, record.padding.bottom),
  (.paddingLeft, record.padding.left), (.right, record.offsets.right),
  (.textIndent, record.textIndent), (.top, record.offsets.top), (.width, record.width),
  (.wordSpacing, record.wordSpacing)]

/-- The value of a property, if it is a length. -/
def length? (record : Record) (property : Property) : Option Length :=
  record.lengths.lookup property

/-- What holds of records while they are made. -/
structure Admissible (record : Record) : Prop where
  lengths : ∀ property forms, property.kind = .length forms →
    ∃ length, record.length? property = some length ∧ length.permittedBy forms = true
  outline : record.outlineStyle ≠ .hidden

/-- What holds of records in use, against a parent or as roots. -/
structure WellFormed (isRoot : Bool) (record : Record) : Prop where
  lengths : ∀ property forms, property.kind = .length forms →
    ∃ length, record.length? property = some length ∧ length.permittedBy forms = true
  borders : ∀ side, record.borderStyle.get side = .none ∨ record.borderStyle.get side = .hidden →
    record.borderWidth.get side = 0
  outline : record.outlineStyle ≠ .hidden
  outline_width : record.outlineStyle = .none → record.outlineWidth = 0
  display : record.display ≠ .none →
    isRoot = true ∨ record.float ≠ .none ∨ record.position = .absolute ∨ record.position = .fixed →
      record.display = .block ∨ record.display = .listItem ∨ record.display = .table
  float : record.display ≠ .none → record.position = .absolute ∨ record.position = .fixed →
    record.float = .none
  offsets : record.position = .relative → ∀ side, record.offsets.get side ≠ .auto

variable {record source changed : Record} {property : Property} {forms : LengthForms}
  {length : Length}

/-- A length is printed as the value of its property. -/
theorem text?_of_kind (record : Record) (isLength : property.kind = .length forms) :
    record.text? property = (record.length? property).map Length.text := by
  cases property <;> cases isLength <;> rfl

/-- All lengths are kept as one table, and a setter writes one entry of it. -/
theorem lengths_withLength (record : Record) (isLength : property.kind = .length forms)
    (length : Length) :
    (record.withLength property length).lengths = Entries.put property length record.lengths := by
  cases property <;> cases isLength <;> rfl

/-- Writing pixels is writing a length. -/
theorem withPixels_of_kind (record : Record) (isLength : property.kind = .length forms)
    (pixels : Int) : record.withPixels property pixels = record.withLength property
    (.px pixels) := by
  cases property <;> cases isLength <;> rfl

theorem lengths_withPixels (record : Record) (other : ∀ forms, property.kind ≠ .length forms)
    (pixels : Int) : (record.withPixels property pixels).lengths = record.lengths := by
  cases property <;> first
    | rfl
    | exact absurd rfl (other _)

/-- And so is copying one. -/
theorem copy_of_kind (record : Record) (isLength : property.kind = .length forms)
    (found : source.length? property = some length) :
    record.copy source property = record.withLength property length := by
  cases property <;> cases isLength <;> cases found <;> rfl

theorem lengths_copy (record source : Record) (other : ∀ forms, property.kind ≠ .length forms) :
    (record.copy source property).lengths = record.lengths := by
  cases property <;> first
    | rfl
    | exact absurd rfl (other _)

/-- The outline style is copied by its own property only. -/
theorem outlineStyle_copy (record source : Record) (property : Property) :
    (record.copy source property).outlineStyle =
      if property = .outlineStyle then source.outlineStyle else record.outlineStyle := by
  cases property <;> rfl

theorem outlineStyle_withLength (record : Record) (property : Property) (length : Length) :
    (record.withLength property length).outlineStyle = record.outlineStyle := by
  cases property <;> rfl

theorem outlineStyle_withPixels (record : Record) (property : Property) (pixels : Int) :
    (record.withPixels property pixels).outlineStyle = record.outlineStyle := by
  cases property <;> rfl

/-- A word is written where no length is, and outlines do not become hidden by it. -/
theorem write_frame {α : Type} [Keyword α] {word : String} {put : Record → α → Record}
    {change : Record → Record} (written : write word put = some change)
    (lengths : ∀ value, (put record value).lengths = record.lengths)
    (outline : ∀ value, (put record value).outlineStyle = record.outlineStyle) :
    (change record).lengths = record.lengths ∧
      ((change record).outlineStyle = .hidden → record.outlineStyle = .hidden) := by
  obtain ⟨value, _, rfl⟩ := Option.map_eq_some_iff.mp written
  exact ⟨lengths value, fun hidden => (outline value).symm.trans hidden⟩

/-- Writing a keyword touches no length and cannot hide the outline. -/
theorem withWord?_frame {word : String} {change : Record → Record}
    (written : withWord? word property = some change) :
    (change record).lengths = record.lengths ∧
      ((change record).outlineStyle = .hidden → record.outlineStyle = .hidden) := by
  cases property
  case outlineStyle =>
    obtain ⟨value, found, rfl⟩ := Option.map_eq_some_iff.mp written
    have shown : value ≠ .hidden := of_decide_eq_true (Option.filter_eq_some_iff.mp found).2
    exact ⟨rfl, fun hidden => absurd hidden shown⟩
  all_goals first
    | exact write_frame written (fun _ => rfl) (fun _ => rfl)
    | cases written

namespace Admissible

theorem initial (color : Handle Color) (font : Handle Font) :
    (Record.initial color font).Admissible where
  lengths property forms isLength := by
    cases property <;> cases isLength <;> exact ⟨_, rfl, rfl⟩
  outline := by
    intro hidden
    cases hidden

/-- A change that keeps every length and does not hide the outline keeps a record admissible. -/
theorem of_same (admissible : record.Admissible) (lengths : changed.lengths = record.lengths)
    (outline : changed.outlineStyle = .hidden → record.outlineStyle = .hidden) :
    changed.Admissible where
  lengths property forms isLength := by
    rw [length?, lengths]
    exact admissible.lengths property forms isLength
  outline hidden := admissible.outline (outline hidden)

/-- Writing a length keeps a record admissible when the property allows its form. -/
theorem withLength (admissible : record.Admissible) (isLength : property.kind = .length forms)
    (permitted : length.permittedBy forms = true) :
    (record.withLength property length).Admissible where
  lengths other otherForms otherIsLength := by
    rw [length?, lengths_withLength record isLength, Entries.lookup_put]
    by_cases same : other = property
    · subst same
      rw [isLength] at otherIsLength
      cases otherIsLength
      exact ⟨length, if_pos (beq_self_eq_true other), permitted⟩
    · rw [if_neg (fun equal => same (eq_of_beq equal))]
      exact admissible.lengths other otherForms otherIsLength
  outline := by
    rw [outlineStyle_withLength]
    exact admissible.outline

theorem withPixels (admissible : record.Admissible) (property : Property) (pixels : Int) :
    (record.withPixels property pixels).Admissible := by
  by_cases known : ∃ forms, property.kind = .length forms
  · obtain ⟨forms, isLength⟩ := known
    rw [withPixels_of_kind record isLength]
    exact admissible.withLength isLength rfl
  · refine admissible.of_same (lengths_withPixels record (not_exists.mp known) pixels) ?_
    rw [outlineStyle_withPixels]
    exact id

theorem copy (admissible : record.Admissible) (above : source.Admissible) (property : Property) :
    (record.copy source property).Admissible := by
  by_cases known : ∃ forms, property.kind = .length forms
  · obtain ⟨forms, isLength⟩ := known
    obtain ⟨length, found, permitted⟩ := above.lengths property forms isLength
    rw [copy_of_kind record isLength found]
    exact admissible.withLength isLength permitted
  · constructor
    · intro other forms isLength
      rw [length?, lengths_copy record source (not_exists.mp known)]
      exact admissible.lengths other forms isLength
    · rw [outlineStyle_copy]
      split
      · exact above.outline
      · exact admissible.outline

theorem copyAll (admissible : record.Admissible) (above : source.Admissible)
    (properties : List Property) : (record.copyAll source properties).Admissible := by
  induction properties generalizing record with
  | nil => exact admissible
  | cons first rest ih => exact ih (admissible.copy above first)

theorem withWord (admissible : record.Admissible) {word : String} {change : Record → Record}
    (written : withWord? word property = some change) : (change record).Admissible :=
  have frame := withWord?_frame written
  admissible.of_same frame.1 frame.2

theorem withColor (admissible : record.Admissible) (property : Property) (color : Handle Color) :
    (record.withColor property color).Admissible :=
  admissible.of_same (by cases property <;> rfl) (by cases property <;> exact id)

theorem withImage (admissible : record.Admissible) (property : Property)
    (image : Option (Handle Image)) : (record.withImage property image).Admissible :=
  admissible.of_same (by cases property <;> rfl) (by cases property <;> exact id)

end Admissible

section Used

theorem opposed_ne_auto (one other : Length) :
    (opposed one other).1 ≠ .auto ∧ (opposed one other).2 ≠ .auto := by
  cases one <;> cases other <;> simp [opposed, Length.negated, Length.zero]

/-- Of two opposed offsets one may become the other negated, or both nothing; either is a form that
the offsets allow. -/
theorem opposed_permitted {one other : Length} (oneFits : one.permittedBy forms = true)
    (otherFits : other.permittedBy forms = true) :
    (opposed one other).1.permittedBy forms = true ∧
      (opposed one other).2.permittedBy forms = true := by
  unfold opposed
  split
  · exact ⟨rfl, rfl⟩
  · exact ⟨Length.permittedBy_negated.trans otherFits, otherFits⟩
  · exact ⟨oneFits, Length.permittedBy_negated.trans oneFits⟩
  · exact ⟨oneFits, otherFits⟩

/-- Only a relative position fixes its offsets, and it writes all four of them. -/
theorem fixOffsets_of_relative (relative : record.position = .relative) :
    let sides := opposed record.offsets.left record.offsets.right
    let ends := opposed record.offsets.top record.offsets.bottom
    record.fixOffsets = (((record.withLength .top ends.1).withLength .right sides.2).withLength
      .bottom ends.2).withLength .left sides.1 := by
  rw [fixOffsets, if_pos relative]
  simp only [withLength, Edges.set]

theorem Admissible.fixOffsets (admissible : record.Admissible) : record.fixOffsets.Admissible := by
  by_cases relative : record.position = .relative
  · obtain ⟨left, isLeft, leftFits⟩ := admissible.lengths .left _ rfl
    obtain ⟨right, isRight, rightFits⟩ := admissible.lengths .right _ rfl
    obtain ⟨top, isTop, topFits⟩ := admissible.lengths .top _ rfl
    obtain ⟨bottom, isBottom, bottomFits⟩ := admissible.lengths .bottom _ rfl
    cases isLeft
    cases isRight
    cases isTop
    cases isBottom
    have sides := opposed_permitted leftFits rightFits
    have ends := opposed_permitted topFits bottomFits
    rw [fixOffsets_of_relative relative]
    exact (((admissible.withLength rfl ends.1).withLength rfl sides.2).withLength rfl
      ends.2).withLength rfl sides.1
  · rw [Record.fixOffsets, if_neg relative]
    exact admissible

theorem offsets_fixOffsets (record : Record) (relative : record.position = .relative)
    (side : Side) : record.fixOffsets.offsets.get side ≠ .auto := by
  have sides := opposed_ne_auto record.offsets.left record.offsets.right
  have ends := opposed_ne_auto record.offsets.top record.offsets.bottom
  rw [fixOffsets_of_relative relative]
  cases side
  · exact ends.1
  · exact sides.2
  · exact ends.2
  · exact sides.1

/-- Settling offsets touches nothing else. -/
theorem fixOffsets_cases (record : Record) :
    ∃ offsets, record.fixOffsets = { record with offsets := offsets } := by
  unfold fixOffsets
  split
  · exact ⟨_, rfl⟩
  · exact ⟨record.offsets, rfl⟩

/-- Of the box and its place only the kind of the box and its float change. -/
theorem fixDisplay_cases (isRoot : Bool) (record : Record) :
    ∃ display float, record.fixDisplay isRoot = { record with display := display, float := float } := by
  unfold fixDisplay
  split
  · exact ⟨record.display, record.float, rfl⟩
  · split
    · exact ⟨_, _, rfl⟩
    · split
      · exact ⟨_, record.float, rfl⟩
      · exact ⟨record.display, record.float, rfl⟩

theorem blockified_cases {display : Display} (shown : display ≠ .none) :
    display.blockified = .block ∨ display.blockified = .listItem ∨ display.blockified = .table := by
  cases display <;> simp_all [Display.blockified]

theorem isInvisible_iff {style : BorderStyle} :
    style.isInvisible = true ↔ style = .none ∨ style = .hidden := by
  cases style <;> simp [BorderStyle.isInvisible]

theorem isOutOfFlow_iff :
    record.isOutOfFlow = true ↔ record.position = .absolute ∨ record.position = .fixed := by
  simp [isOutOfFlow]

/-- What leaves the flow, and the root, is displayed in one of the three block forms as long as it
is displayed at all. -/
theorem display_fixDisplay (record : Record) (isRoot : Bool)
    (shown : (record.fixDisplay isRoot).display ≠ .none)
    (leaves : isRoot = true ∨ (record.fixDisplay isRoot).float ≠ .none ∨
      record.position = .absolute ∨ record.position = .fixed) :
    (record.fixDisplay isRoot).display = .block ∨ (record.fixDisplay isRoot).display = .listItem ∨
      (record.fixDisplay isRoot).display = .table := by
  rw [← isOutOfFlow_iff] at leaves
  unfold fixDisplay at shown leaves ⊢
  by_cases hidden : record.display = .none
  · rw [if_pos hidden] at shown
    exact absurd hidden shown
  · rw [if_neg hidden] at leaves ⊢
    by_cases outside : record.isOutOfFlow = true
    · rw [if_pos outside]
      exact blockified_cases hidden
    · rw [if_neg outside] at leaves ⊢
      by_cases blocky : (record.float ≠ .none || isRoot) = true
      · rw [if_pos blocky]
        exact blockified_cases hidden
      · rw [if_neg blocky] at leaves
        simp_all

/-- An absolute or fixed position wins over floating. -/
theorem float_fixDisplay (record : Record) (isRoot : Bool)
    (shown : (record.fixDisplay isRoot).display ≠ .none)
    (outside : record.position = .absolute ∨ record.position = .fixed) :
    (record.fixDisplay isRoot).float = .none := by
  rw [← isOutOfFlow_iff] at outside
  unfold fixDisplay at shown ⊢
  by_cases hidden : record.display = .none
  · rw [if_pos hidden] at shown
    exact absurd hidden shown
  · rw [if_neg hidden, if_pos outside]

/-- What is seen together in the end is brought in line. -/
theorem Admissible.used (admissible : record.Admissible) (isRoot : Bool) :
    (((record.fixDisplay isRoot).fixOffsets).fixWidths).WellFormed isRoot := by
  have boxed : (record.fixDisplay isRoot).Admissible := by
    obtain ⟨display, float, same⟩ := fixDisplay_cases isRoot record
    rw [same]
    exact admissible.of_same rfl id
  have position : (record.fixDisplay isRoot).position = record.position := by
    obtain ⟨display, float, same⟩ := fixDisplay_cases isRoot record
    rw [same]
  have display := display_fixDisplay record isRoot
  have float := float_fixDisplay record isRoot
  rw [← position] at display float
  generalize record.fixDisplay isRoot = box at boxed display float
  have placed := boxed.fixOffsets
  have offsets := offsets_fixOffsets box
  obtain ⟨settled, same⟩ := fixOffsets_cases box
  rw [same] at placed offsets ⊢
  exact {
    lengths := placed.lengths
    outline := placed.outline
    borders := fun side bare => (Edges.get_mapSides _ _ side).trans (if_pos (isInvisible_iff.mpr bare))
    outline_width := fun bare => if_pos bare
    display := display
    float := float
    offsets := offsets }

end Used

end Record

end StyleCascade
