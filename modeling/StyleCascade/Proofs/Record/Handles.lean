import StyleCascade.Record.Copy
import StyleCascade.Record.Used
import StyleCascade.Record.Write

namespace StyleCascade

/-- New handles for old ones. -/
structure Renaming where
  color : Handle Color → Handle Color
  font : Handle Font → Handle Font
  image : Handle Image → Handle Image

/-- Which handles are admitted. -/
structure Palette where
  color : Handle Color → Prop
  font : Handle Font → Prop
  image : Handle Image → Prop

/-- A renaming that leaves the admitted handles alone. -/
structure Palette.Fixed (palette : Palette) (f : Renaming) : Prop where
  color : ∀ handle, palette.color handle → f.color handle = handle
  font : ∀ handle, palette.font handle → f.font handle = handle
  image : ∀ handle, palette.image handle → f.image handle = handle

namespace Record

/-- Renames the handles of a record. -/
def rename (record : Record) (f : Renaming) : Record :=
  { record with
    borderColor := record.borderColor.mapSides (fun _ => f.color)
    outlineColor := f.color record.outlineColor
    backgroundColor := record.backgroundColor.map f.color
    backgroundImage := record.backgroundImage.map f.image
    color := f.color record.color
    font := f.font record.font
    listStyleImage := record.listStyleImage.map f.image }

/-- All handles of a record are admitted. -/
structure Uses (record : Record) (palette : Palette) : Prop where
  color : ∀ handle ∈ record.colors, palette.color handle
  font : palette.font record.font
  image : ∀ handle ∈ record.images, palette.image handle

/-- A change of records that looks at no handle. -/
def Uniform (change : Record → Record) : Prop :=
  ∀ (record : Record) (f : Renaming), change (record.rename f) = (change record).rename f

variable (record source : Record) (f g : Renaming)

theorem colors_rename : (record.rename f).colors = record.colors.map f.color := by
  cases back : record.backgroundColor <;>
    simp [colors, rename, Edges.toList, Edges.mapSides, back]

theorem images_rename : (record.rename f).images = record.images.map f.image := by
  cases back : record.backgroundImage <;> cases list : record.listStyleImage <;>
    simp [images, rename, back, list]

variable {record source f g}

/-- Two renamings that agree on the handles of a record rename it alike. -/
theorem rename_congr (colors : ∀ handle ∈ record.colors, f.color handle = g.color handle)
    (font : f.font record.font = g.font record.font)
    (images : ∀ handle ∈ record.images, f.image handle = g.image handle) :
    record.rename f = record.rename g := by
  have background : record.backgroundColor.map f.color = record.backgroundColor.map g.color :=
    Option.map_congr fun handle inside => colors handle (by simp [Record.colors, inside])
  have behind : record.backgroundImage.map f.image = record.backgroundImage.map g.image :=
    Option.map_congr fun handle inside => images handle (by simp [Record.images, inside])
  have marker : record.listStyleImage.map f.image = record.listStyleImage.map g.image :=
    Option.map_congr fun handle inside => images handle (by simp [Record.images, inside])
  have sides : ∀ handle ∈ record.borderColor.toList, f.color handle = g.color handle :=
    fun handle inside => colors handle (by simp [Record.colors, inside])
  have top := sides record.borderColor.top (by simp [Edges.toList])
  have right := sides record.borderColor.right (by simp [Edges.toList])
  have bottom := sides record.borderColor.bottom (by simp [Edges.toList])
  have left := sides record.borderColor.left (by simp [Edges.toList])
  have outline := colors record.outlineColor (by simp [Record.colors])
  have text := colors record.color (by simp [Record.colors])
  simp only [rename, Edges.mapSides, background, behind, marker, top, right, bottom, left, outline,
    text, font]

theorem rename_id : record.rename ⟨id, id, id⟩ = record := by
  simp [rename, Edges.mapSides]

/-- The handles of a record are admitted if no renaming that spares the admitted ones is felt. -/
theorem uses_iff {palette : Palette} :
    record.Uses palette ↔ ∀ f, palette.Fixed f → record.rename f = record := by
  classical
  constructor
  · intro uses f fixed
    refine Eq.trans (rename_congr ?_ ?_ ?_) rename_id
    · exact fun handle inside => fixed.color handle (uses.color handle inside)
    · exact fixed.font _ uses.font
    · exact fun handle inside => fixed.image handle (uses.image handle inside)
  · intro same
    -- a renaming that moves every handle that is not admitted
    let mover : Renaming :=
      { color := fun handle =>
          if palette.color handle then handle else ⟨handle.address + 1, handle.value⟩
        font := fun handle =>
          if palette.font handle then handle else ⟨handle.address + 1, handle.value⟩
        image := fun handle =>
          if palette.image handle then handle else ⟨handle.address + 1, handle.value⟩ }
    have unmoved := same mover
      ⟨fun _ admitted => if_pos admitted, fun _ admitted => if_pos admitted,
        fun _ admitted => if_pos admitted⟩
    have moved {α : Type} {handle : Handle α} :
        (⟨handle.address + 1, handle.value⟩ : Handle α) ≠ handle :=
      fun same => Nat.succ_ne_self _ (congrArg Handle.address same)
    constructor
    · intro handle inside
      have all := colors_rename record mover
      rw [unmoved] at all
      have stays := List.map_inj_left.mp ((List.map_id _).trans all) handle inside
      refine Classical.byContradiction fun refused => ?_
      exact moved ((if_neg refused).symm.trans stays.symm)
    · have stays : mover.font record.font = record.font := congrArg Record.font unmoved
      refine Classical.byContradiction fun refused => ?_
      exact moved ((if_neg refused).symm.trans stays)
    · intro handle inside
      have all := images_rename record mover
      rw [unmoved] at all
      have stays := List.map_inj_left.mp ((List.map_id _).trans all) handle inside
      refine Classical.byContradiction fun refused => ?_
      exact moved ((if_neg refused).symm.trans stays.symm)

/-- A change that looks at no handle brings none of its own. -/
theorem Uniform.uses {change : Record → Record} (uniform : Uniform change) {palette : Palette}
    (uses : record.Uses palette) : (change record).Uses palette := by
  refine uses_iff.mpr fun f fixed => ?_
  rw [← uniform, uses_iff.mp uses f fixed]

variable (record source f)

theorem initial_rename (color : Handle Color) (font : Handle Font) :
    (initial color font).rename f = initial (f.color color) (f.font font) :=
  rfl

theorem copy_rename (property : Property) :
    (record.rename f).copy (source.rename f) property = (record.copy source property).rename f := by
  cases property <;> simp only [copy, rename] <;> rfl

/-- Renaming goes through every setter that files a handle. -/
theorem withColor_rename (property : Property) (color : Handle Color) :
    (record.rename f).withColor property (f.color color) =
      (record.withColor property color).rename f := by
  cases property <;> rfl

theorem withImage_rename (property : Property) (image : Option (Handle Image)) :
    (record.rename f).withImage property (image.map f.image) =
      (record.withImage property image).rename f := by
  cases property <;> rfl

variable {record source f}

theorem withLength_uniform (property : Property) (length : Length) :
    Uniform (fun record => record.withLength property length) := by
  intro record f
  cases property <;> rfl

theorem withPixels_uniform (property : Property) (pixels : Int) :
    Uniform (fun record => record.withPixels property pixels) := by
  intro record f
  cases property <;> rfl

/-- Renaming goes through a keyword that a property takes. -/
theorem write_uniform {α : Type} [Keyword α] {word : String} {put : Record → α → Record}
    {change : Record → Record} (uniform : ∀ value, Uniform (fun record => put record value))
    (written : write word put = some change) : Uniform change := by
  obtain ⟨value, _, rfl⟩ := Option.map_eq_some_iff.mp written
  exact uniform value

theorem writeOutline_uniform {word : String} {put : Record → BorderStyle → Record}
    {change : Record → Record} (uniform : ∀ value, Uniform (fun record => put record value))
    (written : writeOutline word put = some change) : Uniform change := by
  obtain ⟨value, _, rfl⟩ := Option.map_eq_some_iff.mp written
  exact uniform value

theorem withWord?_uniform {word : String} {property : Property} {change : Record → Record}
    (written : withWord? word property = some change) : Uniform change := by
  cases property
  case outlineStyle => exact writeOutline_uniform (fun _ _ _ => rfl) written
  all_goals first
    | exact write_uniform (fun _ _ _ => rfl) written
    | cases written

theorem fixDisplay_uniform (isRoot : Bool) : Uniform (fixDisplay isRoot) := by
  intro record f
  show (if record.display = .none then record.rename f
    else if record.isOutOfFlow then _ else if record.float ≠ .none || isRoot then _
    else record.rename f) = _
  by_cases hidden : record.display = .none
  · simp only [fixDisplay, if_pos hidden]
  · by_cases outside : record.isOutOfFlow = true
    · simp only [fixDisplay, if_neg hidden, if_pos outside]
      rfl
    · by_cases blocky : (record.float ≠ .none || isRoot) = true
      · simp only [fixDisplay, if_neg hidden, if_neg outside, if_pos blocky]
        rfl
      · simp only [fixDisplay, if_neg hidden, if_neg outside, if_neg blocky]

theorem fixOffsets_uniform : Uniform fixOffsets := by
  intro record f
  by_cases relative : record.position = .relative
  · have same : (record.rename f).position = .relative := relative
    simp only [fixOffsets, if_pos relative, if_pos same]
    rfl
  · have same : ¬(record.rename f).position = .relative := relative
    simp only [fixOffsets, if_neg relative, if_neg same]

theorem fixWidths_uniform : Uniform fixWidths :=
  fun _ _ => rfl

end Record

end StyleCascade
