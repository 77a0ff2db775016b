import StyleCascade.Proofs.Intern.ValuePool
import StyleCascade.Proofs.Record.Handles
import StyleCascade.Resolve.Basis
import StyleCascade.Resolve.Tables

namespace StyleCascade

namespace Held

variable {held : Held} {making : List Record} {record : Record}

theorem alive_of_mem {α : Type} {handles : List (Handle α)} {handle : Handle α}
    (inside : handle ∈ handles) : Handle.alive handles handle.address = true :=
  List.any_eq_true.mpr ⟨handle, inside, by simp⟩

theorem colors_alive (used : record ∈ making ++ held.map Handle.value) {handle : Handle Color}
    (inside : handle ∈ record.colors) : held.colors making handle.address = true :=
  alive_of_mem (List.mem_flatMap.mpr ⟨record, used, inside⟩)

theorem font_alive (used : record ∈ making ++ held.map Handle.value) :
    held.fonts making record.font.address = true :=
  alive_of_mem (List.mem_map.mpr ⟨record, used, rfl⟩)

theorem images_alive (used : record ∈ making ++ held.map Handle.value) {handle : Handle Image}
    (inside : handle ∈ record.images) : held.images making handle.address = true :=
  alive_of_mem (List.mem_flatMap.mpr ⟨record, used, inside⟩)

end Held

namespace Tables

variable {tables one other : Tables} {held : Held} {making : List Record} {record outline : Record}

/-- The handles that the tables have for what handles are handles of. -/
def naming (tables : Tables) : Renaming where
  color handle := (tables.colors.entries.lookup handle.value.name).getD handle
  font handle := (tables.fonts.entries.lookup handle.value.key).getD handle
  image handle := (tables.images.entries.lookup handle.value.url).getD handle

/-- What the tables have a handle for. A font must have the same sizes. -/
def listed (tables : Tables) : Palette where
  color handle := (handle.value.name, tables.naming.color handle) ∈ tables.colors.entries
  font handle := (handle.value.key, tables.naming.font handle) ∈ tables.fonts.entries ∧
    (tables.naming.font handle).value = handle.value
  image handle := (handle.value.url, tables.naming.image handle) ∈ tables.images.entries

/-- A record is the outline with the handles of the tables. -/
structure Shows (tables : Tables) (record outline : Record) : Prop where
  filled : record = outline.rename tables.naming
  listed : outline.Uses tables.listed

/-- Four sound pools. Colours are listed by their names, and fonts by their keys. -/
structure Sound (tables : Tables) : Prop where
  colors : tables.colors.Sound
  fonts : tables.fonts.Sound
  images : tables.images.Sound
  records : tables.records.Sound
  names : ∀ name color, (name, color) ∈ tables.colors.entries → color.value.name = name
  keys : ∀ key font, (key, font) ∈ tables.fonts.entries → font.value.key = key

/-- The tables have all handles of a record that other tables have. -/
structure Keeps (one other : Tables) (record : Record) : Prop where
  color : ∀ key, ∀ handle ∈ record.colors,
    (key, handle) ∈ one.colors.entries → (key, handle) ∈ other.colors.entries
  font : ∀ key, (key, record.font) ∈ one.fonts.entries → (key, record.font) ∈ other.fonts.entries
  image : ∀ key, ∀ handle ∈ record.images,
    (key, handle) ∈ one.images.entries → (key, handle) ∈ other.images.entries

theorem Keeps.refl (tables : Tables) (record : Record) : tables.Keeps tables record :=
  ⟨fun _ _ _ listed => listed, fun _ listed => listed, fun _ _ _ listed => listed⟩

/-- Keeping a record goes on from one state of the tables to the next. -/
theorem Keeps.trans {third : Tables} (first : one.Keeps other record)
    (second : other.Keeps third record) : one.Keeps third record where
  color key handle inside listed :=
    second.color key handle inside (first.color key handle inside listed)
  font key listed := second.font key (first.font key listed)
  image key handle inside listed :=
    second.image key handle inside (first.image key handle inside listed)

section Shows

/-- A listed handle is what its key names; the pools hold one handle a key. -/
theorem naming_color (sound : tables.Sound) {key : String} {handle named : Handle Color}
    (listed : (key, handle) ∈ tables.colors.entries) (same : named.value.name = key) :
    tables.naming.color named = handle := by
  simp only [naming, same, (Entries.lookup_eq_some_iff sound.colors.keys).mpr listed,
    Option.getD_some]

theorem naming_font (sound : tables.Sound) {key : FontKey} {handle named : Handle Font}
    (listed : (key, handle) ∈ tables.fonts.entries) (same : named.value.key = key) :
    tables.naming.font named = handle := by
  simp only [naming, same, (Entries.lookup_eq_some_iff sound.fonts.keys).mpr listed,
    Option.getD_some]

theorem naming_image (sound : tables.Sound) {key : String} {handle named : Handle Image}
    (listed : (key, handle) ∈ tables.images.entries) (same : named.value.url = key) :
    tables.naming.image named = handle := by
  simp only [naming, same, (Entries.lookup_eq_some_iff sound.images.keys).mpr listed,
    Option.getD_some]

/-- Tables that keep the handles of a record go on to show it. -/
theorem Shows.of_keeps (sound : other.Sound) (keeps : one.Keeps other record)
    (shown : one.Shows record outline) : other.Shows record outline := by
  obtain ⟨filled, listed⟩ := shown
  have colors : ∀ handle ∈ outline.colors,
      (handle.value.name, one.naming.color handle) ∈ other.colors.entries := by
    intro handle inside
    refine keeps.color _ _ ?_ (listed.color handle inside)
    rw [filled, Record.colors_rename]
    exact List.mem_map_of_mem inside
  have font : (outline.font.value.key, one.naming.font outline.font) ∈ other.fonts.entries := by
    have same : one.naming.font outline.font = record.font := by rw [filled]; rfl
    have old := listed.font.1
    rw [same] at old ⊢
    exact keeps.font _ old
  have images : ∀ handle ∈ outline.images,
      (handle.value.url, one.naming.image handle) ∈ other.images.entries := by
    intro handle inside
    refine keeps.image _ _ ?_ (listed.image handle inside)
    rw [filled, Record.images_rename]
    exact List.mem_map_of_mem inside
  have sameColor : ∀ handle ∈ outline.colors,
      one.naming.color handle = other.naming.color handle :=
    fun handle inside => (naming_color sound (colors handle inside) rfl).symm
  have sameFont : one.naming.font outline.font = other.naming.font outline.font :=
    (naming_font sound font rfl).symm
  have sameImage : ∀ handle ∈ outline.images,
      one.naming.image handle = other.naming.image handle :=
    fun handle inside => (naming_image sound (images handle inside) rfl).symm
  refine ⟨filled.trans (Record.rename_congr sameColor sameFont sameImage), ?_, ⟨?_, ?_⟩, ?_⟩
  · intro handle inside
    have found := colors handle inside
    rw [sameColor handle inside] at found
    exact found
  · exact sameFont ▸ font
  · exact sameFont ▸ listed.font.2
  · intro handle inside
    have found := images handle inside
    rw [sameImage handle inside] at found
    exact found

/-- Two records that the tables show for one outline are the same. -/
theorem Shows.unique {found : Record} (shown : tables.Shows record outline)
    (again : tables.Shows found outline) : record = found :=
  shown.filled.trans again.filled.symm

/-- A change that commutes with every renaming is made on both sides at once. -/
theorem Shows.uniform {change : Record → Record} (uniform : Record.Uniform change)
    (shown : tables.Shows record outline) : tables.Shows (change record) (change outline) where
  filled := by rw [shown.filled, uniform]
  listed := uniform.uses shown.listed

theorem Shows.font_value (shown : tables.Shows record outline) :
    record.font.value = outline.font.value := by
  rw [shown.filled]
  exact shown.listed.font.2

variable {source sourceOutline : Record}

/-- Copying a property commutes with showing. -/
theorem Shows.copy (shown : tables.Shows record outline)
    (parent : tables.Shows source sourceOutline) (property : Property) :
    tables.Shows (record.copy source property) (outline.copy sourceOutline property) where
  filled := by rw [shown.filled, parent.filled, Record.copy_rename]
  listed := by
    refine Record.uses_iff.mpr fun f fixed => ?_
    rw [← Record.copy_rename, Record.uses_iff.mp shown.listed f fixed,
      Record.uses_iff.mp parent.listed f fixed]

/-- Copying several properties commutes with showing. -/
theorem Shows.copyAll (shown : tables.Shows record outline)
    (parent : tables.Shows source sourceOutline) (properties : List Property) :
    tables.Shows (record.copyAll source properties)
      (outline.copyAll sourceOutline properties) := by
  induction properties generalizing record outline with
  | nil => exact shown
  | cons property rest ih => exact ih (shown.copy parent property)

/-- Writing a colour shows as writing the handle that the tables list for it. -/
theorem Shows.withColor {color named : Handle Color} (shown : tables.Shows record outline)
    (has : tables.naming.color named = color) (listed : tables.listed.color named)
    (property : Property) :
    tables.Shows (record.withColor property color) (outline.withColor property named) where
  filled := by rw [shown.filled, ← has, Record.withColor_rename]
  listed := by
    refine Record.uses_iff.mpr fun f fixed => ?_
    rw [← Record.withColor_rename, Record.uses_iff.mp shown.listed f fixed,
      fixed.color named listed]

/-- The same for the image of a background or a list. -/
theorem Shows.withImage {image named : Handle Image} (shown : tables.Shows record outline)
    (has : tables.naming.image named = image) (listed : tables.listed.image named)
    (property : Property) :
    tables.Shows (record.withImage property (some image))
      (outline.withImage property (some named)) where
  filled := by rw [shown.filled, ← has, ← Record.withImage_rename]; rfl
  listed := by
    refine Record.uses_iff.mpr fun f fixed => ?_
    rw [← Record.withImage_rename, Record.uses_iff.mp shown.listed f fixed, Option.map_some,
      fixed.image named listed]

theorem Shows.withFont {font named : Handle Font} (shown : tables.Shows record outline)
    (has : tables.naming.font named = font) (listed : tables.listed.font named) :
    tables.Shows { record with font := font } { outline with font := named } where
  filled := by rw [shown.filled, ← has]; rfl
  listed := ⟨shown.listed.color, listed, shown.listed.image⟩

/-- The initial record of two listed handles shows the initial record of what they stand for. -/
theorem shows_initial {color namedColor : Handle Color} {font namedFont : Handle Font}
    (hasColor : tables.naming.color namedColor = color)
    (listedColor : tables.listed.color namedColor)
    (hasFont : tables.naming.font namedFont = font)
    (listedFont : tables.listed.font namedFont) :
    tables.Shows (.initial color font) (.initial namedColor namedFont) where
  filled := by rw [Record.initial_rename, hasColor, hasFont]
  listed := by
    refine Record.uses_iff.mpr fun f fixed => ?_
    rw [Record.initial_rename, fixed.color _ listedColor, fixed.font _ listedFont]

theorem Shows.initial (shown : tables.Shows record outline) :
    tables.Shows (.initial record.color record.font) (.initial outline.color outline.font) := by
  refine shows_initial ?_ (shown.listed.color _ ?_) ?_ shown.listed.font
  · rw [shown.filled]; rfl
  · exact List.mem_cons_self
  · rw [shown.filled]; rfl

end Shows

section Interning

theorem Sound.empty : Tables.empty.Sound where
  colors := Pool.Sound.empty
  fonts := Pool.Sound.empty
  images := Pool.Sound.empty
  records := ValuePool.Sound.empty _
  names := by simp [Tables.empty, Pool.empty]
  keys := by simp [Tables.empty, Pool.empty]

theorem Sound.internColor (sound : tables.Sound) (held : Held) (making : List Record)
    (color : Color) : (tables.internColor held making color).2.Sound :=
  { sound with
    colors := sound.colors.intern
    names := by
      intro name handle listed
      rcases Pool.mem_of_mem_intern sound.colors listed with old | ⟨rfl, same⟩
      · exact sound.names name handle old
      · rw [same] }

/-- The image table is sound after it took an image in, and so are the others, which it leaves
alone. -/
theorem Sound.internImage (sound : tables.Sound) (held : Held) (making : List Record)
    (url : String) (image : Image) :
    (tables.internImage held making url image).2.Sound :=
  { sound with images := sound.images.intern }

theorem Sound.internFont (sound : tables.Sound) (held : Held) (making : List Record)
    (font : Font) : (tables.internFont held making font).2.Sound :=
  { sound with
    fonts := sound.fonts.intern
    keys := by
      intro key handle listed
      rcases Pool.mem_of_mem_intern sound.fonts listed with old | ⟨rfl, same⟩
      · exact sound.keys key handle old
      · rw [same] }

theorem Sound.internRecord (sound : tables.Sound) (held : Held) (record : Record) :
    (tables.internRecord held record).2.Sound :=
  { sound with records := sound.records.intern }

theorem Sound.purge (sound : tables.Sound) (held : Held) :
    (tables.purge held).Sound where
  colors := sound.colors.purge _
  fonts := sound.fonts.purge _
  images := sound.images.purge _
  records := sound.records.purge _
  names name color listed := sound.names name color (Pool.mem_purge_iff.mp listed).1
  keys key font listed := sound.keys key font (Pool.mem_purge_iff.mp listed).1

/-- Interning drops no handle that a record in use refers to: it can overwrite an entry that nobody
holds, and no other. -/
theorem keeps_internColor (sound : tables.Sound) (color : Color)
    (used : record ∈ making ++ held.map Handle.value) :
    tables.Keeps (tables.internColor held making color).2 record :=
  { Keeps.refl tables record with
    color := fun _ _ inside listed =>
      Pool.mem_intern_of_alive sound.colors listed (Held.colors_alive used inside) }

theorem keeps_internImage (sound : tables.Sound) (url : String) (image : Image)
    (used : record ∈ making ++ held.map Handle.value) :
    tables.Keeps (tables.internImage held making url image).2 record :=
  { Keeps.refl tables record with
    image := fun _ _ inside listed =>
      Pool.mem_intern_of_alive sound.images listed (Held.images_alive used inside) }

theorem keeps_internFont (sound : tables.Sound) (font : Font)
    (used : record ∈ making ++ held.map Handle.value) :
    tables.Keeps (tables.internFont held making font).2 record :=
  { Keeps.refl tables record with
    font := fun _ listed =>
      Pool.mem_intern_of_alive sound.fonts listed (Held.font_alive used) }

theorem Keeps.internRecord {shared : Record} (keeps : one.Keeps other record) :
    one.Keeps (other.internRecord held shared).2 record :=
  ⟨keeps.color, keeps.font, keeps.image⟩

theorem Shows.internRecord {shared : Record} (shown : tables.Shows record outline) :
    (tables.internRecord held shared).2.Shows record outline :=
  ⟨shown.filled, shown.listed⟩

/-- Nor does a purge. -/
theorem keeps_purge (used : record ∈ held.map Handle.value) :
    tables.Keeps (tables.purge held) record where
  color _ _ inside listed := Pool.mem_purge_iff.mpr
    ⟨listed, Held.colors_alive (List.mem_append_right [] used) inside⟩
  font _ listed := Pool.mem_purge_iff.mpr
    ⟨listed, Held.font_alive (List.mem_append_right [] used)⟩
  image _ _ inside listed := Pool.mem_purge_iff.mpr
    ⟨listed, Held.images_alive (List.mem_append_right [] used) inside⟩

/-- Behind interning a colour the tables have the handle that was handed out. -/
theorem listed_internColor (sound : tables.Sound) (held : Held)
    (making : List Record) (color : Color) (address : Nat) :
    (tables.internColor held making color).2.naming.color ⟨address, color⟩ =
        (tables.internColor held making color).1 ∧
      (tables.internColor held making color).2.listed.color ⟨address, color⟩ := by
  have given := Pool.mem_intern sound.colors (held.colors making) color.name color
  have has : (tables.internColor held making color).2.naming.color ⟨address, color⟩ =
      (tables.internColor held making color).1 :=
    naming_color (sound.internColor held making color) given rfl
  refine ⟨has, ?_⟩
  show (color.name, _) ∈ _
  rw [has]
  exact given

/-- Behind interning an image the tables have the handle that was handed out. -/
theorem listed_internImage (sound : tables.Sound) (held : Held)
    (making : List Record) (url : String) (image : Image)
    (address : Nat) (size : Option (Nat × Nat)) :
    (tables.internImage held making url image).2.naming.image ⟨address, ⟨url, size⟩⟩ =
        (tables.internImage held making url image).1 ∧
      (tables.internImage held making url image).2.listed.image ⟨address, ⟨url, size⟩⟩ := by
  have given := Pool.mem_intern sound.images (held.images making) url image
  have has : (tables.internImage held making url image).2.naming.image ⟨address, ⟨url, size⟩⟩ =
      (tables.internImage held making url image).1 :=
    naming_image (sound.internImage held making url image) given rfl
  refine ⟨has, ?_⟩
  show (url, _) ∈ _
  rw [has]
  exact given

/-- Whoever holds the font of a key holds this one. -/
def Agrees (tables : Tables) (held : Held) (making : List Record) (font : Font) : Prop :=
  ∀ handle, tables.fonts.get? (held.fonts making) font.key = some handle → handle.value = font

theorem Agrees.value {font : Font} (agrees : tables.Agrees held making font) :
    (tables.internFont held making font).1.value = font := by
  show (tables.fonts.intern (held.fonts making) font.key font).1.value = font
  unfold Pool.intern
  split
  · next handle found => exact agrees handle found
  · rfl

/-- Behind interning a font the tables have the handle that was handed out. -/
theorem listed_internFont (sound : tables.Sound) {held : Held} {making : List Record} {font : Font}
    (agrees : tables.Agrees held making font) (address : Nat) :
    (tables.internFont held making font).2.naming.font ⟨address, font⟩ =
        (tables.internFont held making font).1 ∧
      (tables.internFont held making font).2.listed.font ⟨address, font⟩ := by
  have given := Pool.mem_intern sound.fonts (held.fonts making) font.key font
  have behind := sound.internFont held making font
  have has : (tables.internFont held making font).2.naming.font ⟨address, font⟩ =
      (tables.internFont held making font).1 := naming_font behind given rfl
  refine ⟨has, ⟨?_, ?_⟩⟩
  · show (font.key, _) ∈ _
    rw [has]
    exact given
  · rw [has]
    exact agrees.value

end Interning

/-- The tables show every held record and remember its handle, and no two held records are
equal. -/
structure Backs (tables : Tables) (held : Held) : Prop where
  remembered : ∀ handle ∈ held, handle ∈ tables.records.handles
  shown : ∀ handle ∈ held, ∃ outline, tables.Shows handle.value outline
  apart : ∀ one ∈ held, ∀ other ∈ held, one.value = other.value → one = other

namespace Backs

theorem nil (tables : Tables) : tables.Backs [] := by
  constructor <;> simp

/-- Holding less is backed as well. -/
theorem subset {less : Held} (backs : tables.Backs held) (fewer : less ⊆ held) :
    tables.Backs less where
  remembered handle inside := backs.remembered handle (fewer inside)
  shown handle inside := backs.shown handle (fewer inside)
  apart one isOne other isOther := backs.apart one (fewer isOne) other (fewer isOther)

/-- Held records are the same if the tables show them for one outline. -/
theorem unique {one other : Handle Record} (backs : tables.Backs held) (isOne : one ∈ held)
    (isOther : other ∈ held) (shown : tables.Shows one.value outline)
    (again : tables.Shows other.value outline) : one = other :=
  backs.apart one isOne other isOther (shown.unique again)

/-- A pool handle that is alive is held. -/
theorem mem_of_alive (sound : tables.Sound) (backs : tables.Backs held)
    {handle : Handle Record} (inside : handle ∈ tables.records.handles)
    (live : Handle.alive held handle.address = true) : handle ∈ held := by
  obtain ⟨holder, isHolder, same⟩ := List.any_eq_true.mp live
  have known := backs.remembered holder isHolder
  rw [sound.records.addresses handle inside holder known (eq_of_beq same).symm]
  exact isHolder

/-- Tables that keep the held records go on to back them. -/
theorem of_keeps {other : Tables} (backs : tables.Backs held) (sound : other.Sound)
    (same : other.records = tables.records)
    (keeps : ∀ record ∈ held.map Handle.value, tables.Keeps other record) :
    other.Backs held where
  remembered handle inside := by
    rw [same]
    exact backs.remembered handle inside
  shown handle inside := by
    obtain ⟨outline, shown⟩ := backs.shown handle inside
    exact ⟨outline, shown.of_keeps sound (keeps _ (List.mem_map_of_mem inside))⟩
  apart := backs.apart

theorem purge (sound : tables.Sound) (backs : tables.Backs held) :
    (tables.purge held).Backs held where
  remembered handle inside := ValuePool.mem_purge_iff.mpr
    ⟨backs.remembered handle inside, Held.alive_of_mem inside⟩
  shown handle inside := by
    obtain ⟨outline, shown⟩ := backs.shown handle inside
    exact ⟨outline, shown.of_keeps (sound.purge held) (keeps_purge (List.mem_map_of_mem inside))⟩
  apart := backs.apart

/-- A record that the tables show is shared, and then held beside the others. -/
theorem internRecord (sound : tables.Sound) (backs : tables.Backs held)
    (shown : tables.Shows record outline) :
    (tables.internRecord held record).2.Backs
      ((tables.internRecord held record).1 :: held) := by
  have value : (tables.internRecord held record).1.value = record :=
    ValuePool.intern_value tables.records _ _
  -- a held record with the same values is the one that is given out
  have meets : ∀ holder ∈ held, holder.value = record →
      (tables.internRecord held record).1 = holder := by
    intro holder isHolder same
    refine ValuePool.intern_eq_of_alive sound.records ?_ (backs.remembered holder isHolder)
      (Held.alive_of_mem isHolder) same
    intro other inside live otherSame
    exact backs.apart other (mem_of_alive sound backs inside live) holder isHolder
      (otherSame.trans same.symm)
  constructor
  · intro handle inside
    rcases List.mem_cons.mp inside with rfl | old
    · exact ValuePool.mem_intern sound.records
    · exact ValuePool.mem_intern_of_alive sound.records (backs.remembered handle old)
        (Held.alive_of_mem old)
  · intro handle inside
    rcases List.mem_cons.mp inside with rfl | old
    · rw [value]
      exact ⟨outline, shown.internRecord⟩
    · obtain ⟨before, was⟩ := backs.shown handle old
      exact ⟨before, was.internRecord⟩
  · intro one isOne other isOther same
    rcases List.mem_cons.mp isOne with rfl | oneOld
    · rcases List.mem_cons.mp isOther with rfl | otherOld
      · rfl
      · exact meets other otherOld (same.symm.trans value)
    · rcases List.mem_cons.mp isOther with rfl | otherOld
      · exact (meets one oneOld (same.trans value)).symm
      · exact backs.apart one oneOld other otherOld same

end Backs

end Tables

end StyleCascade
