import StyleCascade.Proofs.Declared.PropertySet
import StyleCascade.Proofs.Resolve.Reached

namespace StyleCascade

namespace Record

variable {record : Record} {f g : Renaming}

theorem rename_rename (record : Record) (f g : Renaming) :
    (record.rename f).rename g =
      record.rename ⟨g.color ∘ f.color, g.font ∘ f.font, g.image ∘ f.image⟩ := by
  simp [rename, Edges.mapSides]

end Record

namespace Tables

variable {tables : Tables} {held : Held}

/-- The address that an image is shared by: its own, for an image that is not shared. -/
def urlOf (tables : Tables) (image : Handle Image) : String :=
  ((tables.images.entries.find? (fun entry => entry.2 = image)).map Prod.fst).getD image.value.url

/-- Handles that only tell the name of a colour, the key of a font and the address of an image. -/
def labels (tables : Tables) : Renaming where
  color handle := ⟨0, ⟨handle.value.name, 0, 0, 0⟩⟩
  font handle := ⟨0, ⟨handle.value.key, ⟨0, 0⟩⟩⟩
  image handle := ⟨0, ⟨tables.urlOf handle, none⟩⟩

/-- Records agree field by field, with colours compared by name, fonts by key and images by
address. -/
def Alike (tables : Tables) (one other : Record) : Prop :=
  one.rename tables.labels = other.rename tables.labels

section Shows

variable {record outline : Record}

theorem urlOf_of_listed (sound : tables.Sound) {url : String} {image : Handle Image}
    (listed : (url, image) ∈ tables.images.entries) : tables.urlOf image = url := by
  cases found : tables.images.entries.find? (fun entry => entry.2 = image) with
  | none => exact absurd (List.find?_eq_none.mp found _ listed) (by simp)
  | some entry =>
    have same : entry.2 = image := by simpa using List.find?_some found
    have only := sound.images.addresses entry (List.mem_of_find?_eq_some found) (url, image) listed
      (congrArg Handle.address same)
    simp only [urlOf, found, only, Option.map_some, Option.getD_some]

theorem Shows.listed_color (shown : tables.Shows record outline) {color : Handle Color}
    (inside : color ∈ record.colors) : ∃ key, (key, color) ∈ tables.colors.entries := by
  rw [shown.filled, Record.colors_rename] at inside
  obtain ⟨named, ofOutline, rfl⟩ := List.mem_map.mp inside
  exact ⟨_, shown.listed.color named ofOutline⟩

theorem Shows.listed_font (shown : tables.Shows record outline) :
    ∃ key, (key, record.font) ∈ tables.fonts.entries := by
  rw [shown.filled]
  exact ⟨_, shown.listed.font.1⟩

theorem Shows.listed_image (shown : tables.Shows record outline) {image : Handle Image}
    (inside : image ∈ record.images) : ∃ key, (key, image) ∈ tables.images.entries := by
  rw [shown.filled, Record.images_rename] at inside
  obtain ⟨named, ofOutline, rfl⟩ := List.mem_map.mp inside
  exact ⟨_, shown.listed.image named ofOutline⟩

/-- The tables find the handles of a record again by their labels. -/
theorem Shows.rename_labels (sound : tables.Sound) (shown : tables.Shows record outline) :
    (record.rename tables.labels).rename tables.naming = record := by
  rw [Record.rename_rename]
  refine (Record.rename_congr ?_ ?_ ?_).trans Record.rename_id
  · intro color inside
    obtain ⟨key, listed⟩ := shown.listed_color inside
    exact naming_color sound listed (sound.names key color listed)
  · obtain ⟨key, listed⟩ := shown.listed_font
    exact naming_font sound listed (sound.keys key record.font listed)
  · intro image inside
    obtain ⟨url, listed⟩ := shown.listed_image inside
    exact naming_image sound listed (urlOf_of_listed sound listed)

/-- Two records that show alike things of one set of tables are the same record: a table never holds
two handles of one key. -/
theorem Shows.eq_of_alike (sound : tables.Sound)
    {found foundOutline : Record} (shown : tables.Shows record outline)
    (again : tables.Shows found foundOutline) (alike : tables.Alike record found) :
    record = found := by
  rw [← shown.rename_labels sound, alike, again.rename_labels sound]

end Shows

end Tables

section Reached

variable {σ : Type} {config : Config} {hosts : Hosts σ} {tables : Tables} {held : Held}

/-- An image that a record has is shared by the address that it was loaded from. -/
theorem Reached.urlOf_eq (reached : Reached config hosts tables held)
    (ownUrls : ∀ state url image, (hosts.now state).image? url = some image → image.url = url)
    {record : Handle Record} (isHeld : record ∈ held) {image : Handle Image}
    (inside : image ∈ record.value.images) : tables.urlOf image = image.value.url := by
  let traits : Traits :=
    { Traits.any with image := fun url image? => ∀ image, image? = some image → image.url = url }
  have haveTraits : hosts.Have config traits :=
    { hosts.have_any config with image := fun state url image => ownUrls state url image }
  obtain ⟨sound, backs, files⟩ := reached.sharing haveTraits
  obtain ⟨outline, shown⟩ := backs.shown record isHeld
  obtain ⟨url, listed⟩ := shown.listed_image inside
  rw [Tables.urlOf_of_listed sound listed]
  exact (files.images url image listed image.value rfl).symm

/-- Held records have one address if and only if they agree field by field, with colours compared by
name, fonts by key and images by address; the address that an image is shared by is its own if the
loader names images so. And for hosts that always give the same answers, a call that is repeated
while its record is held gives that record, whatever happened since. -/
theorem Reached.canonical (reached : Reached config hosts tables held) :
    (∀ one ∈ held, ∀ other ∈ held,
      one.address = other.address ↔ tables.Alike one.value other.value) ∧
    ((∀ state url image, (hosts.now state).image? url = some image → image.url = url) →
      ∀ record ∈ held, ∀ image ∈ record.value.images, tables.urlOf image = image.value.url) ∧
    ∀ (answers : Answers) (parent : Option (Handle Record)) (state again : σ)
      (sets : List PropertySet), hosts.Pure answers → (∀ record ∈ parent, record ∈ held) →
      let basis : Basis := ⟨config, parent.map Handle.value⟩
      let first := resolve hosts basis held tables state sets
      ∀ later left, Relation.ReflTransGen (Tables.Step config hosts)
          (first.tables, first.record :: held) (later, left) →
        first.record ∈ left → (∀ record ∈ parent, record ∈ left) →
          (resolve hosts basis left later again sets).record = first.record := by
  obtain ⟨sound, backs⟩ := reached.backs
  refine ⟨?_, ?_, ?_⟩
  · intro one isOne other isOther
    constructor
    · intro same
      have equal := sound.records.addresses one (backs.remembered one isOne) other
        (backs.remembered other isOther) same
      rw [equal]
      rfl
    · intro alike
      obtain ⟨oneOutline, oneShown⟩ := backs.shown one isOne
      obtain ⟨otherOutline, otherShown⟩ := backs.shown other isOther
      have values := oneShown.eq_of_alike sound otherShown alike
      rw [backs.apart one isOne other isOther values]
  · intro ownUrls record isHeld image inside
    exact reached.urlOf_eq ownUrls isHeld inside
  · intro answers parent state again sets pure parentHeld basis first later left steps stillHeld
      parentStillHeld
    exact reached.resolve_later pure parentHeld state again rfl steps stillHeld parentStillHeld

/-- A root with an image beside a bare one; then the first is asked for again, everything else is
dropped, and the tables are purged. -/
theorem Reached.canonical_backgrounds :
    let hosts : Hosts Unit := .plain
    let root : Basis := ⟨.screen, (none : Option (Handle Record)).map Handle.value⟩
    let sets : List PropertySet := [.ofChoice (fun
      | .backgroundImage => some (.url "a.png")
      | .color => some (.ident "red")
      | _ => none)]
    let first := resolve hosts root [] .empty () sets
    let bare := resolve hosts root [first.record] first.tables () []
    let again := resolve hosts root [bare.record, first.record] bare.tables () sets
    Reached .screen hosts bare.tables [bare.record, first.record] ∧
      (first.record.address = bare.record.address ↔
        bare.tables.Alike first.record.value bare.record.value) ∧
      first.record.address = 0 ∧ bare.record.address = 1 ∧ first.record.value.images ≠ [] ∧
      (∀ image ∈ first.record.value.images, bare.tables.urlOf image = image.value.url) ∧
      hosts.Pure .plain ∧
      (resolve hosts root [again.record] (again.tables.purge [again.record]) () sets).record =
        again.record := by
  intro hosts root sets first bare again
  have reachedFirst : Reached .screen hosts first.tables [first.record] :=
    .resolved .fresh none (by simp) () sets first rfl
  have reached : Reached .screen hosts bare.tables [bare.record, first.record] :=
    .resolved reachedFirst none (by simp) () [] bare rfl
  obtain ⟨addresses, images, calls⟩ := reached.canonical
  have pure : hosts.Pure .plain := Hosts.pure_ofAnswers .plain
  refine ⟨reached, addresses _ (by simp) _ (by simp), by decide +kernel, by decide +kernel,
    by decide +kernel, ?_, pure, ?_⟩
  · refine images ?_ _ (by simp)
    intro state url image loaded
    cases loaded
    rfl
  · have steps : Relation.ReflTransGen (Tables.Step .screen hosts)
        (again.tables, [again.record, bare.record, first.record])
        (again.tables.purge [again.record], [again.record]) :=
      .tail (.single (.holding (by simp))) .purged
    exact calls .plain none () () sets pure (by simp) _ _ steps List.mem_cons_self (by simp)

end Reached

end StyleCascade
