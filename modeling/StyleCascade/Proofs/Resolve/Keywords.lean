import StyleCascade.Proofs.Resolve.Inherit

namespace StyleCascade

open Draft (fontParts)

/-- The width of the border on a side. -/
def Property.borderWidth : Side → Property
  | .top => .borderTopWidth
  | .right => .borderRightWidth
  | .bottom => .borderBottomWidth
  | .left => .borderLeftWidth

theorem Property.borderWidth_apart (side : Side) :
    borderWidth side ∉ fontParts ∧ borderWidth side ∉ lineColors := by
  cases side <;> decide

section Written

namespace Record

variable {record : Record} {property : Property} {word : String} {change : Record → Record}

/-- A keyword that was written is the text its property reads back as. -/
theorem text?_write {α : Type} [Keyword α] {put : Record → α → Record}
    (written : write word put = some change)
    (shows : ∀ value, (put record value).text? property = some (Keyword.text value)) :
    (change record).text? property = some word := by
  obtain ⟨value, spelt, rfl⟩ := Option.map_eq_some_iff.mp written
  rw [shows, Keyword.text_of_ofText? spelt]

/-- A word is written where its property is read. -/
theorem text?_withWord (written : withWord? word property = some change) (record : Record) :
    (change record).text? property = some word := by
  cases property
  case outlineStyle =>
    obtain ⟨value, found, rfl⟩ := Option.map_eq_some_iff.mp written
    have spelt := (Option.filter_eq_some_iff.mp found).1
    exact congrArg some (Keyword.text_of_ofText? spelt)
  all_goals first
    | exact text?_write written fun _ => rfl
    | cases written

/-- A length is written where its property is read. -/
theorem text?_withLength {forms : LengthForms} (sized : property.kind = .length forms)
    (record : Record) (length : Length) :
    (record.withLength property length).text? property = some length.text := by
  rw [text?_of_kind _ sized, length?, lengths_withLength record sized, Entries.lookup_put,
    if_pos (beq_self_eq_true property), Option.map_some]

/-- A border width reads back as its pixels. -/
theorem text?_withPixels (side : Side) (record : Record) (pixels : Int) :
    (record.withPixels (.borderWidth side) pixels).text? (.borderWidth side) =
      some (pixelText pixels) := by
  cases side <;> rfl

/-- Where the line can be seen, its width is left. -/
theorem text?_fixWidths {side : Side}
    (visible : (record.borderStyle.get side).isInvisible = false) :
    record.fixWidths.text? (.borderWidth side) = record.text? (.borderWidth side) := by
  cases side <;> simp_all [fixWidths, text?, Property.borderWidth, Edges.mapSides, Edges.get]

end Record

/-- The word of a length is its text. -/
theorem Specified.word_of_ofValue {forms : LengthForms} {dpi : Float} {word : String}
    {specified : Specified} (read : ofValue forms dpi (.ident word) = .ok specified) :
    ∃ length : Length, specified = .now length ∧ length.text = word := by
  unfold ofValue at read
  cases spelt : word? forms word with
  | none => simp [spelt] at read
  | some entry =>
    obtain ⟨permitted, length⟩ := entry
    have named : length.text = word := by
      unfold word? at spelt
      split at spelt <;> cases spelt <;> rfl
    simp only [spelt] at read
    split at read <;> cases read
    exact ⟨length, rfl, named⟩

end Written

theorem Value.not_inherit {word : String} (own : word ≠ "inherit") :
    ¬Value.isWord (.ident word) "inherit" = true := by
  simpa [isWord, word?] using own

/-- What is accepted writes a text for a property. -/
def Accepted.Spells (property : Property) (text : String) (accepted : Accepted) : Prop :=
  ∃ change, accepted = .written change ∧ ∀ record, (change record).text? property = some text

namespace Basis

variable {basis : Basis} {image? : String → Option Image} {property : Property} {word : String}

/-- A keyword that was accepted is what the property will read back as. -/
theorem spells_keyword (worded : property.kind = .keyword) (own : word ≠ "inherit")
    {accepted : Accepted} (taken : basis.acceptPlain image? property (.ident word) = .ok accepted) :
    accepted.Spells property word := by
  simp only [acceptPlain, if_neg (Value.not_inherit own), worded, acceptWord] at taken
  split at taken
  · next change written =>
    cases taken
    exact ⟨change, rfl, Record.text?_withWord written⟩
  · cases taken

/-- The keyword of a length is read back as it was written. -/
theorem spells_length {forms : LengthForms} (sized : property.kind = .length forms)
    (own : word ≠ "inherit") {accepted : Accepted}
    (taken : basis.acceptPlain image? property (.ident word) = .ok accepted) :
    accepted.Spells property word := by
  simp only [acceptPlain, if_neg (Value.not_inherit own), sized, acceptLength] at taken
  cases read : Specified.ofValue forms basis.config.dpi (.ident word) with
  | error cause => simp [read, Except.map] at taken
  | ok specified =>
    obtain ⟨length, rfl, named⟩ := Specified.word_of_ofValue read
    simp only [read, Except.map] at taken
    cases taken
    exact ⟨_, rfl, fun record => named ▸ Record.text?_withLength sized record length⟩

/-- The three named border widths are read back as the pixels they stand for. -/
theorem spells_width {side : Side} {pixels : Int} (named : BorderWidth.ofText? word = some pixels)
    {accepted : Accepted}
    (taken : basis.acceptPlain image? (.borderWidth side) (.ident word) = .ok accepted) :
    accepted.Spells (.borderWidth side) (Record.pixelText pixels) := by
  have own : word ≠ "inherit" := by
    rintro rfl
    cases named
  have sized : (Property.borderWidth side).kind = .borderWidth := by cases side <;> rfl
  simp only [acceptPlain, if_neg (Value.not_inherit own), sized, acceptWidth, Value.word?,
    Option.bind_some, named] at taken
  cases taken
  exact ⟨_, rfl, fun record => Record.text?_withPixels side record pixels⟩

end Basis

namespace Draft

/-- The width of a line that can be seen is left in the end. -/
theorem Settled.finished_width {draft : Draft} {side : Side} {width : Option String}
    (settled : Settled (.borderWidth side) width draft) {isRoot : Bool} {font : Handle Font}
    (visible : ((draft.finished isRoot font).borderStyle.get side).isInvisible = false) :
    (draft.finished isRoot font).text? (.borderWidth side) = width := by
  have noFont := (Property.borderWidth_apart side).1
  have noBox : Property.borderWidth side ∉ [.display, .float] := by cases side <;> decide
  have noOffset : Property.borderWidth side ∉ Property.offsets := by cases side <;> decide
  obtain ⟨aligned, before, finished⟩ := settled.aligned noFont isRoot font
  rw [finished] at visible ⊢
  calc ((aligned.fixDisplay isRoot).fixOffsets).fixWidths.text? (.borderWidth side)
      = (aligned.fixDisplay isRoot).fixOffsets.text? (.borderWidth side) :=
        Record.text?_fixWidths visible
    _ = (aligned.fixDisplay isRoot).text? (.borderWidth side) :=
        Record.sameBut_fixOffsets _ _ noFont noOffset
    _ = aligned.text? (.borderWidth side) := Record.sameBut_fixDisplay isRoot _ _ noFont noBox
    _ = width := before

end Draft

namespace Course.Leads

variable {σ : Type} {traits : Traits} {basis : Basis} {held : Held} {tables : Tables}
  {sets : List PropertySet} {course : Course} {found : Resolution σ} {property : Property}
  {plain : Value} {text : String}

/-- A property that has a text of its own has it when all values are taken. -/
theorem drafted_spells (leads : course.Leads traits basis held tables sets found)
    (sound : tables.Sound) (noFont : property ∉ fontParts) (noLine : property ∉ Property.lineColors)
    (taken : found.taken? property = some plain)
    (spells : ∀ image? accepted, basis.acceptPlain image? property plain = .ok accepted →
      accepted.Spells property text) :
    Draft.Settled property (some text) (course.drafted basis held tables).1 := by
  obtain ⟨answers, accepted, _, accepts, verdict⟩ := leads.accepts_of_taken taken
  obtain ⟨change, rfl, shows⟩ := spells answers.image? accepted accepts
  refine leads.settles sound verdict fun draft _ _ clear => ?_
  refine ⟨⟨clear.waiting, clear.align⟩, ?_, fun line => absurd line noLine⟩
  rw [Draft.text?, if_neg noFont]
  exact shows _

/-- The properties that are not settled with others have the texts of their own in the end. -/
theorem spells (leads : course.Leads traits basis held tables sets found) (sound : tables.Sound)
    (others : property ∉ fontParts ++ Property.lineColors)
    (late : property ∉ Property.display :: .float :: (Property.offsets ++ Property.lineWidths))
    (taken : found.taken? property = some plain)
    (spells : ∀ image? accepted, basis.acceptPlain image? property plain = .ok accepted →
      accepted.Spells property text) :
    found.record.value.text? property = some text := by
  rw [List.mem_append, not_or] at others
  rw [List.mem_cons, List.mem_cons, not_or, not_or] at late
  obtain ⟨noFont, noLine⟩ := others
  obtain ⟨noDisplay, noFloat, late⟩ := late
  exact leads.text?_of_settled (leads.drafted_spells sound noFont noLine taken spells)
    (List.not_mem_cons_of_ne_of_not_mem noDisplay late) (fun float => absurd float noFloat)

/-- A width has its own text in the end, if the line can be seen. -/
theorem spells_width (leads : course.Leads traits basis held tables sets found)
    (sound : tables.Sound) {side : Side}
    (visible : (found.record.value.borderStyle.get side).isInvisible = false)
    (taken : found.taken? (.borderWidth side) = some plain)
    (spells : ∀ image? accepted,
      basis.acceptPlain image? (.borderWidth side) plain = .ok accepted →
        accepted.Spells (.borderWidth side) text) :
    found.record.value.text? (.borderWidth side) = some text := by
  have apart := Property.borderWidth_apart side
  have settled := leads.drafted_spells sound apart.1 apart.2 taken spells
  rw [leads.value] at visible ⊢
  exact settled.finished_width visible

end Course.Leads

/-- Words come back under their own property, whatever else is declared, whatever record is above,
and whatever the hosts answer: the word of a property that takes words, the word of a length, and
the pixels of a width that is given by a word, where the line can be seen. Boxes and floats are
settled with the position, and offsets with each other. -/
theorem Reached.resolve_keywords {σ : Type} {config : Config} {hosts : Hosts σ} {tables : Tables}
    {held : Held} (reached : Reached config hosts tables held) (parent : Option Record) (state : σ)
    (sets : List PropertySet) :
    let found := resolve hosts ⟨config, parent⟩ held tables state sets
    let record := found.record.value
    (∀ property word, property.kind = .keyword → property ∉ [.display, .float] →
      found.taken? property = some (.ident word) → word ≠ "inherit" →
        record.text? property = some word) ∧
    (∀ property forms word, property.kind = .length forms → property ∉ Property.offsets →
      found.taken? property = some (.ident word) → word ∈ ["auto", "none", "normal"] →
        record.text? property = some word) ∧
    ∀ side word text, (record.borderStyle.get side).isInvisible = false →
      found.taken? (.borderWidth side) = some (.ident word) →
        (word, text) ∈ [("thin", "1px"), ("medium", "2px"), ("thick", "4px")] →
          record.text? (.borderWidth side) = some text := by
  intro found record
  have sound := reached.backs.1
  obtain ⟨course, leads⟩ := reached.course (hosts.have_any config) parent state sets
  replace leads : course.Leads .any ⟨config, parent⟩ held tables sets found := leads
  refine ⟨?_, ?_, ?_⟩
  · intro property word worded noBox taken own
    have others : property ∉ fontParts ++ Property.lineColors := by
      have impossible : ∀ other ∈ fontParts ++ Property.lineColors, other.kind ≠ .keyword := by
        decide
      exact fun mem => impossible property mem worded
    have late : property ∉ Property.offsets ++ Property.lineWidths := by
      have impossible : ∀ late ∈ Property.offsets ++ Property.lineWidths, late.kind ≠ .keyword := by
        decide
      exact fun mem => impossible property mem worded
    simp only [List.mem_cons, List.not_mem_nil, or_false, not_or] at noBox
    obtain ⟨noDisplay, noFloat⟩ := noBox
    refine leads.spells sound others ?_ taken fun _ _ => Basis.spells_keyword worded own
    exact List.not_mem_cons_of_ne_of_not_mem noDisplay
      (List.not_mem_cons_of_ne_of_not_mem noFloat late)
  · intro property forms word sized noOffset taken member
    have own : word ≠ "inherit" := by
      rintro rfl
      exact absurd member (by decide)
    have others : property ∉ fontParts ++ Property.lineColors := by
      cases property <;> first
        | decide
        | cases sized
    have apart : property ∉ Property.display :: .float :: Property.lineWidths := by
      cases property <;> first
        | decide
        | cases sized
    simp only [List.mem_cons, not_or] at apart
    obtain ⟨noDisplay, noFloat, noWidth⟩ := apart
    refine leads.spells sound others ?_ taken fun _ _ => Basis.spells_length sized own
    simp only [List.mem_cons, List.mem_append, not_or]
    exact ⟨noDisplay, noFloat, noOffset, noWidth⟩
  · intro side word text visible taken member
    simp only [List.mem_cons, List.not_mem_nil, or_false, Prod.mk.injEq] at member
    have named : ∃ pixels, BorderWidth.ofText? word = some pixels ∧
        Record.pixelText pixels = text := by
      obtain ⟨thin, medium, thick⟩ := Record.pixelText_of_word
      obtain ⟨rfl, rfl⟩ | ⟨rfl, rfl⟩ | ⟨rfl, rfl⟩ := member
      · exact ⟨1, rfl, thin⟩
      · exact ⟨2, rfl, medium⟩
      · exact ⟨4, rfl, thick⟩
    obtain ⟨pixels, spelt, rfl⟩ := named
    exact leads.spells_width sound visible taken fun _ _ => Basis.spells_width spelt

/-- A root takes its words, one of them behind a word that is rejected and one from a script, and of
its two thick lines the one that has a style is seen. -/
theorem Reached.resolve_keywords_lines :
    let hosts : Hosts Nat := { Hosts.plain with
      script := some (fun _ count => (["relative", "absolute"][count]?, count + 1)) }
    let sets : List PropertySet :=
      [.ofChoice (fun
        | .visibility => some (.ident "sideways")
        | .position => some (.script "place")
        | .maxWidth => some (.ident "none")
        | .borderTopStyle => some (.ident "solid")
        | .borderTopWidth => some (.ident "thick")
        | .borderLeftWidth => some (.ident "thick")
        | _ => none),
      .ofChoice (fun
        | .visibility => some (.ident "hidden")
        | .maxWidth => some (.dimension 3 .em)
        | _ => none)]
    let found := resolve hosts ⟨.screen, none⟩ [] .empty 0 sets
    let record := found.record.value
    Reached .screen hosts .empty [] ∧ found.taken? .visibility = some (.ident "hidden") ∧
      record.text? .visibility = some "hidden" ∧ record.text? .position = some "relative" ∧
      record.text? .maxWidth = some "none" ∧
      (record.borderStyle.get .top).isInvisible = false ∧
      record.text? .borderTopWidth = some "4px" ∧ record.text? .borderLeftWidth = some "0px" := by
  intro hosts sets found record
  have nothing : Reached .screen hosts .empty [] := .fresh
  obtain ⟨taken, visible, unseen⟩ : (∀ declared ∈ [(Property.visibility, "hidden"),
      (.position, "relative"), (.maxWidth, "none"), (.borderWidth .top, "thick")],
        (found.taken? declared.1).bind Value.word? = some declared.2) ∧
      (record.borderStyle.get .top).isInvisible = false ∧
      record.text? .borderLeftWidth = some "0px" := by decide +kernel
  dsimp only [record, found] at taken visible unseen ⊢
  have words (declared : Property × String) (inside) :
      Resolution.taken? _ declared.1 = some (.ident declared.2) :=
    Resolution.taken?_of_word (taken declared inside)
  obtain ⟨plain, lengths, widths⟩ := nothing.resolve_keywords none 0 sets
  exact ⟨nothing, words (.visibility, "hidden") (by simp),
    plain .visibility "hidden" rfl (by decide) (words (.visibility, "hidden") (by simp)) (by decide),
    plain .position "relative" rfl (by decide) (words (.position, "relative") (by simp)) (by decide),
    lengths .maxWidth _ "none" rfl (by decide) (words (.maxWidth, "none") (by simp)) (by decide),
    visible, widths .top "thick" "4px" visible (words (.borderWidth .top, "thick") (by simp))
      (by decide), unseen⟩

end StyleCascade
