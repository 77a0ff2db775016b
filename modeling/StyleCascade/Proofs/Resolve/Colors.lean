import StyleCascade.Proofs.Resolve.Inherit

namespace StyleCascade

namespace Record

/-- The colour of a property that takes colours. A transparent background has none. -/
def color? (record : Record) : Property → Option (Handle Color)
  | .color => some record.color
  | .backgroundColor => record.backgroundColor
  | .outlineColor => some record.outlineColor
  | .borderTopColor => some record.borderColor.top
  | .borderRightColor => some record.borderColor.right
  | .borderBottomColor => some record.borderColor.bottom
  | .borderLeftColor => some record.borderColor.left
  | _ => none

variable {record : Record} {property : Property}

theorem text?_of_color (colored : property.kind = .color) :
    record.text? property = (record.color? property).map (fun handle => handle.value.name) := by
  cases property <;> first
    | rfl
    | cases colored

theorem mem_colors_of_color? {handle : Handle Color}
    (found : record.color? property = some handle) : handle ∈ record.colors := by
  cases property <;> simp [color?] at found <;> simp [colors, Edges.toList, found]

end Record

namespace Draft

variable {basis : Basis} {held : Held} {tables : Tables} {draft : Draft} {property : Property}

/-- A colour that is shared by its name has the name. -/
theorem name_internColor (sound : tables.Sound) (held : Held) (making : List Record)
    (color : Color) : (tables.internColor held making color).1.value.name = color.name :=
  (sound.internColor held making color).names _ _ (Pool.mem_intern sound.colors _ _ _)

theorem ofRoot_color (sound : tables.Sound) (basis : Basis) (held : Held) (root : Metrics) :
    Settled .color (some basis.rootColor.name) (ofRoot basis held tables root).1 :=
  { waiting := fun _ => List.not_mem_nil
    align := fun _ => rfl
    text := congrArg some (name_internColor sound held [] basis.rootColor)
    own := fun line => by contradiction }

/-- Writing a colour settles its property at the name of the colour, unless a later step computes
the property anew. -/
theorem settled_withColor (colored : property.kind = .color) (clear : Clear property draft)
    (color : Handle Color) :
    Settled property (some color.value.name)
      ({ draft with record := draft.record.withColor property color }.markColor property) := by
  cases property <;> first
    | exact
        { waiting := clear.waiting
          align := clear.align
          text := rfl
          own := fun _ => by first | rfl | contradiction }
    | cases colored

/-- A colour that is taken settles its property with its name. -/
theorem color_settled (colored : property.kind = .color) (clear : Clear property draft)
    (sound : tables.Sound) (basis : Basis) (held : Held) (color : Color) :
    Settled property (some color.name)
      (draft.take basis held tables property (.color color)).1 := by
  rw [← name_internColor sound held [draft.record] color]
  exact settled_withColor colored clear _

end Draft

namespace Basis

variable {basis : Basis} {property : Property} {value : Value} {text : String} {color : Color}

/-- A word that is no colour is not what a colour is spelt as. -/
theorem isWord_eq_false_of_color {word : String} (spelt : colorText? value = some text)
    (read : Color.read text = .ok color) (unread : (Color.read word).toOption = none) :
    value.isWord word = false := by
  cases value <;> try rfl
  cases spelt
  refine decide_eq_false ?_
  rintro ⟨rfl⟩
  rw [read] at unread
  cases unread

/-- A property that takes colours takes all that are read. -/
theorem acceptPlain_color (colored : property.kind = .color) (spelt : colorText? value = some text)
    (read : Color.read text = .ok color) (image? : String → Option Image) :
    basis.acceptPlain image? property value = .ok (.color color) := by
  have noInherit : value.isWord "inherit" = false :=
    isWord_eq_false_of_color spelt read Color.read_reserved.1
  have noTransparent : value.isWord "transparent" = false :=
    isWord_eq_false_of_color spelt read Color.read_reserved.2
  simp [acceptPlain, acceptColor, noInherit, noTransparent, colored, spelt, read]

end Basis

/-- The canonical name tells colours apart, so the table that files colours by their names shares no
two of them. -/
theorem Color.eq_of_name {one other : String} {first second : Color}
    (isFirst : read one = .ok first) (isSecond : read other = .ok second)
    (same : first.name = second.name) : first = second := by
  have found := read_name isFirst
  rw [same, read_name isSecond] at found
  cases found
  rfl

section Reached

variable {σ : Type} {config : Config} {hosts : Hosts σ} {tables : Tables} {held : Held}

/-- Whatever was done in a context, the colours of a record are read from their names. -/
theorem Reached.read_color (reached : Reached config hosts tables held) {record : Handle Record}
    (isHeld : record ∈ held) {color : Handle Color} (inside : color ∈ record.value.colors) :
    Color.read color.value.name = .ok color.value := by
  obtain ⟨_, backs, files⟩ := reached.sharing (hosts.have_any config)
  obtain ⟨_, shown⟩ := backs.shown record isHeld
  obtain ⟨name, listed⟩ := shown.listed_color inside
  obtain ⟨text, read⟩ := files.colors name color listed
  exact Color.read_name read

/-- A property that takes a colour has a colour of this name. -/
theorem Course.Leads.text?_of_color {traits : Traits} {basis : Basis} {sets : List PropertySet}
    {course : Course} {found : Resolution σ}
    (leads : course.Leads traits basis held tables sets found) (sound : tables.Sound)
    {property : Property} (colored : property.kind = .color) {plain : Value} {text : String}
    {color : Color} (taken : found.taken? property = some plain)
    (spelt : Basis.colorText? plain = some text) (read : Color.read text = .ok color) :
    found.record.value.text? property = some color.name := by
  obtain ⟨answers, accepted, _, accepts, verdict⟩ := leads.accepts_of_taken taken
  rw [Basis.acceptPlain_color colored spelt read] at accepts
  cases accepts
  have late : property ∉ Property.display :: (Property.offsets ++ Property.lineWidths) := by
    have impossible : ∀ late ∈ Property.display :: (Property.offsets ++ Property.lineWidths),
        late.kind ≠ .color := by decide
    exact fun mem => impossible property mem colored
  refine leads.text?_of_settled (leads.settles sound verdict ?_) late ?_
  · exact fun _ _ sound clear => Draft.color_settled colored clear sound basis held color
  · rintro rfl
    cases colored

/-- A root that takes no colour has a colour of the name of the colour of roots. -/
theorem Course.Leads.text?_rootColor {traits : Traits} {sets : List PropertySet} {course : Course}
    {found : Resolution σ} (leads : course.Leads traits ⟨config, none⟩ held tables sets found)
    (sound : tables.Sound) (untaken : found.taken? .color = none) :
    found.record.value.text? .color = some (Basis.rootColor ⟨config, none⟩).name :=
  leads.text?_of_settled
    (leads.stays (Draft.ofRoot_color sound ⟨config, none⟩ held course.root) untaken) (by decide)
    (by simp)

end Reached

/-- A colour is named by its only name: the name of a colour is read as the colour, so colours with
one name have the same parts. And whatever was resolved in a context before, from whichever
spellings, and whatever the hosts answer, a property that takes a value that spells a colour gets
this colour, a root that takes no colour gets the colour of roots, and all colours of a record are
read from their names. -/
theorem resolve_colors (σ : Type) :
    (∀ text color, Color.read text = .ok color → Color.read color.name = .ok color) ∧
    (∀ one other first second, Color.read one = .ok first → Color.read other = .ok second →
      first.name = second.name →
        first.red = second.red ∧ first.green = second.green ∧ first.blue = second.blue) ∧
    ∀ config (hosts : Hosts σ) tables held, Reached config hosts tables held →
      ∀ (parent : Option (Handle Record)) (state : σ) (sets : List PropertySet),
        (∀ record ∈ parent, record ∈ held) →
        let basis : Basis := ⟨config, parent.map Handle.value⟩
        let found := resolve hosts basis held tables state sets
        let record := found.record.value
        (∀ property value text color, property.kind = .color →
          found.taken? property = some value → Basis.colorText? value = some text →
          Color.read text = .ok color →
            ∃ handle, record.color? property = some handle ∧ handle.value = color) ∧
        (parent = none → found.taken? .color = none → record.color.value = basis.rootColor) ∧
        ∀ handle ∈ record.colors, Color.read handle.value.name = .ok handle.value := by
  refine ⟨fun _ _ => Color.read_name, ?_, ?_⟩
  · intro one other first second isFirst isSecond same
    have equal := Color.eq_of_name isFirst isSecond same
    rw [equal]
    exact ⟨rfl, rfl, rfl⟩
  intro config hosts tables held reached parent state sets parentHeld basis found record
  have sound := reached.backs.1
  obtain ⟨course, leads⟩ :=
    reached.course (hosts.have_any config) (parent.map Handle.value) state sets
  replace leads : course.Leads .any basis held tables sets found := leads
  have behind : Reached config hosts found.tables (found.record :: held) :=
    .resolved reached parent parentHeld state sets found rfl
  have named (handle : Handle Color) (inside : handle ∈ record.colors) :
      Color.read handle.value.name = .ok handle.value :=
    behind.read_color List.mem_cons_self inside
  refine ⟨?_, ?_, named⟩
  · intro property value text color colored taken spelt read
    have shown := leads.text?_of_color sound colored taken spelt read
    rw [Record.text?_of_color colored] at shown
    obtain ⟨handle, isColor, same⟩ := Option.map_eq_some_iff.mp shown
    exact ⟨handle, isColor,
      Color.eq_of_name (named handle (Record.mem_colors_of_color? isColor)) read same⟩
  · rintro rfl untaken
    have same := Option.some.inj (leads.text?_rootColor sound untaken)
    obtain ⟨text, read⟩ := basis.read_rootColor
    exact Color.eq_of_name (named record.color List.mem_cons_self) read same

/-- A background that is spelt `#F00`, and below it a text that is spelt `#ff0000`: there is one
red, and it is read from either. -/
theorem resolve_colors_red :
    let hosts : Hosts Unit := .plain
    let red := Color.rgb 255 0 0
    let root : Basis := ⟨.screen, (none : Option (Handle Record)).map Handle.value⟩
    let first : List PropertySet := [.ofChoice (fun
      | .backgroundColor => some (.hash "F00")
      | _ => none)]
    let top := resolve hosts root [] .empty () first
    let below : Basis := ⟨.screen, (some top.record).map Handle.value⟩
    let sets : List PropertySet := [.ofChoice (fun
      | .color => some (.hash "ff0000")
      | _ => none)]
    let found := resolve hosts below [top.record] top.tables () sets
    let box := found.record.value
    Color.read "#F00" = .ok red ∧ Color.read "#ff0000" = .ok red ∧ Color.read red.name = .ok red ∧
      Reached .screen hosts top.tables [top.record] ∧
      found.taken? .color = some (.hash "ff0000") ∧
      (∃ handle, box.color? .color = some handle ∧ handle.value = red) ∧
      box.color? .color = top.record.value.color? .backgroundColor ∧
      top.record.value.color.value = root.rootColor := by
  intro hosts red root first top below sets found box
  have short : Color.read "#F00" = .ok red := by decide +kernel
  have long : Color.read "#ff0000" = .ok red := by decide +kernel
  obtain ⟨names, -, contexts⟩ := resolve_colors Unit
  have noParent : ∀ record ∈ (none : Option (Handle Record)), record ∈ ([] : Held) := by simp
  have nothing : Reached .screen hosts .empty [] := .fresh
  have reached : Reached .screen hosts top.tables [top.record] :=
    .resolved nothing none noParent () first top rfl
  obtain ⟨-, roots, -⟩ := contexts _ _ _ _ nothing none () first noParent
  obtain ⟨spelt, -, -⟩ := contexts _ _ _ _ reached (some top.record) () sets (by simp)
  obtain ⟨course, leads⟩ :=
    reached.course (hosts.have_any .screen) (some top.record.value) () sets
  have taken : found.taken? .color = some (.hash "ff0000") :=
    (leads.taken_first rfl fun answers _ =>
      ⟨rfl, Basis.acceptPlain_color rfl rfl long answers.image?⟩).2
  have untaken : top.taken? .color = none := Option.isNone_iff_eq_none.mp (by decide +kernel)
  dsimp only [box, found, below]
  refine ⟨short, long, names _ _ long, reached, taken, ?_, by decide +kernel, ?_⟩
  · exact spelt .color (.hash "ff0000") "#ff0000" red rfl taken rfl long
  · dsimp only [top, root]
    exact roots rfl untaken

end StyleCascade
