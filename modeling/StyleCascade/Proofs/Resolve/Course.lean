import StyleCascade.Proofs.Color.Reading
import StyleCascade.Proofs.Resolve.Offers

namespace StyleCascade

variable {σ : Type} {traits : Traits} {basis : Basis} {held : Held} {tables : Tables}
  {hosts : Hosts σ}

/-- The colour of roots. One that cannot be read is black. -/
def Basis.rootColor (basis : Basis) : Color :=
  match Color.read basis.config.color with
  | .ok color => color
  | .error _ => Color.rgb 0 0 0

/-- The colour of roots is one that is read from some text. -/
theorem Basis.read_rootColor (basis : Basis) : ∃ text, Color.read text = .ok basis.rootColor := by
  unfold rootColor
  split
  · next color found => exact ⟨_, found⟩
  · exact ⟨_, Color.read_rgb_name 0 0 0⟩

namespace Draft

/-- The draft of a root, in a font with some metrics. -/
def ofRoot (basis : Basis) (held : Held) (tables : Tables) (root : Metrics) : Draft × Tables :=
  let (color, colored) := tables.internColor held [] basis.rootColor
  let (font, fonted) := colored.internFont held [] ⟨basis.config.rootFont, root⟩
  (ofRecord (.initial color font) basis.config.rootFont, fonted)

/-- The draft of an element for which nothing is declared yet. -/
def start (basis : Basis) (held : Held) (tables : Tables) (root : Metrics) : Draft × Tables :=
  match basis.parent with
  | some parent => (ofParent parent, tables)
  | none => ofRoot basis held tables root

/-- Shares the record of a draft in its font with some metrics. -/
def share (basis : Basis) (held : Held) (drafted : Draft × Tables) (own : Metrics) :
    Handle Record × Tables :=
  let (font, fonted) :=
    drafted.2.internFont held [drafted.1.record] ⟨drafted.1.font, own⟩
  fonted.internRecord held (drafted.1.finished basis.parent.isNone font)

end Draft

/-- What there is to know before a record can be made: what each property does with its values, and
the metrics of the font of roots and of the element's own font. -/
structure Course where
  verdict : Property → Verdict
  root : Metrics
  own : Metrics

namespace Course

/-- What the values come to that are taken. -/
def accepted (course : Course) : List (Property × Accepted) :=
  Verdict.accepted course.verdict Property.all

/-- The draft when all values are taken. -/
def drafted (course : Course) (basis : Basis) (held : Held) (tables : Tables) : Draft × Tables :=
  Draft.takeAll basis held (Draft.start basis held tables course.root) course.accepted

/-- Resolving takes this course: the properties were offered their values, and whoever holds a font
that was asked for holds one with these metrics. -/
structure Leads (traits : Traits) (basis : Basis) (held : Held) (tables : Tables)
    (sets : List PropertySet) (course : Course) (found : Resolution σ) : Prop where
  offers : ∀ property,
    basis.Offers traits property (Basis.declared sets property) (course.verdict property)
  rootAgrees : tables.Agrees held [] ⟨basis.config.rootFont, course.root⟩
  rootHas : traits.font ⟨basis.config.rootFont, course.root⟩
  ownAgrees : let drafted := course.drafted basis held tables
    drafted.2.Agrees held [drafted.1.record] ⟨drafted.1.font, course.own⟩
  ownHas : traits.font ⟨(course.drafted basis held tables).1.font, course.own⟩
  shared : (found.record, found.tables) =
    Draft.share basis held (course.drafted basis held tables) course.own
  taken : found.taken = Verdict.values course.verdict Property.all
  diagnostics : found.events.filterMap Event.diagnostic? =
    Verdict.diagnostics course.verdict Property.all
  files : found.tables.Files traits

end Course

/-- A font that is asked for is shared. It has the metrics of the one that somebody holds, or those
that the hosts answer. -/
theorem Context.font_run (context : Context σ) (sound : context.tables.Sound)
    (files : context.tables.Files traits) {config : Config} (haveTraits : hosts.Have config traits)
    (held : Held) (making : List Record) (key : FontKey) :
    ∃ metrics state events, context.tables.Agrees held making ⟨key, metrics⟩ ∧
      traits.font ⟨key, metrics⟩ ∧ events.filterMap Event.diagnostic? = [] ∧
      context.font hosts config held making key =
        ((context.tables.internFont held making ⟨key, metrics⟩).1,
          { tables := (context.tables.internFont held making ⟨key, metrics⟩).2
            state := state
            events := context.events ++ events }) := by
  cases found : context.tables.fonts.get? (held.fonts making) key with
  | some font =>
    have listed := ((Pool.get?_eq_some_iff sound.fonts).mp found).1
    have same : (⟨key, font.value.metrics⟩ : Font) = font.value := by
      rw [← sound.keys key font listed]
    refine ⟨font.value.metrics, context.state, [], ?_, ?_, rfl, ?_⟩
    · intro handle other
      rw [same]
      exact congrArg Handle.value (Option.some.inj (other.symm.trans found))
    · rw [same]
      exact files.fonts key font listed
    · have interned : context.tables.fonts.intern (held.fonts making) key
          ⟨key, font.value.metrics⟩ = (font, context.tables.fonts) := by
        rw [Pool.intern, found]
      have shared : context.tables.internFont held making ⟨key, font.value.metrics⟩ =
          (font, context.tables) := by
        rw [Tables.internFont, interned]
      rw [shared, Context.font, found, List.append_nil]
  | none =>
    let answer := hosts.metrics key (key.pixels config.dpi) context.state
    refine ⟨answer.1, answer.2, [.fontMade ⟨key, answer.1⟩], ?_, ?_, rfl, ?_⟩
    · intro handle other
      cases found.symm.trans other
    · exact haveTraits.font context.state key
    · rw [Context.font, found]
      rfl

/-- The colour of roots is shared. -/
theorem Context.rootColor_run (context : Context σ) (sound : context.tables.Sound)
    (files : context.tables.Files traits) (basis : Basis)
    (haveTraits : hosts.Have basis.config traits) (held : Held) :
    ∃ events, events.filterMap Event.diagnostic? = [] ∧
      let shared := context.tables.internColor held [] basis.rootColor
      context.rootColor basis.config held =
        (shared.1,
          { tables := shared.2
            state := context.state
            events := context.events ++ events }) ∧
      shared.2.Sound ∧ shared.2.Files traits := by
  obtain ⟨text, read⟩ := basis.read_rootColor
  have sharedSound := sound.internColor held [] basis.rootColor
  have sharedFiles := files.internColor sound held [] (haveTraits.color text _ read)
  unfold Context.rootColor
  unfold Basis.rootColor at sharedSound sharedFiles ⊢
  cases found : Color.read basis.config.color with
  | ok color =>
    rw [found] at sharedSound sharedFiles
    exact ⟨[], rfl, by rw [List.append_nil]; rfl, sharedSound, sharedFiles⟩
  | error cause =>
    rw [found] at sharedSound sharedFiles
    exact ⟨[.defaultColorFault cause], rfl, rfl, sharedSound, sharedFiles⟩

namespace Making

/-- A draft is started in a font of roots that whoever holds one agrees on. -/
theorem start_run (context : Context σ) (sound : context.tables.Sound)
    (files : context.tables.Files traits)
    (haveTraits : hosts.Have basis.config traits) (held : Held) :
    ∃ root state events, context.tables.Agrees held [] ⟨basis.config.rootFont, root⟩ ∧
      traits.font ⟨basis.config.rootFont, root⟩ ∧ events.filterMap Event.diagnostic? = [] ∧
      let started := Draft.start basis held context.tables root
      Making.start hosts basis held context =
        { tables := started.2
          state := state
          events := context.events ++ events
          draft := started.1 } ∧
      started.2.Sound ∧ started.2.Files traits := by
  obtain ⟨colorEvents, colorSilent, colored, coloredSound, coloredFiles⟩ :=
    context.rootColor_run sound files basis haveTraits held
  obtain ⟨root, state, fontEvents, agrees, has, fontSilent, fonted⟩ :=
    Context.font_run ⟨_, context.state, context.events ++ colorEvents⟩ coloredSound coloredFiles
      haveTraits held [] basis.config.rootFont
  unfold Making.start Draft.start
  cases basis.parent with
  | some parent =>
    refine ⟨root, context.state, [], agrees, has, rfl, ?_, sound, files⟩
    rw [List.append_nil]
  | none =>
    refine ⟨root, state, colorEvents ++ fontEvents, agrees, has, ?_, ?_,
      coloredSound.internFont held [] _, coloredFiles.internFont coloredSound held [] has⟩
    · rw [List.filterMap_append, colorSilent, fontSilent]
      rfl
    · dsimp only
      rw [colored]
      dsimp only
      rw [fonted, ← List.append_assoc]
      rfl

/-- A record is shared in a font that whoever holds one agrees on. -/
theorem finish_run (making : Making σ) (sound : making.tables.Sound)
    (files : making.tables.Files traits) (haveTraits : hosts.Have basis.config traits)
    (held : Held) :
    ∃ own state events,
      making.tables.Agrees held [making.draft.record] ⟨making.draft.font, own⟩ ∧
      traits.font ⟨making.draft.font, own⟩ ∧ events.filterMap Event.diagnostic? = [] ∧
      let shared := Draft.share basis held (making.draft, making.tables) own
      making.finish hosts basis held =
        (shared.1, { tables := shared.2, state := state, events := making.events ++ events }) ∧
      shared.2.Files traits := by
  obtain ⟨own, state, events, agrees, has, silent, fonted⟩ :=
    making.toContext.font_run sound files haveTraits held [making.draft.record] making.draft.font
  let record := (Draft.share basis held (making.draft, making.tables) own).1
  refine ⟨own, state, events ++ [.recordGiven (held.count record)], agrees, has, ?_, ?_, ?_⟩
  · rw [List.filterMap_append, silent]
    rfl
  · rw [← List.append_assoc, finish, fonted]
    rfl
  · have listed := files.internFont sound held [making.draft.record] has
    exact ⟨listed.colors, listed.images, listed.fonts⟩

end Making

/-- Resolving takes a course, whatever the hosts do. -/
theorem resolve_course (basis : Basis) (sound : tables.Sound) (files : tables.Files traits)
    (haveTraits : hosts.Have basis.config traits) (held : Held) (state : σ)
    (sets : List PropertySet) :
    ∃ course : Course,
      course.Leads traits basis held tables sets (resolve hosts basis held tables state sets) := by
  obtain ⟨root, started, startEvents, rootAgrees, rootHas, startSilent, start, startSound,
    startFiles⟩ := Making.start_run ⟨tables, state, []⟩ sound files haveTraits held
  obtain ⟨verdict, offered, offerEvents, offers, reported, offer, sharedSound, sharedFiles⟩ :=
    Making.offerAll_run ⟨⟨_, started, _⟩, _⟩ startSound startFiles haveTraits held sets
      Property.nodup_all
  obtain ⟨own, last, shareEvents, ownAgrees, ownHas, shareSilent, finish, finishFiles⟩ :=
    Making.finish_run ⟨⟨_, offered, _⟩, _⟩ sharedSound sharedFiles haveTraits held
  refine ⟨⟨verdict, root, own⟩, ?_⟩
  unfold resolve
  rw [start]
  dsimp only
  rw [offer]
  dsimp only
  rw [finish]
  exact
    { offers := fun property => offers property property.mem_all
      rootAgrees := rootAgrees
      rootHas := rootHas
      ownAgrees := ownAgrees
      ownHas := ownHas
      shared := rfl
      taken := rfl
      diagnostics := by
        simp only [List.filterMap_append, List.nil_append, startSilent, reported, shareSilent,
          List.append_nil]
      files := finishFiles }

end StyleCascade
