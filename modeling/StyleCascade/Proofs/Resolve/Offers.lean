import StyleCascade.Proofs.Resolve.Grants
import StyleCascade.Proofs.Resolve.Setters
import StyleCascade.Proofs.Resolve.Tables

namespace StyleCascade

variable {σ : Type} {traits : Traits}

/-- Whatever the hosts answer, in whichever state, has the traits, and so has every colour that can
be read. -/
structure Hosts.Have (hosts : Hosts σ) (config : Config) (traits : Traits) : Prop where
  color : ∀ text color, Color.read text = .ok color → traits.color color
  image : ∀ state url, traits.image url ((hosts.now state).image? url)
  font : ∀ state key, traits.font ⟨key, (hosts.now state).metrics key (key.pixels config.dpi)⟩
  script : ∀ state, traits.script (hosts.now state).script

/-- Nothing is known, but that colours are read from texts. -/
def Traits.any : Traits where
  color color := ∃ text, Color.read text = .ok color
  image _ _ := True
  font _ := True
  script _ := True

theorem Hosts.have_any (hosts : Hosts σ) (config : Config) : hosts.Have config .any where
  color text _ read := ⟨text, read⟩
  image _ _ := trivial
  font _ _ := trivial
  script _ := trivial

namespace Tables

variable {tables : Tables} {held : Held} {making : List Record}

/-- What is listed has the traits. -/
structure Files (tables : Tables) (traits : Traits) : Prop where
  colors : ∀ name color, (name, color) ∈ tables.colors.entries → traits.color color.value
  images : ∀ url image, (url, image) ∈ tables.images.entries →
    traits.image url (some image.value)
  fonts : ∀ key font, (key, font) ∈ tables.fonts.entries → traits.font font.value

theorem Files.empty : Tables.empty.Files traits := by
  constructor <;> simp [Tables.empty, Pool.empty]

/-- Interning a colour that the hosts have keeps the table within what they have. -/
theorem Files.internColor (files : tables.Files traits) (sound : tables.Sound) (held : Held)
    (making : List Record) {color : Color} (has : traits.color color) :
    (tables.internColor held making color).2.Files traits :=
  { files with
    colors := by
      intro name handle listed
      rcases Pool.mem_of_mem_intern sound.colors listed with old | ⟨rfl, same⟩
      · exact files.colors name handle old
      · rw [same]
        exact has }

theorem Files.internImage (files : tables.Files traits) (sound : tables.Sound) (held : Held)
    (making : List Record) {url : String} {image : Image} (has : traits.image url (some image)) :
    (tables.internImage held making url image).2.Files traits :=
  { files with
    images := by
      intro other handle listed
      rcases Pool.mem_of_mem_intern sound.images listed with old | ⟨rfl, same⟩
      · exact files.images other handle old
      · rw [same]
        exact has }

theorem Files.internFont (files : tables.Files traits) (sound : tables.Sound) (held : Held)
    (making : List Record) {font : Font} (has : traits.font font) :
    (tables.internFont held making font).2.Files traits :=
  { files with
    fonts := by
      intro key handle listed
      rcases Pool.mem_of_mem_intern sound.fonts listed with old | ⟨rfl, same⟩
      · exact files.fonts key handle old
      · rw [same]
        exact has }

/-- Purging takes entries away and adds none. -/
theorem Files.purge (files : tables.Files traits) (held : Held) :
    (tables.purge held).Files traits where
  colors name color listed := files.colors name color (Pool.mem_purge_iff.mp listed).1
  images url image listed := files.images url image (Pool.mem_purge_iff.mp listed).1
  fonts key font listed := files.fonts key font (Pool.mem_purge_iff.mp listed).1

end Tables

/-- What a property does with the values that it is offered. -/
structure Verdict where
  /-- The faults of those that it rejects. -/
  faults : List ValueFault
  /-- The one that it takes, without scripts, and what it comes to. -/
  taken : Option (Value × Accepted)

/-- What a property can do with values, one after the other, if each of them may meet with other
answers. -/
inductive Basis.Offers (traits : Traits) (basis : Basis) (property : Property) :
    List Value → Verdict → Prop
  | none : Offers traits basis property [] ⟨[], .none⟩
  | taken {value rest answers plain accepted} (allowed : traits.Allows answers)
      (evaluates : evaluated answers.script value = .ok plain)
      (accepts : basis.acceptPlain answers.image? property plain = .ok accepted) :
      Offers traits basis property (value :: rest) ⟨[], some (plain, accepted)⟩
  | rejected {value rest answers cause verdict} (allowed : traits.Allows answers)
      (rejects : basis.accept answers property value = .error cause)
      (others : Offers traits basis property rest verdict) :
      Offers traits basis property (value :: rest) ⟨cause :: verdict.faults, verdict.taken⟩

namespace Verdict

/-- The values that properties take. -/
def values (verdict : Property → Verdict) (properties : List Property) :
    List (Property × Value) :=
  properties.filterMap (fun property =>
    (verdict property).taken.map (fun taken => (property, taken.1)))

/-- What the values come to that properties take. -/
def accepted (verdict : Property → Verdict) (properties : List Property) :
    List (Property × Accepted) :=
  properties.filterMap (fun property =>
    (verdict property).taken.map (fun taken => (property, taken.2)))

/-- The faults of the values that properties reject, one property after the other. -/
def diagnostics (verdict : Property → Verdict) (properties : List Property) : List Diagnostic :=
  properties.flatMap (fun property =>
    (verdict property).faults.map (fun cause => (property, cause)))

end Verdict

/-- The step: taking one value keeps the tables sound. -/
theorem Draft.take_sound {tables : Tables} (sound : tables.Sound) (basis : Basis) (held : Held)
    (draft : Draft) (property : Property) (accepted : Accepted) :
    (draft.take basis held tables property accepted).2.Sound := by
  cases accepted with
  | color color => exact sound.internColor held [draft.record] color
  | image url image => exact sound.internImage held [draft.record] url image
  | inherited | written | fontLength | alignPercent | font => exact sound

namespace Making

variable {basis : Basis} {held : Held} {property : Property} {making : Making σ} {hosts : Hosts σ}

/-- Taking a granted value files at most one colour, font or image, and that one is what the hosts
have. -/
theorem take_files (files : making.tables.Files traits) (sound : making.tables.Sound)
    (haveTraits : hosts.Have basis.config traits) {accepted : Accepted}
    (grants : property.Grants traits accepted) :
    (making.take basis held property accepted).tables.Files traits := by
  cases grants with
  | inherited | written | fontLength | alignPercent | font => exact files
  | color read => exact files.internColor sound held _ (haveTraits.color _ _ read)
  | image known => exact files.internImage sound held _ known

/-- Takes what a value came to, if there is one. -/
def takeAny (making : Making σ) (basis : Basis) (held : Held) (property : Property) :
    Option Accepted → Making σ
  | none => making
  | some accepted => making.take basis held property accepted

/-- The images that are there to get are known. -/
theorem image?_known (making : Making σ) (sound : making.tables.Sound)
    (files : making.tables.Files traits) (haveTraits : hosts.Have basis.config traits)
    (held : Held) (url : String) :
    traits.image url (making.image? hosts held url) := by
  unfold image?
  cases found : making.heldImage? held url with
  | some handle =>
    exact files.images url handle ((Pool.get?_eq_some_iff sound.images).mp found).1
  | none => exact haveTraits.image making.state url

/-- What is taken does not depend on the state of the hosts and on what happened. -/
theorem takeAny_moved (making : Making σ) (moved state : σ) (before events : List Event)
    (taken : Option Accepted) :
    ({ ({ making with state := moved, events := before } : Making σ).takeAny basis held property
        taken with state := state, events := events } : Making σ) =
      { making.takeAny basis held property taken with state := state, events := events } := by
  cases taken <;> rfl

/-- Offering values to a property comes to a verdict. The faults are reported, and the draft and the
tables only change by the value that is taken. -/
def Offered (traits : Traits) (hosts : Hosts σ) (basis : Basis) (held : Held) (property : Property)
    (values : List Value) (making : Making σ) : Prop :=
  ∃ verdict state events, basis.Offers traits property values verdict ∧
    events.filterMap Event.diagnostic? = verdict.faults.map (fun cause => (property, cause)) ∧
    making.offer hosts basis held property values = (verdict.taken.map Prod.fst,
      { making.takeAny basis held property (verdict.taken.map Prod.snd) with
        state := state, events := making.events ++ events })

/-- A value that is rejected leaves the draft and the tables to the ones behind it. -/
theorem Offered.rejected {value : Value} {rest : List Value} {answers : Answers}
    {cause : ValueFault} {moved : σ} {events : List Event} (allowed : traits.Allows answers)
    (rejects : basis.accept answers property value = .error cause)
    (silent : events.filterMap Event.diagnostic? = [])
    (refused : Setting.declared hosts basis held property value making =
      (.error cause, { making with state := moved, events := making.events ++ events }))
    (others : Offered traits hosts basis held property rest
      (({ making with state := moved, events := making.events ++ events } : Making σ).report
        property cause)) :
    Offered traits hosts basis held property (value :: rest) making := by
  obtain ⟨verdict, state, later, offers, reported, offered⟩ := others
  refine ⟨_, state, events ++ .valueRejected property cause :: later,
    .rejected allowed rejects offers, ?_, ?_⟩
  · rw [List.filterMap_append, silent, List.nil_append]
    exact congrArg _ reported
  · have happened : (({ making with state := moved, events := making.events ++ events } :
        Making σ).report property cause).events ++ later =
          making.events ++ (events ++ .valueRejected property cause :: later) := by
      simp [report, Context.tell]
    rw [happened] at offered
    rw [offer, refused]
    exact offered.trans (congrArg _ (takeAny_moved making _ _ _ _ _))

/-- Whatever the hosts answer, offering values comes to a verdict. By induction on the values, each
of which is taken, or rejected for its script or for what it evaluates to. -/
theorem offer_run (making : Making σ) (sound : making.tables.Sound)
    (files : making.tables.Files traits)
    (haveTraits : hosts.Have basis.config traits) (held : Held) (property : Property)
    (values : List Value) : Offered traits hosts basis held property values making := by
  induction values generalizing making with
  | nil => exact ⟨_, making.state, [], .none, rfl, by rw [List.append_nil]; rfl⟩
  | cons value rest ih =>
    obtain ⟨between, state, events, silent, run⟩ :=
      Setting.declared_run basis held property value hosts making
    let evaluated : Making σ :=
      { making with state := between, events := making.events ++ events }
    let answers : Answers :=
      { hosts.now making.state with image? := evaluated.image? hosts held }
    have allowed : traits.Allows answers :=
      ⟨evaluated.image?_known sound files haveTraits held, haveTraits.script making.state⟩
    cases evaluates : Basis.evaluated (hosts.now making.state).script value with
    | error cause =>
      rw [evaluates] at run
      have rejects : basis.accept answers property value = .error cause := by
        rw [Basis.accept, evaluates]
        rfl
      exact .rejected allowed rejects silent run (ih _ sound files)
    | ok plain =>
      rw [evaluates] at run
      cases comes : basis.acceptPlain answers.image? property plain with
      | error cause =>
        have gives : Basis.evaluated answers.script value = .ok plain := evaluates
        have refused := run.trans (congrArg (Making.after _ basis held property plain) comes)
        exact .rejected allowed ((Basis.accept_of_evaluated gives basis property).trans comes)
          silent refused (ih _ sound files)
      | ok accepted =>
        refine ⟨_, state, events, .taken allowed evaluates comes, silent, ?_⟩
        have takes := run.trans (congrArg (Making.after _ basis held property plain) comes)
        rw [offer, takes]
        rfl

end Making

namespace Basis

variable {basis : Basis} {property : Property} {values : List Value} {verdict : Verdict}

/-- What is taken was accepted, for answers that can be met with. -/
theorem Offers.accepts (offers : basis.Offers traits property values verdict) {plain : Value}
    {accepted : Accepted} (taken : verdict.taken = some (plain, accepted)) :
    ∃ answers, traits.Allows answers ∧
      basis.acceptPlain answers.image? property plain = .ok accepted := by
  induction offers with
  | none => cases taken
  | taken allowed _ accepts =>
    cases taken
    exact ⟨_, allowed, accepts⟩
  | rejected _ _ _ ih => exact ih taken

/-- What a verdict took, the traits of the hosts grant. -/
theorem Offers.grants (offers : basis.Offers traits property values verdict) {plain : Value}
    {accepted : Accepted} (taken : verdict.taken = some (plain, accepted)) :
    property.Grants traits accepted := by
  obtain ⟨answers, allowed, accepts⟩ := offers.accepts taken
  exact acceptPlain_grants allowed.image accepts

end Basis

namespace Verdict

variable {one other : Property → Verdict} {properties : List Property}

theorem values_congr (same : ∀ property ∈ properties, one property = other property) :
    values one properties = values other properties :=
  List.filterMap_congr fun property inside => by rw [same property inside]

theorem accepted_congr (same : ∀ property ∈ properties, one property = other property) :
    accepted one properties = accepted other properties :=
  List.filterMap_congr fun property inside => by rw [same property inside]

/-- What the first property contributes to the values taken stands in front of what the others do.
-/
theorem accepted_cons (verdict : Property → Verdict) (property : Property) :
    accepted verdict (property :: properties) =
      ((verdict property).taken.map (fun taken => (property, taken.2))).toList ++
        accepted verdict properties := by
  rw [accepted, List.filterMap_cons]
  cases (verdict property).taken <;> rfl

/-- The same for the values as they were declared. -/
theorem values_cons (verdict : Property → Verdict) (property : Property) :
    values verdict (property :: properties) =
      ((verdict property).taken.map (fun taken => (property, taken.1))).toList ++
        values verdict properties := by
  rw [values, List.filterMap_cons]
  cases (verdict property).taken <;> rfl

/-- The same for the complaints: each refused attempt leaves one, in the order the attempts were
made. -/
theorem diagnostics_cons (verdict : Property → Verdict) (property : Property) :
    diagnostics verdict (property :: properties) =
      (verdict property).faults.map (fun cause => (property, cause)) ++
        diagnostics verdict properties :=
  List.flatMap_cons

theorem diagnostics_congr (same : ∀ property ∈ properties, one property = other property) :
    diagnostics one properties = diagnostics other properties := by
  rw [diagnostics, diagnostics]
  exact List.flatMap_congr fun property inside => by rw [same property inside]

end Verdict

namespace Making

variable {basis : Basis} {held : Held} {property : Property} {making : Making σ} {hosts : Hosts σ}

/-- Takes what the values of several properties came to. -/
def takeAll (making : Making σ) (basis : Basis) (held : Held)
    (accepted : List (Property × Accepted)) : Making σ :=
  let (draft, tables) := Draft.takeAll basis held (making.draft, making.tables) accepted
  { making with draft := draft, tables := tables }

/-- Two lists of values are taken one after the other. -/
theorem takeAll_append (making : Making σ) (first second : List (Property × Accepted)) :
    making.takeAll basis held (first ++ second) =
      (making.takeAll basis held first).takeAll basis held second := by
  simp only [takeAll, Draft.takeAll, List.foldl_append]

theorem takeAll_toList (making : Making σ) (property : Property) (taken : Option Accepted) :
    making.takeAll basis held (taken.map (fun accepted => (property, accepted))).toList =
      making.takeAny basis held property taken := by
  cases taken <;> rfl

/-- Whether or not a value of the property was taken, the tables stay sound and hold nothing the
hosts do not have. -/
theorem takeAny_sharing (sound : making.tables.Sound) (files : making.tables.Files traits)
    (haveTraits : hosts.Have basis.config traits) (held : Held) {values : List Value}
    {verdict : Verdict} (offers : basis.Offers traits property values verdict) :
    let next := making.takeAny basis held property (verdict.taken.map Prod.snd)
    next.tables.Sound ∧ next.tables.Files traits := by
  cases taken : verdict.taken with
  | none => exact ⟨sound, files⟩
  | some found =>
    exact ⟨Draft.take_sound sound basis held making.draft property found.2,
      take_files files sound haveTraits (offers.grants taken)⟩

/-- Offering values to several properties comes to a verdict for each of them; the draft and the
tables only change by the values that are taken. -/
theorem offerAll_run (making : Making σ) (sound : making.tables.Sound)
    (files : making.tables.Files traits)
    (haveTraits : hosts.Have basis.config traits) (held : Held) (sets : List PropertySet)
    {properties : List Property} (apart : properties.Nodup) :
    ∃ verdict state events,
      (∀ property ∈ properties,
        basis.Offers traits property (Basis.declared sets property) (verdict property)) ∧
      events.filterMap Event.diagnostic? = Verdict.diagnostics verdict properties ∧
      making.offerAll hosts basis held sets properties = (Verdict.values verdict properties,
        { making.takeAll basis held (Verdict.accepted verdict properties) with
          state := state, events := making.events ++ events }) ∧
      (making.takeAll basis held (Verdict.accepted verdict properties)).tables.Sound ∧
      (making.takeAll basis held (Verdict.accepted verdict properties)).tables.Files traits := by
  induction properties generalizing making with
  | nil =>
    exact ⟨fun _ => ⟨[], none⟩, making.state, [], by simp, rfl, by rw [List.append_nil]; rfl, sound,
      files⟩
  | cons property rest ih =>
    obtain ⟨absent, restApart⟩ := List.nodup_cons.mp apart
    obtain ⟨own, state, events, offers, reported, offered⟩ :=
      making.offer_run sound files haveTraits held property (Basis.declared sets property)
    let next : Making σ := { making.takeAny basis held property (own.taken.map Prod.snd) with
      state := state, events := making.events ++ events }
    obtain ⟨nextSound, nextFiles⟩ := takeAny_sharing sound files haveTraits held offers
    obtain ⟨others, last, later, restOffers, restReported, run, doneSound, doneFiles⟩ :=
      ih next nextSound nextFiles restApart
    let verdict := Function.update others property own
    have here : verdict property = own := Function.update_self property own others
    have there : ∀ other ∈ rest, verdict other = others other := by
      intro other inside
      exact Function.update_of_ne (ne_of_mem_of_not_mem inside absent) own others
    have taken : making.takeAll basis held (Verdict.accepted verdict (property :: rest)) =
        (making.takeAny basis held property (own.taken.map Prod.snd)).takeAll basis held
          (Verdict.accepted others rest) := by
      rw [Verdict.accepted_cons, Verdict.accepted_congr there, here, takeAll_append,
        ← takeAll_toList, Option.map_map]
      rfl
    refine ⟨verdict, last, events ++ later, ?_, ?_, ?_, ?_, ?_⟩
    · intro other inside
      rcases List.mem_cons.mp inside with rfl | behind
      · rw [here]
        exact offers
      · rw [there other behind]
        exact restOffers other behind
    · rw [List.filterMap_append, reported, restReported, Verdict.diagnostics_cons, here,
        Verdict.diagnostics_congr there]
    · have happened : next.events ++ later = making.events ++ (events ++ later) :=
        List.append_assoc _ _ _
      rw [happened] at run
      rw [taken, Verdict.values_cons, Verdict.values_congr there, here, offerAll, offered]
      dsimp only
      rw [show offerAll hosts basis held sets rest next = _ from run, Option.map_map]
      rfl
    · rw [taken]
      exact doneSound
    · rw [taken]
      exact doneFiles

end Making

end StyleCascade
