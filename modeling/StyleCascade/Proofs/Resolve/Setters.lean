import StyleCascade.Proofs.Resolve.Accepted

namespace StyleCascade

variable {σ : Type}

/-- The answers that hosts give in a state. -/
def Hosts.now (hosts : Hosts σ) (state : σ) : Answers :=
  { metrics := fun key pixels => (hosts.metrics key pixels state).1
    image? := fun url => (hosts.loadImage url state).1
    script := hosts.script.map (fun evaluate source => (evaluate source state).1) }

namespace Making

/-- Takes what a value came to. -/
def take (making : Making σ) (basis : Basis) (held : Held) (property : Property)
    (accepted : Accepted) : Making σ :=
  let (draft, tables) := making.draft.take basis held making.tables property accepted
  { making with draft := draft, tables := tables }

/-- The image that an address gives: the one that somebody holds, or what the hosts answer. -/
def image? (making : Making σ) (hosts : Hosts σ) (held : Held) (url : String) : Option Image :=
  match making.heldImage? held url with
  | some handle => some handle.value
  | none => (hosts.now making.state).image? url

/-- Takes what a value comes to, which is told as `plain`, or leaves all as it is. -/
def after {α : Type} (making : Making σ) (basis : Basis) (held : Held) (property : Property)
    (plain : α) : Except ValueFault Accepted → Except ValueFault α × Making σ
  | .ok accepted => (.ok plain, making.take basis held property accepted)
  | .error cause => (.error cause, making)

end Making

namespace Setting

/-- A setter that takes what its value comes to, and leaves all as it is if this is a fault. -/
def take (basis : Basis) (held : Held) (property : Property)
    (result : Except ValueFault Accepted) : Setting σ Unit :=
  fun making => making.after basis held property () result

section Apply

variable {α β : Type} (making : Making σ)

/-- A setting that fails has still done its work: the rest is skipped, and what was made so far
stays. -/
theorem bind_apply (first : Setting σ α) (rest : α → Setting σ β) :
    (first >>= rest) making =
      match first making with
      | (.ok result, after) => rest result after
      | (.error cause, after) => (.error cause, after) := by
  have step : (first >>= rest) making =
    (match first making with
    | (result, after) => ExceptT.bindCont rest result after) := rfl
  rw [step]
  obtain ⟨_ | _, after⟩ := first making <;> rfl

theorem pure_apply (result : α) : (pure result : Setting σ α) making = (.ok result, making) :=
  rfl

theorem get_apply : (get : Setting σ (Making σ)) making = (.ok making, making) :=
  rfl

/-- An action on the tables and the hosts' state cannot fail and leaves the draft as it is. -/
theorem within_apply (action : Context σ → α × Context σ) :
    (within action : Setting σ α) making =
      (.ok (action making.toContext).1, { making with toContext := (action making.toContext).2 }) :=
  rfl

end Apply

variable (basis : Basis) (held : Held) (property : Property) (value : Value)

theorem word_eq : (word property value : Setting σ Unit) =
    take basis held property (Basis.acceptWord property value) := by
  fun_cases Basis.acceptWord property value
  all_goals
    simp only [word, *]
    rfl

theorem length_eq (forms : LengthForms) : (length basis forms property value : Setting σ Unit) =
    take basis held property (basis.acceptLength forms property value) := by
  unfold length Basis.acceptLength
  cases Specified.ofValue forms basis.config.dpi value with
  | error cause => rfl
  | ok specified => cases specified <;> rfl

theorem pixels_eq (negative : Bool) : (pixels basis negative property value : Setting σ Unit) =
    take basis held property (basis.acceptPixels negative property value) := by
  unfold pixels Basis.acceptPixels
  cases Specified.pixelsOfValue negative basis.config.dpi value with
  | error cause => rfl
  | ok found => cases found <;> rfl

theorem width_eq : (width basis property value : Setting σ Unit) =
    take basis held property (basis.acceptWidth property value) := by
  unfold width Basis.acceptWidth
  cases value.word?.bind BorderWidth.ofText? with
  | some count => rfl
  | none => exact pixels_eq basis held property value false

theorem color_eq : (color held property value : Setting σ Unit) =
    take basis held property (Basis.acceptColor property value) := by
  fun_cases Basis.acceptColor property value
  all_goals
    simp only [color, *]
    rfl

theorem fontSize_eq : (fontSize basis value : Setting σ Unit) =
    take basis held .fontSize (basis.acceptFontSize value) := by
  unfold fontSize Basis.acceptFontSize
  cases basis.fontPoints value <;> rfl

theorem fontWeight_eq : (fontWeight value : Setting σ Unit) =
    take basis held .fontWeight (Basis.acceptFontWeight value) := by
  unfold fontWeight Basis.acceptFontWeight
  cases Basis.weight? value <;> rfl

theorem fontStyle_eq : (fontStyle value : Setting σ Unit) =
    take basis held .fontStyle (Basis.acceptFontStyle value) := by
  unfold fontStyle Basis.acceptFontStyle
  cases Basis.slope? value <;> rfl

theorem fontFamily_eq : (fontFamily value : Setting σ Unit) =
    take basis held .fontFamily (Basis.acceptFontFamily value) := by
  fun_cases Basis.acceptFontFamily value
  all_goals
    simp only [fontFamily, *]
    rfl

theorem lineHeight_eq : (lineHeight basis value : Setting σ Unit) =
    take basis held .lineHeight (basis.acceptLineHeight value) := by
  fun_cases Basis.acceptLineHeight basis value
  case case6 => exact pixels_eq basis held .lineHeight _ false
  all_goals
    simp only [lineHeight, *]
    rfl

theorem verticalAlign_eq : (verticalAlign basis value : Setting σ Unit) =
    take basis held .verticalAlign (basis.acceptVerticalAlign value) := by
  fun_cases Basis.acceptVerticalAlign basis value
  case case4 =>
    simp only [verticalAlign, *]
    exact pixels_eq basis held .verticalAlign _ true
  all_goals
    simp only [verticalAlign, *]
    rfl

theorem zIndex_eq : (zIndex value : Setting σ Unit) =
    take basis held .zIndex (Basis.acceptZIndex value) := by
  fun_cases Basis.acceptZIndex value
  all_goals
    simp only [zIndex, *]
    rfl

theorem content_eq : (content value : Setting σ Unit) =
    take basis held .content (Basis.acceptContent value) := by
  fun_cases Basis.acceptContent value
  all_goals
    simp only [content, *]
    rfl

theorem special_eq : (special basis property value : Setting σ Unit) =
    take basis held property (basis.acceptSpecial property value) := by
  cases property with
  | fontSize => exact fontSize_eq basis held value
  | fontWeight => exact fontWeight_eq basis held value
  | fontStyle => exact fontStyle_eq basis held value
  | fontFamily => exact fontFamily_eq basis held value
  | lineHeight => exact lineHeight_eq basis held value
  | verticalAlign => exact verticalAlign_eq basis held value
  | zIndex => exact zIndex_eq basis held value
  | content => exact content_eq basis held value
  | _ => rfl

variable (hosts : Hosts σ) (making : Making σ)

/-- Where somebody holds the image of an address, sharing another one gives this one. -/
theorem internImage_of_held {url : String} {handle : Handle Image}
    (found : making.heldImage? held url = some handle) (image : Image) :
    making.tables.internImage held [making.draft.record] url image = (handle, making.tables) := by
  have shared : making.tables.images.intern (held.images [making.draft.record]) url image =
      (handle, making.tables.images) := by
    rw [Pool.intern, show making.tables.images.get? (held.images [making.draft.record]) url =
      some handle from found]
  rw [Tables.internImage, shared]

/-- Setting the image of an address asks the hosts at most once. -/
theorem imageAt_run (url : String) : ∃ state,
    (imageAt hosts held url >>= fun handle =>
      write (fun record => record.withImage property (some handle))) making =
    ({ making with state := state } : Making σ).after basis held property ()
      (match making.image? hosts held url with
      | some image => .ok (.image url image)
      | none => .error (.image url)) := by
  simp only [bind_apply, imageAt, get_apply]
  cases found : making.heldImage? held url with
  | some handle =>
    refine ⟨making.state, ?_⟩
    simp only [Making.image?, found, pure_apply]
    simp only [Making.after, Making.take, Draft.take, internImage_of_held held making found]
    rfl
  | none =>
    rcases asked : hosts.loadImage url making.state with ⟨result, state⟩
    refine ⟨state, ?_⟩
    simp only [Making.image?, found, bind_apply, within_apply, Hosts.now, Context.ask, asked]
    cases result <;> rfl

/-- Setting an image asks the hosts at most once. -/
theorem image_run : ∃ state, image hosts held property value making =
    ({ making with state := state } : Making σ).after basis held property ()
      (Basis.acceptImage (making.image? hosts held) property value) := by
  by_cases none : value.isWord "none" = true
  · refine ⟨making.state, ?_⟩
    simp only [image, Basis.acceptImage, if_pos none]
    rfl
  · cases value with
    | url url => exact imageAt_run basis held property hosts making url
    | str url => exact imageAt_run basis held property hosts making url
    | _ =>
      refine ⟨making.state, ?_⟩
      simp only [image, Basis.acceptImage, if_neg none]
      rfl

/-- Setting a plain value takes what the value comes to, for the images that are there to get, or
leaves the draft and the tables as they are. -/
theorem plain_run : ∃ state, plain hosts basis held property value making =
    ({ making with state := state } : Making σ).after basis held property ()
      (basis.acceptPlain (making.image? hosts held) property value) := by
  unfold plain Basis.acceptPlain
  by_cases inherits : value.isWord "inherit" = true
  · rw [if_pos inherits, if_pos inherits]
    exact ⟨making.state, rfl⟩
  · rw [if_neg inherits, if_neg inherits]
    cases property.kind with
    | keyword => exact ⟨making.state, congrFun (word_eq basis held property value) making⟩
    | length forms => exact ⟨making.state, congrFun (length_eq basis held property value forms) making⟩
    | borderWidth => exact ⟨making.state, congrFun (width_eq basis held property value) making⟩
    | color => exact ⟨making.state, congrFun (color_eq basis held property value) making⟩
    | image => exact image_run basis held property value hosts making
    | special => exact ⟨making.state, congrFun (special_eq basis held property value) making⟩

/-- A script in a value is evaluated once, and nothing else happens. -/
theorem evaluated_run : ∃ state events, events.filterMap Event.diagnostic? = [] ∧
    evaluated hosts value making =
      (Basis.evaluated (hosts.now making.state).script value,
        { making with state := state, events := making.events ++ events }) := by
  cases value with
  | script source =>
    cases known : hosts.script with
    | none =>
      refine ⟨making.state, [], rfl, ?_⟩
      simp only [evaluated, evaluate, bind_apply, known, Hosts.now, Basis.evaluated, pure_apply,
        Option.map_none, Option.bind_none, List.append_nil]
      rfl
    | some run =>
      rcases asked : run source making.state with ⟨result, state⟩
      refine ⟨state, [.scriptEvaluated source], rfl, ?_⟩
      simp only [evaluated, evaluate, bind_apply, known, Hosts.now, Basis.evaluated, within_apply,
        Context.ask, Context.tell, Option.map_some, Option.bind_some, asked]
      cases result with
      | none => rfl
      | some text =>
        simp only
        cases Value.ofText text <;> rfl
  | _ => exact ⟨making.state, [], rfl, by rw [List.append_nil]; rfl⟩

/-- Setting a value evaluates it, and then takes what it comes to or leaves the draft and the tables
as they are. The answers are those of the hosts at the time. -/
theorem declared_run : ∃ between state events, events.filterMap Event.diagnostic? = [] ∧
    declared hosts basis held property value making =
      let evaluated : Making σ :=
        { making with state := between, events := making.events ++ events }
      match Basis.evaluated (hosts.now making.state).script value with
      | .ok plain => ({ evaluated with state := state } : Making σ).after basis held property plain
          (basis.acceptPlain (evaluated.image? hosts held) property plain)
      | .error cause => (.error cause, evaluated) := by
  obtain ⟨between, events, silent, evaluates⟩ := evaluated_run value hosts making
  simp only [declared, bind_apply, evaluates]
  cases Basis.evaluated (hosts.now making.state).script value with
  | error cause => exact ⟨between, between, events, silent, rfl⟩
  | ok result =>
    obtain ⟨state, run⟩ := plain_run basis held property result hosts
      { making with state := between, events := making.events ++ events }
    refine ⟨between, state, events, silent, ?_⟩
    dsimp only
    rw [run]
    generalize basis.acceptPlain _ property result = comes
    cases comes <;> rfl

end Setting

end StyleCascade
