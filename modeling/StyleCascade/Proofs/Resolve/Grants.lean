import StyleCascade.Proofs.Record.Handles
import StyleCascade.Proofs.Record.WellFormed
import StyleCascade.Proofs.Resolve.Accepted

namespace StyleCascade

/-- Two bases that differ at most in what values cannot see: all of the parent but its font. -/
structure Basis.SameFont (one other : Basis) : Prop where
  config : one.config = other.config
  font : one.parent.map (fun parent => parent.font.value) =
    other.parent.map (fun parent => parent.font.value)

/-- What is written at once is written without a look at handles. -/
def Accepted.Uniform : Accepted → Prop
  | .written change => Record.Uniform change
  | _ => True

/-- The changes of a record that values of a property are written by. -/
inductive Record.Writes : Property → (Record → Record) → Prop
  | word {property word change} (written : withWord? word property = some change) :
      Writes property change
  | length {property forms} (length : Length) (isLength : property.kind = .length forms)
      (permitted : length.permittedBy forms = true) :
      Writes property (fun record => record.withLength property length)
  | pixels (property : Property) (pixels : Int) :
      Writes property (fun record => record.withPixels property pixels)
  | noImage (property : Property) : Writes property (fun record => record.withImage property none)
  | transparent : Writes .backgroundColor (fun record => { record with backgroundColor := none })
  | lineHeight (height : LineHeight) :
      Writes .lineHeight (fun record => { record with lineHeight := height })
  | verticalAlign (align : VerticalAlign) :
      Writes .verticalAlign (fun record => { record with verticalAlign := align })
  | zIndex (place : Option Int) : Writes .zIndex (fun record => { record with zIndex := place })
  | content (text : Option String) :
      Writes .content (fun record => { record with content := text })

/-- The changes of a font that values of a property are written by. -/
inductive FontKey.Sets : Property → (FontKey → FontKey) → Prop
  | family (family : String) : Sets .fontFamily (fun key => { key with family := family })
  | size (size : Int) : Sets .fontSize (fun key => { key with size := size })
  | style (italic : Bool) : Sets .fontStyle (fun key => { key with italic := italic })
  | weight (bold : Bool) : Sets .fontWeight (fun key => { key with bold := bold })

/-- What is known beforehand: of colours, of what addresses give, of fonts, and of how scripts are
evaluated. -/
structure Traits where
  color : Color → Prop
  image : String → Option Image → Prop
  font : Font → Prop
  script : Option (String → Option String) → Prop

/-- Answers that a value can meet with, for all that is known. -/
structure Traits.Allows (traits : Traits) (answers : Answers) : Prop where
  image : ∀ url, traits.image url (answers.image? url)
  script : traits.script answers.script

/-- What properties take values for. -/
inductive Property.Grants (traits : Traits) : Property → Accepted → Prop
  | inherited (property : Property) : Grants traits property .inherited
  | written {property change} (writes : Record.Writes property change) :
      Grants traits property (.written change)
  | fontLength (property : Property) (length : FontLength) :
      Grants traits property (.fontLength length)
  | alignPercent (percent : Float) : Grants traits .verticalAlign (.alignPercent percent)
  | font {property change} (sets : FontKey.Sets property change) :
      Grants traits property (.font change)
  | color {property text color} (read : Color.read text = .ok color) :
      Grants traits property (.color color)
  | image {property url image} (known : traits.image url (some image)) :
      Grants traits property (.image url image)

namespace Basis

section SameFont

variable {one other : Basis}

theorem SameFont.inheritedFont (same : one.SameFont other) :
    one.inheritedFont = other.inheritedFont := by
  obtain ⟨config, font⟩ := same
  cases ofOne : one.parent <;> cases of_other : other.parent <;>
    simp_all [Basis.inheritedFont]

theorem SameFont.inheritedEx? (same : one.SameFont other) :
    one.inheritedEx? = other.inheritedEx? := by
  have sizes := congrArg (Option.map (fun font : Font => font.metrics.ex)) same.font
  rw [Option.map_map, Option.map_map] at sizes
  exact sizes

theorem SameFont.fontPoints (same : one.SameFont other) (value : Value) :
    one.fontPoints value = other.fontPoints value := by
  have words (word : String) : one.wordPoints? word = other.wordPoints? word := by
    simp only [wordPoints?, same.inheritedFont, same.config]
  have dimensions (count : Float) (unit : LengthUnit) :
      one.dimensionPoints count unit = other.dimensionPoints count unit := by
    simp only [dimensionPoints, pointsOfPixels, same.inheritedFont, same.inheritedEx?, same.config]
  cases value <;>
    simp only [Basis.fontPoints, pointsOfPixels, words, dimensions, same.inheritedFont, same.config]

theorem SameFont.acceptSpecial (same : one.SameFont other) (property : Property) (value : Value) :
    one.acceptSpecial property value = other.acceptSpecial property value := by
  cases property <;>
    simp only [Basis.acceptSpecial, acceptFontSize, acceptLineHeight, acceptVerticalAlign,
      acceptPixels, same.fontPoints, same.config]

/-- Bases with the same font accept the same. -/
theorem SameFont.accept (same : one.SameFont other) (answers : Answers) (property : Property)
    (value : Value) : one.accept answers property value = other.accept answers property value := by
  have plain (value : Value) : one.acceptPlain answers.image? property value =
      other.acceptPlain answers.image? property value := by
    simp only [acceptPlain, acceptLength, acceptWidth, acceptPixels, same.acceptSpecial,
      same.config]
  simp only [Basis.accept, funext plain]

end SameFont

section Grants

variable {basis : Basis} {traits : Traits} {property : Property} {value : Value}
  {accepted : Accepted}

/-- A length that a keyword stands for is one the property allows. -/
theorem permittedBy_of_word? {forms : LengthForms} {word : String} {length : Length}
    (named : Specified.word? forms word = some (true, length)) :
    length.permittedBy forms = true := by
  unfold Specified.word? at named
  split at named
  case h_1 | h_2 | h_3 =>
    obtain ⟨permitted, rfl⟩ := Prod.mk.inj (Option.some.inj named)
    exact permitted
  case h_4 => cases named

/-- A dimension that is known at once is in pixels. -/
theorem pixels_of_ofDimension {dpi count : Float} {unit : LengthUnit} {length : Length}
    (known : Specified.ofDimension dpi count unit = .now length) :
    ∃ pixels, length = .px pixels := by
  unfold Specified.ofDimension at known
  split at known
  case h_1 pixels _ => exact ⟨_, (Specified.now.inj known).symm⟩
  case h_2 | h_3 => cases known

/-- A length that is read is in the forms it is read for. -/
theorem permittedBy_of_ofValue {forms : LengthForms} {dpi : Float} {length : Length}
    (found : Specified.ofValue forms dpi value = .ok (.now length)) :
    length.permittedBy forms = true := by
  unfold Specified.ofValue at found
  split at found
  next word =>
    split at found
    next => cases found
    next permitted named wordHere =>
      split at found
      next allowed =>
        cases found
        rw [allowed] at wordHere
        exact permittedBy_of_word? wordHere
      next => cases found
  next count source =>
    split at found
    next => cases found; rfl
    next =>
      split at found
      next => cases found
      next => cases found; rfl
  next count unit =>
    split at found
    next => cases found
    next =>
      obtain ⟨pixels, rfl⟩ := pixels_of_ofDimension (Except.ok.inj found)
      rfl
  next count =>
    split at found
    next => cases found
    next refused =>
      cases found
      exact (by simpa using refused : _ ∧ forms.percent = true).2
  next => cases found

/-- A length that was accepted is one the property allows. -/
theorem acceptLength_grants {forms : LengthForms} (isLength : property.kind = .length forms)
    (found : basis.acceptLength forms property value = .ok accepted) :
    property.Grants traits accepted := by
  unfold acceptLength at found
  cases read : Specified.ofValue forms basis.config.dpi value with
  | error cause => rw [read] at found; cases found
  | ok specified =>
    rw [read] at found
    cases found
    cases specified with
    | now length =>
      exact .written (.length length isLength (permittedBy_of_ofValue read))
    | later length => exact .fontLength property length

theorem acceptPixels_grants {negative : Bool}
    (found : basis.acceptPixels negative property value = .ok accepted) :
    property.Grants traits accepted := by
  unfold acceptPixels at found
  cases read : Specified.pixelsOfValue negative basis.config.dpi value with
  | error cause => rw [read] at found; cases found
  | ok outcome =>
    rw [read] at found
    cases found
    cases outcome with
    | inl pixels => exact .written (.pixels property pixels)
    | inr length => exact .fontLength property length

theorem acceptWord_grants (found : acceptWord property value = .ok accepted) :
    property.Grants traits accepted := by
  unfold acceptWord at found
  split at found
  next word =>
    split at found
    next change written =>
      cases found
      exact .written (.word written)
    next => cases found
  next => cases found

theorem acceptWidth_grants (found : basis.acceptWidth property value = .ok accepted) :
    property.Grants traits accepted := by
  unfold acceptWidth at found
  split at found
  next pixels _ =>
    cases found
    exact .written (.pixels property pixels)
  next => exact acceptPixels_grants found

theorem acceptColor_grants (found : acceptColor property value = .ok accepted) :
    property.Grants traits accepted := by
  unfold acceptColor at found
  split at found
  next transparent =>
    cases found
    have only := of_decide_eq_true (Bool.and_eq_true_iff.mp transparent).1
    rw [only]
    exact .written .transparent
  next =>
    split at found
    next => cases found
    next =>
      split at found
      next read => cases found; exact .color read
      next => cases found

/-- What was accepted for an image is what the loader answers for its address. -/
theorem acceptImage_grants {image? : String → Option Image}
    (known : ∀ url, traits.image url (image? url))
    (found : acceptImage image? property value = .ok accepted) :
    property.Grants traits accepted := by
  unfold acceptImage at found
  split at found
  next =>
    cases found
    exact .written (.noImage property)
  next =>
    split at found
    case h_1 | h_2 =>
      split at found
      next loaded => cases found; exact .image (loaded ▸ known _)
      next => cases found
    case h_3 => cases found

theorem acceptLineHeight_grants (found : basis.acceptLineHeight value = .ok accepted) :
    Property.Grants traits .lineHeight accepted := by
  unfold acceptLineHeight at found
  split at found
  next => cases found; exact .written (.lineHeight _)
  next =>
    split at found
    next => cases found; exact .written (.lineHeight _)
    next => cases found
  next =>
    split at found
    next => cases found; exact .fontLength _ _
    next => cases found
  next => exact acceptPixels_grants found
  next => cases found

theorem acceptVerticalAlign_grants (found : basis.acceptVerticalAlign value = .ok accepted) :
    Property.Grants traits .verticalAlign accepted := by
  unfold acceptVerticalAlign at found
  split at found
  next =>
    split at found
    next => cases found; exact .written (.verticalAlign _)
    next => cases found
  next => cases found; exact .alignPercent _
  next => exact acceptPixels_grants found

theorem acceptZIndex_grants (found : acceptZIndex value = .ok accepted) :
    Property.Grants traits .zIndex accepted := by
  unfold acceptZIndex at found
  split at found
  next => cases found; exact .written (.zIndex _)
  next =>
    split at found
    next => cases found; exact .written (.zIndex _)
    next => cases found
  next => cases found

theorem acceptContent_grants (found : acceptContent value = .ok accepted) :
    Property.Grants traits .content accepted := by
  unfold acceptContent at found
  split at found
  case h_1 | h_2 | h_3 => cases found; exact .written (.content _)
  case h_4 =>
    split at found
    next => cases found; exact .written (.content _)
    next => cases found
  case h_5 => cases found

theorem acceptFontSize_grants (found : basis.acceptFontSize value = .ok accepted) :
    Property.Grants traits .fontSize accepted := by
  unfold acceptFontSize at found
  cases points : basis.fontPoints value with
  | error cause => rw [points] at found; cases found
  | ok count =>
    rw [points] at found
    cases found
    exact .font (.size _)

theorem acceptFontWeight_grants (found : acceptFontWeight value = .ok accepted) :
    Property.Grants traits .fontWeight accepted := by
  unfold acceptFontWeight at found
  split at found
  next => cases found; exact .font (.weight _)
  next => cases found

theorem acceptFontStyle_grants (found : acceptFontStyle value = .ok accepted) :
    Property.Grants traits .fontStyle accepted := by
  unfold acceptFontStyle at found
  split at found
  next => cases found; exact .font (.style _)
  next => cases found

theorem acceptFontFamily_grants (found : acceptFontFamily value = .ok accepted) :
    Property.Grants traits .fontFamily accepted := by
  unfold acceptFontFamily at found
  split at found
  case h_1 | h_2 | h_3 =>
    split at found
    next => cases found; exact .font (.family _)
    next => cases found
  case h_4 => cases found

theorem acceptSpecial_grants (found : basis.acceptSpecial property value = .ok accepted) :
    property.Grants traits accepted := by
  unfold acceptSpecial at found
  split at found
  next => exact acceptFontSize_grants found
  next => exact acceptFontWeight_grants found
  next => exact acceptFontStyle_grants found
  next => exact acceptFontFamily_grants found
  next => exact acceptLineHeight_grants found
  next => exact acceptVerticalAlign_grants found
  next => exact acceptZIndex_grants found
  next => exact acceptContent_grants found
  next => cases found

/-- Whatever a property accepts is in the list. -/
theorem acceptPlain_grants {image? : String → Option Image}
    (known : ∀ url, traits.image url (image? url))
    (found : basis.acceptPlain image? property value = .ok accepted) :
    property.Grants traits accepted := by
  unfold acceptPlain at found
  split at found
  next => cases found; exact .inherited property
  next =>
    split at found
    next => exact acceptWord_grants found
    next isLength => exact acceptLength_grants isLength found
    next => exact acceptWidth_grants found
    next => exact acceptColor_grants found
    next => exact acceptImage_grants known found
    next => exact acceptSpecial_grants found

end Grants

end Basis

theorem Record.Writes.uniform {property : Property} {change : Record → Record}
    (writes : Writes property change) : Uniform change := by
  cases writes with
  | word written => exact withWord?_uniform written
  | length length => exact withLength_uniform property length
  | pixels => exact withPixels_uniform property _
  | noImage => exact fun record f => withImage_rename record f property none
  | transparent | lineHeight | verticalAlign | zIndex | content => exact fun _ _ => rfl

/-- Whatever is accepted and written at once is written without a look at handles. -/
theorem Property.Grants.uniform {traits : Traits} {property : Property} {accepted : Accepted}
    (grants : property.Grants traits accepted) : accepted.Uniform := by
  cases grants with
  | written writes => exact writes.uniform
  | inherited | fontLength | alignPercent | font | color | image => trivial

end StyleCascade
