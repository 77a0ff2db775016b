import StyleCascade.Resolve

namespace StyleCascade

/-- What an accepted value comes to. -/
inductive Accepted
  /-- The parent's value. -/
  | inherited
  /-- A value that is written at once. -/
  | written (change : Record → Record)
  /-- A length that waits for the font of the element. -/
  | fontLength (length : FontLength)
  /-- A vertical alignment in percent of the line height. -/
  | alignPercent (percent : Float)
  /-- A change of the font that is asked for. -/
  | font (change : FontKey → FontKey)
  | color (color : Color)
  | image (url : String) (image : Image)

namespace Accepted

/-- A length that is known, or one that waits. -/
def ofSpecified (property : Property) : Specified → Accepted
  | .now length => .written (fun record => record.withLength property length)
  | .later length => .fontLength length

/-- Pixels that are known, or a length that waits. -/
def ofPixels (property : Property) : Sum Int FontLength → Accepted
  | .inl pixels => .written (fun record => record.withPixels property pixels)
  | .inr length => .fontLength length

end Accepted

namespace Basis

/-- The value of a property that takes words. -/
def acceptWord (property : Property) (value : Value) : Except ValueFault Accepted :=
  match value with
  | .ident word =>
    match Record.withWord? word property with
    | some change => .ok (.written change)
    | none => .error (.keyword word)
  | _ => .error (.keyword value.text)

/-- The value of a length. -/
def acceptLength (basis : Basis) (forms : LengthForms) (property : Property) (value : Value) :
    Except ValueFault Accepted :=
  (Specified.ofValue forms basis.config.dpi value).map (Accepted.ofSpecified property)

/-- The value of a length that only takes pixels. -/
def acceptPixels (basis : Basis) (negative : Bool) (property : Property) (value : Value) :
    Except ValueFault Accepted :=
  (Specified.pixelsOfValue negative basis.config.dpi value).map (Accepted.ofPixels property)

/-- The value of a border width. -/
def acceptWidth (basis : Basis) (property : Property) (value : Value) :
    Except ValueFault Accepted :=
  match value.word?.bind BorderWidth.ofText? with
  | some pixels => .ok (.written (fun record => record.withPixels property pixels))
  | none => basis.acceptPixels false property value

/-- The value of a colour. -/
def acceptColor (property : Property) (value : Value) : Except ValueFault Accepted :=
  if property = .backgroundColor && value.isWord "transparent" then
    .ok (.written (fun record => { record with backgroundColor := none }))
  else
    match colorText? value with
    | none => .error (.noColor value.text)
    | some text =>
      match Color.read text with
      | .ok color => .ok (.color color)
      | .error cause => .error (.color text cause)

/-- The value of an image, for what addresses give. -/
def acceptImage (image? : String → Option Image) (property : Property) (value : Value) :
    Except ValueFault Accepted :=
  if value.isWord "none" then .ok (.written (fun record => record.withImage property none))
  else
    match value with
    | .url url | .str url =>
      match image? url with
      | some image => .ok (.image url image)
      | none => .error (.image url)
    | _ => .error (.image value.text)

/-- The value of a font size. -/
def acceptFontSize (basis : Basis) (value : Value) : Except ValueFault Accepted :=
  (basis.fontPoints value).map (fun points =>
    .font (fun key => { key with size := FontKey.sizeOfPoints points }))

/-- The value of a font weight. -/
def acceptFontWeight (value : Value) : Except ValueFault Accepted :=
  match weight? value with
  | some bold => .ok (.font (fun key => { key with bold := bold }))
  | none => .error (.keyword value.text)

/-- The value of a font style. -/
def acceptFontStyle (value : Value) : Except ValueFault Accepted :=
  match slope? value with
  | some italic => .ok (.font (fun key => { key with italic := italic }))
  | none => .error (.keyword value.text)

/-- The value of a list of font families. -/
def acceptFontFamily (value : Value) : Except ValueFault Accepted :=
  match value with
  | .ident text | .str text | .raw text =>
    match Font.familyList? text with
    | some family => .ok (.font (fun key => { key with family := family }))
    | none => .error (.invalid text)
  | _ => .error (.invalid value.text)

/-- A line height, written. -/
def writtenLineHeight (height : LineHeight) : Accepted :=
  .written (fun record => { record with lineHeight := height })

/-- The value of a line height. -/
def acceptLineHeight (basis : Basis) (value : Value) : Except ValueFault Accepted :=
  match value with
  | .ident "normal" => .ok (writtenLineHeight .normal)
  | .number count _ =>
    if count ≥ 0 then .ok (writtenLineHeight (.factor (Number.round (count * 100))))
    else .error (.invalid value.text)
  | .percent count =>
    if count ≥ 0 then .ok (.fontLength (.em (count / 100))) else .error (.invalid value.text)
  | .dimension .. => basis.acceptPixels false .lineHeight value
  | _ => .error (.invalid value.text)

/-- The value of a vertical alignment. -/
def acceptVerticalAlign (basis : Basis) (value : Value) : Except ValueFault Accepted :=
  match value with
  | .ident word =>
    match Keyword.ofText? word with
    | some place =>
      .ok (.written (fun record => { record with verticalAlign := .keyword place }))
    | none => .error (.keyword word)
  | .percent count => .ok (.alignPercent count)
  | _ => basis.acceptPixels true .verticalAlign value

/-- The value of a place on the axis towards the reader. -/
def acceptZIndex (value : Value) : Except ValueFault Accepted :=
  match value with
  | .ident "auto" => .ok (.written (fun record => { record with zIndex := none }))
  | .number count _ =>
    if count - count.floor == 0 then
      .ok (.written (fun record => { record with zIndex := some (Number.round count) }))
    else .error (.invalid value.text)
  | _ => .error (.invalid value.text)

/-- Content, written. -/
def writtenContent (content : Option String) : Accepted :=
  .written (fun record => { record with content := content })

/-- The value of content. -/
def acceptContent (value : Value) : Except ValueFault Accepted :=
  match value with
  | .ident "none" | .ident "normal" => .ok (writtenContent none)
  | .str text => .ok (writtenContent (some text))
  | .raw text =>
    match joinedStrings? text with
    | some joined => .ok (writtenContent (some joined))
    | none => .error (.invalid text)
  | _ => .error (.invalid value.text)

/-- The value of a property with rules of its own. -/
def acceptSpecial (basis : Basis) (property : Property) (value : Value) :
    Except ValueFault Accepted :=
  match property with
  | .fontSize => basis.acceptFontSize value
  | .fontWeight => acceptFontWeight value
  | .fontStyle => acceptFontStyle value
  | .fontFamily => acceptFontFamily value
  | .lineHeight => basis.acceptLineHeight value
  | .verticalAlign => basis.acceptVerticalAlign value
  | .zIndex => acceptZIndex value
  | .content => acceptContent value
  | _ => .error (.invalid value.text)

/-- What a value without scripts comes to for a property. -/
def acceptPlain (basis : Basis) (image? : String → Option Image) (property : Property)
    (value : Value) : Except ValueFault Accepted :=
  if value.isWord "inherit" then .ok .inherited
  else
    match property.kind with
    | .keyword => acceptWord property value
    | .length forms => basis.acceptLength forms property value
    | .borderWidth => basis.acceptWidth property value
    | .color => acceptColor property value
    | .image => acceptImage image? property value
    | .special => basis.acceptSpecial property value

/-- The value that a script gives. -/
def evaluated (script : Option (String → Option String)) (value : Value) :
    Except ValueFault Value :=
  match value with
  | .script source =>
    match script.bind (fun evaluate => evaluate source) with
    | none => .error (.script source)
    | some text =>
      match Value.ofText text with
      | .script _ => .error (.script source)
      | result => .ok result
  | _ => .ok value

/-- What a value comes to for a property, for answers of the hosts. -/
def accept (basis : Basis) (answers : Answers) (property : Property) (value : Value) :
    Except ValueFault Accepted :=
  (evaluated answers.script value).bind (basis.acceptPlain answers.image? property)

/-- Acceptance looks at what the value evaluates to, so a script can be replaced by its answer. -/
theorem accept_of_evaluated {answers : Answers} {value plain : Value}
    (evaluates : evaluated answers.script value = .ok plain) (basis : Basis) (property : Property) :
    basis.accept answers property value = basis.acceptPlain answers.image? property plain := by
  rw [accept, evaluates]
  rfl

end Basis

namespace Draft

/-- Takes what a value came to. Colours and images are shared on the way. -/
def take (draft : Draft) (basis : Basis) (held : Held) (tables : Tables) (property : Property) :
    Accepted → Draft × Tables
  | .inherited => (draft.inherit basis property, tables)
  | .written change => ({ draft with record := change draft.record }, tables)
  | .fontLength length => ({ draft with waiting := draft.waiting ++ [(property, length)] }, tables)
  | .alignPercent percent => ({ draft with alignPercent := some percent }, tables)
  | .font change => ({ draft with font := change draft.font }, tables)
  | .color color =>
    let (handle, tables) := tables.internColor held [draft.record] color
    ({ draft with record := draft.record.withColor property handle }.markColor property, tables)
  | .image url image =>
    let (handle, tables) := tables.internImage held [draft.record] url image
    ({ draft with record := draft.record.withImage property (some handle) }, tables)

/-- Takes what the values of several properties came to, one after the other. -/
def takeAll (basis : Basis) (held : Held) (start : Draft × Tables)
    (accepted : List (Property × Accepted)) : Draft × Tables :=
  accepted.foldl (fun (draft, tables) (property, value) =>
    draft.take basis held tables property value) start

end Draft

end StyleCascade
