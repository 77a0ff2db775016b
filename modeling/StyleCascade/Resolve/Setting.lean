import StyleCascade.Declared.Component
import StyleCascade.Resolve.Making

namespace StyleCascade

namespace Basis

/-- The text that a value is as a colour. Digits alone may be a hexadecimal colour. -/
def colorText? : Value → Option String
  | .ident word => some word
  | .hash digits => some ("#" ++ digits)
  | .number _ source =>
    let digits := source.toList
    if (digits.length = 3 || digits.length = 6) && digits.all Char.isDigit then some source
    else none
  | .function name arguments => some (name ++ "(" ++ arguments ++ ")")
  | _ => none

/-- The step between neighbouring sizes for `smaller` and `larger`. -/
def fontStep : Float :=
  1.2

/-- The points of a font size given by a word. -/
def wordPoints? (basis : Basis) (word : String) : Option Float :=
  let parent := basis.inheritedFont.points
  match word with
  | "smaller" => some (parent / fontStep)
  | "larger" => some (parent * fontStep)
  | _ => (Keyword.ofText? word).map basis.config.fontTable

/-- The points of some pixels. -/
def pointsOfPixels (basis : Basis) (pixels : Float) : Float :=
  pixels * 72 / basis.config.dpi

/-- The points of a font size given as a dimension. -/
def dimensionPoints (basis : Basis) (count : Float) (unit : LengthUnit) : Float :=
  let parent := basis.inheritedFont.points
  match unit.pixels? count basis.config.dpi, unit, basis.inheritedEx? with
  | some pixels, _, _ => basis.pointsOfPixels pixels
  | none, .ex, some ex => basis.pointsOfPixels (count * Float.ofInt ex)
  | none, .ex, none => parent * count / 2
  | none, _, _ => parent * count

/-- The points of a font size, which depends on the parent's font. -/
def fontPoints (basis : Basis) (value : Value) : Except ValueFault Float :=
  match value with
  | .ident word =>
    match basis.wordPoints? word with
    | some points => .ok points
    | none => .error (.keyword word)
  | .number count _ =>
    if count < 0 then .error (.disallowed value.text) else .ok (basis.pointsOfPixels count)
  | .dimension count unit =>
    if count < 0 then .error (.disallowed value.text)
    else .ok (basis.dimensionPoints count unit)
  | .percent count =>
    if count < 0 then .error (.disallowed value.text)
    else .ok (basis.inheritedFont.points * count / 100)
  | _ => .error (.length value.text)

/-- A font weight, as whether it is bold. -/
def weight? : Value → Option Bool
  | .ident "normal" | .ident "lighter" => some false
  | .ident "bold" | .ident "bolder" => some true
  | .number count _ => if Font.isWeight count then some (count ≥ 600) else none
  | _ => none

/-- A font style, as whether it is slanted. -/
def slope? : Value → Option Bool
  | .ident "normal" => some false
  | .ident "italic" | .ident "oblique" => some true
  | _ => none

/-- The string of a component, if it is one. -/
def componentString? (component : String) : Option String :=
  match Component.classify component with
  | .str text => some text
  | _ => none

/-- The strings of a text, joined. Every component must be a string. -/
def joinedStrings? (text : String) : Option String :=
  ((Component.split text).mapM componentString?).map String.join

end Basis

/-- Setting a value of a draft. What was changed before a fault stays changed. -/
abbrev Setting (σ α : Type) :=
  ExceptT ValueFault (StateM (Making σ)) α

namespace Setting

variable {σ : Type}

/-- Changes the record. -/
def write (change : Record → Record) : Setting σ Unit :=
  modify (fun making => { making with draft.record := change making.draft.record })

/-- Leaves a length to wait for the font. -/
def await (property : Property) (length : FontLength) : Setting σ Unit :=
  modify (fun making =>
    { making with draft.waiting := making.draft.waiting ++ [(property, length)] })

/-- Changes the font that is asked for. -/
def font (change : FontKey → FontKey) : Setting σ Unit :=
  modify (fun making => { making with draft.font := change making.draft.font })

/-- Leaves a vertical alignment to wait for the line height. -/
def align (percent : Float) : Setting σ Unit :=
  modify (fun making => { making with draft.alignPercent := some percent })

/-- Marks a border or outline colour as declared. -/
def mark (property : Property) : Setting σ Unit :=
  modify (fun making => { making with draft := making.draft.markColor property })

/-- Takes the parent's value of a property. -/
def inherit (basis : Basis) (property : Property) : Setting σ Unit :=
  modify (fun making => { making with draft := making.draft.inherit basis property })

/-- Does something with all but the draft. -/
def within {α : Type} (action : Context σ → α × Context σ) : Setting σ α :=
  modifyGet (fun making =>
    let (result, context) := action making.toContext
    (result, { making with toContext := context }))

/-- Sets a property that takes words. -/
def word (property : Property) (value : Value) : Setting σ Unit :=
  match value with
  | .ident word =>
    match Record.withWord? word property with
    | some change => write change
    | none => throw (.keyword word)
  | _ => throw (.keyword value.text)

/-- Sets a length that is known, and leaves another one to wait. -/
def length (basis : Basis) (forms : LengthForms) (property : Property) (value : Value) :
    Setting σ Unit := do
  match ← Specified.ofValue forms basis.config.dpi value with
  | .now length => write (fun record => record.withLength property length)
  | .later length => await property length

/-- Sets a length in pixels that is known, and leaves another one to wait. -/
def pixels (basis : Basis) (negative : Bool) (property : Property) (value : Value) :
    Setting σ Unit := do
  match ← Specified.pixelsOfValue negative basis.config.dpi value with
  | .inl pixels => write (fun record => record.withPixels property pixels)
  | .inr length => await property length

/-- Sets a border width. -/
def width (basis : Basis) (property : Property) (value : Value) : Setting σ Unit :=
  match value.word?.bind BorderWidth.ofText? with
  | some pixels => write (fun record => record.withPixels property pixels)
  | none => pixels basis false property value

/-- Sets a colour. Only backgrounds are transparent. -/
def color (held : Held) (property : Property) (value : Value) : Setting σ Unit := do
  if property = .backgroundColor && value.isWord "transparent" then
    write (fun record => { record with backgroundColor := none })
  else
    match Basis.colorText? value with
    | none => throw (.noColor value.text)
    | some text =>
      match Color.read text with
      | .error cause => throw (.color text cause)
      | .ok color =>
        let record := (← get).draft.record
        let handle ← within (Context.share (fun tables => tables.internColor held [record] color))
        write (fun record => record.withColor property handle)
        mark property

/-- The image of an address: the one that somebody holds, or else a new one, which is loaded. -/
def imageAt (hosts : Hosts σ) (held : Held) (url : String) : Setting σ (Handle Image) := do
  match (← get).heldImage? held url with
  | some handle => return handle
  | none =>
    match ← within (Context.ask (hosts.loadImage url)) with
    | none => throw (.image url)
    | some image =>
      let record := (← get).draft.record
      within (Context.share (fun tables => tables.internImage held [record] url image))

/-- Sets an image. -/
def image (hosts : Hosts σ) (held : Held) (property : Property) (value : Value) :
    Setting σ Unit := do
  if value.isWord "none" then write (fun record => record.withImage property none)
  else
    match value with
    | .url url | .str url =>
      let handle ← imageAt hosts held url
      write (fun record => record.withImage property (some handle))
    | _ => throw (.image value.text)

/-- Sets the font size, which depends on the parent's font. -/
def fontSize (basis : Basis) (value : Value) : Setting σ Unit := do
  let points ← basis.fontPoints value
  font (fun key => { key with size := FontKey.sizeOfPoints points })

/-- Sets the font weight. -/
def fontWeight (value : Value) : Setting σ Unit :=
  match Basis.weight? value with
  | some bold => font (fun key => { key with bold := bold })
  | none => throw (.keyword value.text)

/-- Sets the font style. -/
def fontStyle (value : Value) : Setting σ Unit :=
  match Basis.slope? value with
  | some italic => font (fun key => { key with italic := italic })
  | none => throw (.keyword value.text)

/-- Sets the font families. -/
def fontFamily (value : Value) : Setting σ Unit :=
  match value with
  | .ident text | .str text | .raw text =>
    match Font.familyList? text with
    | some family => font (fun key => { key with family := family })
    | none => throw (.invalid text)
  | _ => throw (.invalid value.text)

/-- Writes the line height. -/
def writeLineHeight (height : LineHeight) : Setting σ Unit :=
  write (fun record => { record with lineHeight := height })

/-- Sets the line height. A number is a factor that is inherited as such; a percentage is taken of
the font size at once. -/
def lineHeight (basis : Basis) (value : Value) : Setting σ Unit :=
  match value with
  | .ident "normal" => writeLineHeight .normal
  | .number count _ =>
    if count ≥ 0 then writeLineHeight (.factor (Number.round (count * 100)))
    else throw (.invalid value.text)
  | .percent count =>
    if count ≥ 0 then await .lineHeight (.em (count / 100)) else throw (.invalid value.text)
  | .dimension .. => pixels basis false .lineHeight value
  | _ => throw (.invalid value.text)

/-- Sets the vertical alignment. -/
def verticalAlign (basis : Basis) (value : Value) : Setting σ Unit :=
  match value with
  | .ident word =>
    match Keyword.ofText? word with
    | some place => write (fun record => { record with verticalAlign := .keyword place })
    | none => throw (.keyword word)
  | .percent count => align count
  | _ => pixels basis true .verticalAlign value

/-- Writes the place on the axis towards the reader. -/
def writeZIndex (place : Option Int) : Setting σ Unit :=
  write (fun record => { record with zIndex := place })

/-- Sets the place on the axis towards the reader: a whole number, or automatic. -/
def zIndex (value : Value) : Setting σ Unit :=
  match value with
  | .ident "auto" => writeZIndex none
  | .number count _ =>
    if count - count.floor == 0 then writeZIndex (some (Number.round count))
    else throw (.invalid value.text)
  | _ => throw (.invalid value.text)

/-- Writes content. -/
def writeContent (content : Option String) : Setting σ Unit :=
  write (fun record => { record with content := content })

/-- Sets content. -/
def content (value : Value) : Setting σ Unit :=
  match value with
  | .ident "none" | .ident "normal" => writeContent none
  | .str text => writeContent (some text)
  | .raw text =>
    match Basis.joinedStrings? text with
    | some joined => writeContent (some joined)
    | none => throw (.invalid text)
  | _ => throw (.invalid value.text)

/-- Sets a property with rules of its own. -/
def special (basis : Basis) (property : Property) (value : Value) : Setting σ Unit :=
  match property with
  | .fontSize => fontSize basis value
  | .fontWeight => fontWeight value
  | .fontStyle => fontStyle value
  | .fontFamily => fontFamily value
  | .lineHeight => lineHeight basis value
  | .verticalAlign => verticalAlign basis value
  | .zIndex => zIndex value
  | .content => content value
  | _ => throw (.invalid value.text)

/-- Sets a property to a value that is no script. -/
def plain (hosts : Hosts σ) (basis : Basis) (held : Held) (property : Property) (value : Value) :
    Setting σ Unit :=
  if value.isWord "inherit" then inherit basis property
  else
    match property.kind with
    | .keyword => word property value
    | .length forms => length basis forms property value
    | .borderWidth => width basis property value
    | .color => color held property value
    | .image => image hosts held property value
    | .special => special basis property value

/-- The text that a script comes to. -/
def evaluate (hosts : Hosts σ) (source : String) : Setting σ (Option String) :=
  match hosts.script with
  | none => return none
  | some evaluate => do
    within (fun context => ((), context.tell [.scriptEvaluated source]))
    within (Context.ask (evaluate source))

/-- The value that a script gives. It must not be a script again. -/
def evaluated (hosts : Hosts σ) (value : Value) : Setting σ Value :=
  match value with
  | .script source => do
    match ← evaluate hosts source with
    | none => throw (.script source)
    | some text =>
      match Value.ofText text with
      | .script _ => throw (.script source)
      | result => return result
  | _ => return value

/-- Sets a property to a value, and tells the value without scripts. -/
def declared (hosts : Hosts σ) (basis : Basis) (held : Held) (property : Property)
    (value : Value) : Setting σ Value := do
  let result ← evaluated hosts value
  plain hosts basis held property result
  return result

end Setting

end StyleCascade
