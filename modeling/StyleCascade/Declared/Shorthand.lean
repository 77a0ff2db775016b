import StyleCascade.Box.Edges
import StyleCascade.Box.Used
import StyleCascade.Declared.Component
import StyleCascade.Font
import StyleCascade.Keyword.Structure
import StyleCascade.Property

namespace StyleCascade

/-- A name that stands for several properties. -/
inductive Shorthand
  | margin
  | padding
  | borderWidth
  | borderStyle
  | borderColor
  | borderSide (side : Side)
  | border
  | outline
  | background
  | backgroundPosition
  | listStyle
  | font
  deriving DecidableEq, Repr

/-- Properties with values, in the order in which a shorthand sets them. -/
abbrev Longhands := List (Property × Value)

/-- What a component of a border or an outline tells. -/
inductive LinePart
  | width
  | style
  | color
  deriving DecidableEq, Repr

/-- The axis that a position word names, if it names one. -/
inductive Axis
  | horizontal
  | vertical
  deriving DecidableEq, Repr

namespace Shorthand

/-- Every shorthand. -/
def all : List Shorthand :=
  [margin, padding, borderWidth, borderStyle, borderColor, borderSide .top, borderSide .right,
    borderSide .bottom, borderSide .left, border, outline, background, backgroundPosition,
    listStyle, font]

/-- The name of a shorthand. -/
def name : Shorthand → String
  | margin => "margin"
  | padding => "padding"
  | borderWidth => "border-width"
  | borderStyle => "border-style"
  | borderColor => "border-color"
  | borderSide .top => "border-top"
  | borderSide .right => "border-right"
  | borderSide .bottom => "border-bottom"
  | borderSide .left => "border-left"
  | border => "border"
  | outline => "outline"
  | background => "background"
  | backgroundPosition => "background-position"
  | listStyle => "list-style"
  | font => "font"

/-- The shorthand with a lowercase name. -/
def ofName? (word : String) : Option Shorthand :=
  all.find? (fun shorthand => shorthand.name = word)

/-- The margin of each side. -/
def margins : Edges Property :=
  ⟨.marginTop, .marginRight, .marginBottom, .marginLeft⟩

/-- The padding of each side. -/
def paddings : Edges Property :=
  ⟨.paddingTop, .paddingRight, .paddingBottom, .paddingLeft⟩

/-- The border width, style or colour of each side. -/
def borderPart : LinePart → Edges Property
  | .width => ⟨.borderTopWidth, .borderRightWidth, .borderBottomWidth, .borderLeftWidth⟩
  | .style => ⟨.borderTopStyle, .borderRightStyle, .borderBottomStyle, .borderLeftStyle⟩
  | .color => ⟨.borderTopColor, .borderRightColor, .borderBottomColor, .borderLeftColor⟩

/-- The outline's width, style or colour. -/
def outlinePart : LinePart → Property
  | .width => .outlineWidth
  | .style => .outlineStyle
  | .color => .outlineColor

/-- The properties that a shorthand can set. -/
def covered : Shorthand → List Property
  | margin => margins.toList
  | padding => paddings.toList
  | borderWidth => (borderPart .width).toList
  | borderStyle => (borderPart .style).toList
  | borderColor => (borderPart .color).toList
  | borderSide side => [(borderPart .width).get side, (borderPart .style).get side,
      (borderPart .color).get side]
  | border => (borderPart .width).toList ++ (borderPart .style).toList ++ (borderPart .color).toList
  | outline => [.outlineWidth, .outlineStyle, .outlineColor]
  | background => [.backgroundColor, .backgroundImage, .backgroundRepeat, .backgroundAttachment,
      .backgroundPositionX, .backgroundPositionY]
  | backgroundPosition => [.backgroundPositionX, .backgroundPositionY]
  | listStyle => [.listStyleType, .listStylePosition, .listStyleImage]
  | font => [.fontStyle, .fontVariant, .fontWeight, .fontSize, .lineHeight, .fontFamily]

/-- Distributes one to four values over the sides. A missing side takes the opposite one. -/
def sides? : List Value → Option (Edges Value)
  | [every] => some ⟨every, every, every, every⟩
  | [block, inline] => some ⟨block, inline, block, inline⟩
  | [top, inline, bottom] => some ⟨top, inline, bottom, inline⟩
  | [top, right, bottom, left] => some ⟨top, right, bottom, left⟩
  | _ => none

/-- Sets the property of each side. -/
def fourSides (properties : Edges Property) (parts : List String) : Option Longhands :=
  (sides? (parts.map Component.classify)).map (fun values => properties.toList.zip values.toList)

/-- What a component of a border tells: a width by word or by length, a style by word, and
otherwise a colour. -/
def linePart (value : Value) : LinePart :=
  match value with
  | .ident word =>
    if (BorderWidth.ofText? word).isSome then .width
    else if (Keyword.ofText? (α := BorderStyle) word).isSome then .style
    else .color
  | .dimension .. | .number .. | .script _ => .width
  | _ => .color

/-- Reads components with a key each, after those of `seen`. No key may come twice. -/
def keyed? {κ : Type} [DecidableEq κ] (key : Value → Option κ) (seen : List κ) :
    List String → Option (List (κ × Value))
  | [] => some []
  | part :: rest =>
    let value := Component.classify part
    match key value with
    | none => none
    | some k => if k ∈ seen then none else (keyed? key (k :: seen) rest).map ((k, value) :: ·)

/-- The parts of a border or an outline, in any order. -/
def lineParts? (parts : List String) : Option (List (LinePart × Value)) :=
  keyed? (fun value => some (linePart value)) [] parts

/-- The percentage that a position word stands for, and its axis. -/
def positionWord? : String → Option (Float × Option Axis)
  | "left" => some (0, some .horizontal)
  | "right" => some (100, some .horizontal)
  | "top" => some (0, some .vertical)
  | "bottom" => some (100, some .vertical)
  | "center" => some (50, none)
  | _ => none

/-- The axis that a value names. -/
def namedAxis? (value : Value) : Option Axis :=
  (value.word?.bind positionWord?).bind (·.2)

/-- A position with its word replaced by the percentage. -/
def positionValue (value : Value) : Value :=
  match value.word?.bind positionWord? with
  | some (percentage, _) => .percent percentage
  | none => value

/-- Sets both coordinates of a position. A single value leaves the other coordinate in the middle;
two values come in either order where a word tells which is which. -/
def position? (parts : List String) : Option Longhands :=
  match parts.map Component.classify with
  | [only] =>
    if namedAxis? only = some .vertical then
      some [(.backgroundPositionX, .percent 50), (.backgroundPositionY, positionValue only)]
    else some [(.backgroundPositionX, positionValue only), (.backgroundPositionY, .percent 50)]
  | [first, second] =>
    if namedAxis? first = some .vertical || namedAxis? second = some .horizontal then
      some [(.backgroundPositionX, positionValue second),
        (.backgroundPositionY, positionValue first)]
    else
      some [(.backgroundPositionX, positionValue first),
        (.backgroundPositionY, positionValue second)]
  | _ => none

/-- The property that a component of a background sets by itself; none if it is a coordinate. -/
def backgroundPart? (value : Value) : Option Property :=
  match value with
  | .url _ => some .backgroundImage
  | .ident word =>
    if word = "none" then some .backgroundImage
    else if (Keyword.ofText? (α := BackgroundRepeat) word).isSome then some .backgroundRepeat
    else if (Keyword.ofText? (α := BackgroundAttachment) word).isSome then
      some .backgroundAttachment
    else if (positionWord? word).isSome then none
    else some .backgroundColor
  | .dimension .. | .percent _ | .number .. => none
  | _ => some .backgroundColor

/-- A component of a background is a coordinate. -/
def isCoordinate (part : String) : Bool :=
  (backgroundPart? (Component.classify part)).isNone

/-- Sets the parts of a background. The coordinates, taken together, are a position. -/
def background? (parts : List String) : Option Longhands :=
  match keyed? backgroundPart? [] (parts.filter (!isCoordinate ·)) with
  | none => none
  | some set =>
    match parts.filter isCoordinate with
    | [] => some set
    | coordinates => (position? coordinates).map (set ++ ·)

/-- The property that a component of a list style sets. -/
def listPart? (value : Value) : Option Property :=
  match value with
  | .url _ => some .listStyleImage
  | .ident word =>
    if (Keyword.ofText? (α := ListStyleType) word).isSome then some .listStyleType
    else if (Keyword.ofText? (α := ListStylePosition) word).isSome then some .listStylePosition
    else none
  | _ => none

/-- What a component in front of a font size does. -/
inductive FontOption
  | skip
  | set (property : Property)
  | stop

/-- Style, variant and weight may stand in front of a font size, and `normal` for any of them. -/
def fontOption (value : Value) : FontOption :=
  match value with
  | .ident word =>
    if word = "normal" then .skip
    else if word = "italic" || word = "oblique" then .set .fontStyle
    else if word = "small-caps" then .set .fontVariant
    else if word = "bold" || word = "bolder" || word = "lighter" then .set .fontWeight
    else .stop
  | .number number _ => if Font.isWeight number then .set .fontWeight else .stop
  | _ => .stop

/-- The options in front of a font size, and the parts from the size on. -/
def fontOptions : List String → Longhands × List String
  | [] => ([], [])
  | part :: rest =>
    match fontOption (Component.classify part) with
    | .skip => fontOptions rest
    | .set property =>
      ((property, Component.classify part) :: (fontOptions rest).1, (fontOptions rest).2)
    | .stop => ([], part :: rest)

/-- A line height behind a slash that is not in the part of the font size: the rest of its part, or
else the next part. Fails if a slash ends the parts. -/
def slashedHeight? : List String → Option (Option String × List String)
  | [] => some (none, [])
  | part :: rest =>
    match part.toList with
    | ['/'] =>
      match rest with
      | [] => none
      | height :: families => some (some height, families)
    | '/' :: height => some (some (String.ofList height), rest)
    | _ => some (none, part :: rest)

/-- Font size and line height, which a slash separates, and the parts behind them. -/
def fontSize? : List String → Option (String × Option String × List String)
  | [] => none
  | part :: rest =>
    let size := String.ofList (part.toList.takeWhile (· ≠ '/'))
    match part.toList.dropWhile (· ≠ '/') with
    | _ :: c :: height => some (size, some (String.ofList (c :: height)), rest)
    | _ => (slashedHeight? rest).map (fun (height, families) => (size, height, families))

/-- Sets the parts of a font: options, size, line height, and families, which must be there. -/
def font? (parts : List String) : Option Longhands :=
  let (options, rest) := fontOptions parts
  match fontSize? rest with
  | none => none
  | some (_, _, []) => none
  | some (size, height, families) =>
    some (options ++ (.fontSize, Component.classify size) ::
      (height.toList.map (fun text => (Property.lineHeight, Component.classify text)) ++
        [(.fontFamily, Value.ofText (" ".intercalate families))]))

/-- Sets what the components mention. -/
def expand? (shorthand : Shorthand) (parts : List String) : Option Longhands :=
  match shorthand with
  | margin => fourSides margins parts
  | padding => fourSides paddings parts
  | borderWidth => fourSides (borderPart .width) parts
  | borderStyle => fourSides (borderPart .style) parts
  | borderColor => fourSides (borderPart .color) parts
  | borderSide side =>
    (lineParts? parts).map (·.map (fun (part, value) => ((borderPart part).get side, value)))
  | border =>
    (lineParts? parts).map
      (·.flatMap (fun (part, value) => (borderPart part).toList.map (fun p => (p, value))))
  | outline => (lineParts? parts).map (·.map (fun (part, value) => (outlinePart part, value)))
  | background => background? parts
  | backgroundPosition => position? parts
  | listStyle => keyed? listPart? [] parts
  | font => font? parts

end Shorthand

end StyleCascade
