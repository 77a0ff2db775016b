import StyleCascade.Quantity.Length

namespace StyleCascade

/-- How the values of a property are read. -/
inductive PropertyKind
  /-- One word out of a fixed set. -/
  | keyword
  /-- A length, or another form that the property takes. -/
  | length (forms : LengthForms)
  /-- A length, or a word for a border width. -/
  | borderWidth
  | color
  | image
  /-- A property with rules of its own. -/
  | special
  deriving DecidableEq, Repr

/-- A property, in the order in which properties are listed and resolved. Shorthands are not among
them: they are taken apart while a style sheet is read. -/
inductive Property
  | backgroundAttachment
  | backgroundColor
  | backgroundImage
  | backgroundPositionX
  | backgroundPositionY
  | backgroundRepeat
  | borderCollapse
  | borderSpacing
  | borderTopColor
  | borderRightColor
  | borderBottomColor
  | borderLeftColor
  | borderTopStyle
  | borderRightStyle
  | borderBottomStyle
  | borderLeftStyle
  | borderTopWidth
  | borderRightWidth
  | borderBottomWidth
  | borderLeftWidth
  | bottom
  | captionSide
  | clear
  | color
  | content
  | cursor
  | direction
  | display
  | emptyCells
  | float
  | fontFamily
  | fontSize
  | fontStyle
  | fontVariant
  | fontWeight
  | height
  | left
  | letterSpacing
  | lineHeight
  | listStyleImage
  | listStylePosition
  | listStyleType
  | marginTop
  | marginRight
  | marginBottom
  | marginLeft
  | maxHeight
  | maxWidth
  | minHeight
  | minWidth
  | outlineColor
  | outlineStyle
  | outlineWidth
  | overflow
  | paddingTop
  | paddingRight
  | paddingBottom
  | paddingLeft
  | position
  | right
  | tableLayout
  | textAlign
  | textDecoration
  | textIndent
  | textTransform
  | top
  | verticalAlign
  | visibility
  | whiteSpace
  | width
  | wordSpacing
  | zIndex
  deriving DecidableEq, Repr

namespace Property

/-- Every property, in order. -/
def all : List Property := [
  .backgroundAttachment, .backgroundColor, .backgroundImage, .backgroundPositionX,
  .backgroundPositionY, .backgroundRepeat, .borderCollapse, .borderSpacing, .borderTopColor,
  .borderRightColor, .borderBottomColor, .borderLeftColor, .borderTopStyle, .borderRightStyle,
  .borderBottomStyle, .borderLeftStyle, .borderTopWidth, .borderRightWidth, .borderBottomWidth,
  .borderLeftWidth, .bottom, .captionSide, .clear, .color, .content, .cursor, .direction,
  .display, .emptyCells, .float, .fontFamily, .fontSize, .fontStyle, .fontVariant, .fontWeight,
  .height, .left, .letterSpacing, .lineHeight, .listStyleImage, .listStylePosition,
  .listStyleType, .marginTop, .marginRight, .marginBottom, .marginLeft, .maxHeight, .maxWidth,
  .minHeight, .minWidth, .outlineColor, .outlineStyle, .outlineWidth, .overflow, .paddingTop,
  .paddingRight, .paddingBottom, .paddingLeft, .position, .right, .tableLayout, .textAlign,
  .textDecoration, .textIndent, .textTransform, .top, .verticalAlign, .visibility, .whiteSpace,
  .width, .wordSpacing, .zIndex]

/-- The name of a property. -/
def name : Property → String
  | .backgroundAttachment => "background-attachment"
  | .backgroundColor => "background-color"
  | .backgroundImage => "background-image"
  | .backgroundPositionX => "background-position-x"
  | .backgroundPositionY => "background-position-y"
  | .backgroundRepeat => "background-repeat"
  | .borderCollapse => "border-collapse"
  | .borderSpacing => "border-spacing"
  | .borderTopColor => "border-top-color"
  | .borderRightColor => "border-right-color"
  | .borderBottomColor => "border-bottom-color"
  | .borderLeftColor => "border-left-color"
  | .borderTopStyle => "border-top-style"
  | .borderRightStyle => "border-right-style"
  | .borderBottomStyle => "border-bottom-style"
  | .borderLeftStyle => "border-left-style"
  | .borderTopWidth => "border-top-width"
  | .borderRightWidth => "border-right-width"
  | .borderBottomWidth => "border-bottom-width"
  | .borderLeftWidth => "border-left-width"
  | .bottom => "bottom"
  | .captionSide => "caption-side"
  | .clear => "clear"
  | .color => "color"
  | .content => "content"
  | .cursor => "cursor"
  | .direction => "direction"
  | .display => "display"
  | .emptyCells => "empty-cells"
  | .float => "float"
  | .fontFamily => "font-family"
  | .fontSize => "font-size"
  | .fontStyle => "font-style"
  | .fontVariant => "font-variant"
  | .fontWeight => "font-weight"
  | .height => "height"
  | .left => "left"
  | .letterSpacing => "letter-spacing"
  | .lineHeight => "line-height"
  | .listStyleImage => "list-style-image"
  | .listStylePosition => "list-style-position"
  | .listStyleType => "list-style-type"
  | .marginTop => "margin-top"
  | .marginRight => "margin-right"
  | .marginBottom => "margin-bottom"
  | .marginLeft => "margin-left"
  | .maxHeight => "max-height"
  | .maxWidth => "max-width"
  | .minHeight => "min-height"
  | .minWidth => "min-width"
  | .outlineColor => "outline-color"
  | .outlineStyle => "outline-style"
  | .outlineWidth => "outline-width"
  | .overflow => "overflow"
  | .paddingTop => "padding-top"
  | .paddingRight => "padding-right"
  | .paddingBottom => "padding-bottom"
  | .paddingLeft => "padding-left"
  | .position => "position"
  | .right => "right"
  | .tableLayout => "table-layout"
  | .textAlign => "text-align"
  | .textDecoration => "text-decoration"
  | .textIndent => "text-indent"
  | .textTransform => "text-transform"
  | .top => "top"
  | .verticalAlign => "vertical-align"
  | .visibility => "visibility"
  | .whiteSpace => "white-space"
  | .width => "width"
  | .wordSpacing => "word-spacing"
  | .zIndex => "z-index"

/-- The kind of a property. -/
def kind : Property → PropertyKind
  | .backgroundAttachment | .backgroundRepeat | .borderCollapse | .borderTopStyle
  | .borderRightStyle | .borderBottomStyle | .borderLeftStyle | .captionSide | .clear
  | .cursor | .direction | .display | .emptyCells | .float | .fontVariant | .listStylePosition
  | .listStyleType | .outlineStyle | .overflow | .position | .tableLayout | .textAlign
  | .textDecoration | .textTransform | .visibility | .whiteSpace =>
    .keyword
  | .backgroundColor | .borderTopColor | .borderRightColor | .borderBottomColor
  | .borderLeftColor | .color | .outlineColor =>
    .color
  | .backgroundImage | .listStyleImage =>
    .image
  | .backgroundPositionX | .backgroundPositionY | .textIndent =>
    .length { LengthForms.plain with percent := true, negative := true }
  | .borderSpacing =>
    .length .plain
  | .borderTopWidth | .borderRightWidth | .borderBottomWidth | .borderLeftWidth
  | .outlineWidth =>
    .borderWidth
  | .bottom | .left | .marginTop | .marginRight | .marginBottom | .marginLeft | .right | .top =>
    .length { LengthForms.plain with percent := true, auto := true, negative := true }
  | .content | .fontFamily | .fontSize | .fontStyle | .fontWeight | .lineHeight
  | .verticalAlign | .zIndex =>
    .special
  | .height | .width =>
    .length { LengthForms.plain with percent := true, auto := true }
  | .letterSpacing | .wordSpacing =>
    .length { LengthForms.plain with normal := true, negative := true }
  | .maxHeight | .maxWidth =>
    .length { LengthForms.plain with percent := true, none := true }
  | .minHeight | .minWidth | .paddingTop | .paddingRight | .paddingBottom | .paddingLeft =>
    .length { LengthForms.plain with percent := true }

/-- The properties that take the parent's value where none is declared. -/
def isInherited : Property → Bool
  | .borderCollapse | .borderSpacing | .captionSide | .color | .cursor | .direction
  | .emptyCells | .fontFamily | .fontSize | .fontStyle | .fontVariant | .fontWeight
  | .letterSpacing | .lineHeight | .listStyleImage | .listStylePosition | .listStyleType
  | .textAlign | .textIndent | .textTransform | .visibility | .whiteSpace | .wordSpacing =>
    true
  | _ => false

/-- The place of a property among all. -/
def index (property : Property) : Nat :=
  property.ctorIdx

/-- The property at a place. -/
def ofIndex? (place : Nat) : Option Property :=
  all[place]?

/-- The property with a lowercase name. -/
def ofName? (word : String) : Option Property :=
  all.find? (fun property => property.name = word)

theorem ofIndex?_index (property : Property) : ofIndex? property.index = some property := by
  cases property <;> rfl

theorem mem_all (property : Property) : property ∈ all :=
  List.mem_of_getElem? (ofIndex?_index property)

theorem nodup_all : all.Nodup := by
  decide +kernel

theorem index_lt (property : Property) : property.index < 128 := by
  cases property <;> decide

theorem index_injective {a b : Property} (same : a.index = b.index) : a = b := by
  have both := ofIndex?_index a
  rw [same, ofIndex?_index b] at both
  exact (Option.some.inj both).symm

end Property

end StyleCascade
