import StyleCascade.Record

namespace StyleCascade

namespace Record

/-- The text of a width in pixels. -/
def pixelText (pixels : Int) : String :=
  Number.integerText pixels ++ "px"

/-- The widths of lines that have a word of their own. -/
theorem pixelText_of_word : pixelText 1 = "1px" ∧ pixelText 2 = "2px" ∧ pixelText 4 = "4px" := by
  decide +kernel

/-- The text of content, in quotes. -/
def quotedContent (content : String) : String :=
  "\"" ++ content ++ "\""

/-- The text of a property's computed value. A transparent background, a missing image, an automatic
`z-index` and missing content have no text. -/
def text? (record : Record) : Property → Option String
  | .backgroundAttachment => some (Keyword.text record.backgroundAttachment)
  | .backgroundColor => record.backgroundColor.map (fun handle => handle.value.name)
  | .backgroundImage => record.backgroundImage.map (fun handle => handle.value.text)
  | .backgroundPositionX => some record.backgroundPositionX.text
  | .backgroundPositionY => some record.backgroundPositionY.text
  | .backgroundRepeat => some (Keyword.text record.backgroundRepeat)
  | .borderCollapse => some (Keyword.text record.borderCollapse)
  | .borderSpacing => some record.borderSpacing.text
  | .borderTopColor => some record.borderColor.top.value.name
  | .borderRightColor => some record.borderColor.right.value.name
  | .borderBottomColor => some record.borderColor.bottom.value.name
  | .borderLeftColor => some record.borderColor.left.value.name
  | .borderTopStyle => some (Keyword.text record.borderStyle.top)
  | .borderRightStyle => some (Keyword.text record.borderStyle.right)
  | .borderBottomStyle => some (Keyword.text record.borderStyle.bottom)
  | .borderLeftStyle => some (Keyword.text record.borderStyle.left)
  | .borderTopWidth => some (pixelText record.borderWidth.top)
  | .borderRightWidth => some (pixelText record.borderWidth.right)
  | .borderBottomWidth => some (pixelText record.borderWidth.bottom)
  | .borderLeftWidth => some (pixelText record.borderWidth.left)
  | .bottom => some record.offsets.bottom.text
  | .captionSide => some (Keyword.text record.captionSide)
  | .clear => some (Keyword.text record.clear)
  | .color => some record.color.value.name
  | .content => record.content.map quotedContent
  | .cursor => some (Keyword.text record.cursor)
  | .direction => some (Keyword.text record.direction)
  | .display => some (Keyword.text record.display)
  | .emptyCells => some (Keyword.text record.emptyCells)
  | .float => some (Keyword.text record.float)
  | .fontFamily => some record.font.value.key.family
  | .fontSize => some record.font.value.key.sizeText
  | .fontStyle => some (if record.font.value.key.italic then "italic" else "normal")
  | .fontVariant => some (Keyword.text record.fontVariant)
  | .fontWeight => some (if record.font.value.key.bold then "bold" else "normal")
  | .height => some record.height.text
  | .left => some record.offsets.left.text
  | .letterSpacing => some record.letterSpacing.text
  | .lineHeight => some record.lineHeight.text
  | .listStyleImage => record.listStyleImage.map (fun handle => handle.value.text)
  | .listStylePosition => some (Keyword.text record.listStylePosition)
  | .listStyleType => some (Keyword.text record.listStyleType)
  | .marginTop => some record.margin.top.text
  | .marginRight => some record.margin.right.text
  | .marginBottom => some record.margin.bottom.text
  | .marginLeft => some record.margin.left.text
  | .maxHeight => some record.maxHeight.text
  | .maxWidth => some record.maxWidth.text
  | .minHeight => some record.minHeight.text
  | .minWidth => some record.minWidth.text
  | .outlineColor => some record.outlineColor.value.name
  | .outlineStyle => some (Keyword.text record.outlineStyle)
  | .outlineWidth => some (pixelText record.outlineWidth)
  | .overflow => some (Keyword.text record.overflow)
  | .paddingTop => some record.padding.top.text
  | .paddingRight => some record.padding.right.text
  | .paddingBottom => some record.padding.bottom.text
  | .paddingLeft => some record.padding.left.text
  | .position => some (Keyword.text record.position)
  | .right => some record.offsets.right.text
  | .tableLayout => some (Keyword.text record.tableLayout)
  | .textAlign => some (Keyword.text record.textAlign)
  | .textDecoration => some (Keyword.text record.textDecoration)
  | .textIndent => some record.textIndent.text
  | .textTransform => some (Keyword.text record.textTransform)
  | .top => some record.offsets.top.text
  | .verticalAlign => some record.verticalAlign.text
  | .visibility => some (Keyword.text record.visibility)
  | .whiteSpace => some (Keyword.text record.whiteSpace)
  | .width => some record.width.text
  | .wordSpacing => some record.wordSpacing.text
  | .zIndex => record.zIndex.map Number.integerText

/-- The properties that have a text, with it. -/
def properties (record : Record) : List (Property × String) :=
  Property.all.filterMap (fun property =>
    (record.text? property).map (fun text => (property, text)))

/-- The text of a record. -/
def text (record : Record) : String :=
  "; ".intercalate (record.properties.map (fun (property, text) => property.name ++ ": " ++ text))

/-- The properties whose texts differ from those of another record. -/
def differences (record other : Record) : List Property :=
  Property.all.filter (fun property => record.text? property ≠ other.text? property)

end Record

end StyleCascade
