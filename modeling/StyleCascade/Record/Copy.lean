import StyleCascade.Record

namespace StyleCascade

/-- Takes the value of a property from `source`. The font properties come together. -/
def Record.copy (record source : Record) : Property → Record
  | .backgroundAttachment => { record with backgroundAttachment := source.backgroundAttachment }
  | .backgroundColor => { record with backgroundColor := source.backgroundColor }
  | .backgroundImage => { record with backgroundImage := source.backgroundImage }
  | .backgroundPositionX => { record with backgroundPositionX := source.backgroundPositionX }
  | .backgroundPositionY => { record with backgroundPositionY := source.backgroundPositionY }
  | .backgroundRepeat => { record with backgroundRepeat := source.backgroundRepeat }
  | .borderCollapse => { record with borderCollapse := source.borderCollapse }
  | .borderSpacing => { record with borderSpacing := source.borderSpacing }
  | .borderTopColor =>
    { record with borderColor := record.borderColor.set .top source.borderColor.top }
  | .borderRightColor =>
    { record with borderColor := record.borderColor.set .right source.borderColor.right }
  | .borderBottomColor =>
    { record with borderColor := record.borderColor.set .bottom source.borderColor.bottom }
  | .borderLeftColor =>
    { record with borderColor := record.borderColor.set .left source.borderColor.left }
  | .borderTopStyle =>
    { record with borderStyle := record.borderStyle.set .top source.borderStyle.top }
  | .borderRightStyle =>
    { record with borderStyle := record.borderStyle.set .right source.borderStyle.right }
  | .borderBottomStyle =>
    { record with borderStyle := record.borderStyle.set .bottom source.borderStyle.bottom }
  | .borderLeftStyle =>
    { record with borderStyle := record.borderStyle.set .left source.borderStyle.left }
  | .borderTopWidth =>
    { record with borderWidth := record.borderWidth.set .top source.borderWidth.top }
  | .borderRightWidth =>
    { record with borderWidth := record.borderWidth.set .right source.borderWidth.right }
  | .borderBottomWidth =>
    { record with borderWidth := record.borderWidth.set .bottom source.borderWidth.bottom }
  | .borderLeftWidth =>
    { record with borderWidth := record.borderWidth.set .left source.borderWidth.left }
  | .bottom => { record with offsets := record.offsets.set .bottom source.offsets.bottom }
  | .captionSide => { record with captionSide := source.captionSide }
  | .clear => { record with clear := source.clear }
  | .color => { record with color := source.color }
  | .content => { record with content := source.content }
  | .cursor => { record with cursor := source.cursor }
  | .direction => { record with direction := source.direction }
  | .display => { record with display := source.display }
  | .emptyCells => { record with emptyCells := source.emptyCells }
  | .float => { record with float := source.float }
  | .fontFamily | .fontSize | .fontStyle | .fontWeight =>
    { record with font := source.font }
  | .fontVariant => { record with fontVariant := source.fontVariant }
  | .height => { record with height := source.height }
  | .left => { record with offsets := record.offsets.set .left source.offsets.left }
  | .letterSpacing => { record with letterSpacing := source.letterSpacing }
  | .lineHeight => { record with lineHeight := source.lineHeight }
  | .listStyleImage => { record with listStyleImage := source.listStyleImage }
  | .listStylePosition => { record with listStylePosition := source.listStylePosition }
  | .listStyleType => { record with listStyleType := source.listStyleType }
  | .marginTop => { record with margin := record.margin.set .top source.margin.top }
  | .marginRight => { record with margin := record.margin.set .right source.margin.right }
  | .marginBottom => { record with margin := record.margin.set .bottom source.margin.bottom }
  | .marginLeft => { record with margin := record.margin.set .left source.margin.left }
  | .maxHeight => { record with maxHeight := source.maxHeight }
  | .maxWidth => { record with maxWidth := source.maxWidth }
  | .minHeight => { record with minHeight := source.minHeight }
  | .minWidth => { record with minWidth := source.minWidth }
  | .outlineColor => { record with outlineColor := source.outlineColor }
  | .outlineStyle => { record with outlineStyle := source.outlineStyle }
  | .outlineWidth => { record with outlineWidth := source.outlineWidth }
  | .overflow => { record with overflow := source.overflow }
  | .paddingTop => { record with padding := record.padding.set .top source.padding.top }
  | .paddingRight => { record with padding := record.padding.set .right source.padding.right }
  | .paddingBottom => { record with padding := record.padding.set .bottom source.padding.bottom }
  | .paddingLeft => { record with padding := record.padding.set .left source.padding.left }
  | .position => { record with position := source.position }
  | .right => { record with offsets := record.offsets.set .right source.offsets.right }
  | .tableLayout => { record with tableLayout := source.tableLayout }
  | .textAlign => { record with textAlign := source.textAlign }
  | .textDecoration => { record with textDecoration := source.textDecoration }
  | .textIndent => { record with textIndent := source.textIndent }
  | .textTransform => { record with textTransform := source.textTransform }
  | .top => { record with offsets := record.offsets.set .top source.offsets.top }
  | .verticalAlign => { record with verticalAlign := source.verticalAlign }
  | .visibility => { record with visibility := source.visibility }
  | .whiteSpace => { record with whiteSpace := source.whiteSpace }
  | .width => { record with width := source.width }
  | .wordSpacing => { record with wordSpacing := source.wordSpacing }
  | .zIndex => { record with zIndex := source.zIndex }

/-- Takes the values of several properties from `source`. -/
def Record.copyAll (record source : Record) (properties : List Property) : Record :=
  properties.foldl (fun result property => result.copy source property) record

end StyleCascade
