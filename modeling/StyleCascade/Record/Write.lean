import StyleCascade.Record

namespace StyleCascade

namespace Record

/-- Writes the value of a word, if the word spells one. -/
def write {α : Type} [Keyword α] (word : String) (put : Record → α → Record) :
    Option (Record → Record) :=
  (Keyword.ofText? word).map (fun value record => put record value)

/-- Writes the style of an outline, which cannot be hidden. -/
def writeOutline (word : String) (put : Record → BorderStyle → Record) :
    Option (Record → Record) :=
  ((Keyword.ofText? word).filter (· ≠ BorderStyle.hidden)).map (fun value record =>
    put record value)

/-- Writes the value of a property that takes words, if the word spells one. -/
def withWord? (word : String) : Property → Option (Record → Record)
  | .backgroundAttachment => write word (fun r v => { r with backgroundAttachment := v })
  | .backgroundRepeat => write word (fun r v => { r with backgroundRepeat := v })
  | .borderCollapse => write word (fun r v => { r with borderCollapse := v })
  | .borderTopStyle => write word (fun r v => { r with borderStyle := r.borderStyle.set .top v })
  | .borderRightStyle =>
    write word (fun r v => { r with borderStyle := r.borderStyle.set .right v })
  | .borderBottomStyle =>
    write word (fun r v => { r with borderStyle := r.borderStyle.set .bottom v })
  | .borderLeftStyle => write word (fun r v => { r with borderStyle := r.borderStyle.set .left v })
  | .captionSide => write word (fun r v => { r with captionSide := v })
  | .clear => write word (fun r v => { r with clear := v })
  | .cursor => write word (fun r v => { r with cursor := v })
  | .direction => write word (fun r v => { r with direction := v })
  | .display => write word (fun r v => { r with display := v })
  | .emptyCells => write word (fun r v => { r with emptyCells := v })
  | .float => write word (fun r v => { r with float := v })
  | .fontVariant => write word (fun r v => { r with fontVariant := v })
  | .listStylePosition => write word (fun r v => { r with listStylePosition := v })
  | .listStyleType => write word (fun r v => { r with listStyleType := v })
  | .outlineStyle => writeOutline word (fun r v => { r with outlineStyle := v })
  | .overflow => write word (fun r v => { r with overflow := v })
  | .position => write word (fun r v => { r with position := v })
  | .tableLayout => write word (fun r v => { r with tableLayout := v })
  | .textAlign => write word (fun r v => { r with textAlign := v })
  | .textDecoration => write word (fun r v => { r with textDecoration := v })
  | .textTransform => write word (fun r v => { r with textTransform := v })
  | .visibility => write word (fun r v => { r with visibility := v })
  | .whiteSpace => write word (fun r v => { r with whiteSpace := v })
  | _ => none

/-- Writes the value of a property that takes lengths. -/
def withLength (record : Record) (property : Property) (length : Length) : Record :=
  match property with
  | .backgroundPositionX => { record with backgroundPositionX := length }
  | .backgroundPositionY => { record with backgroundPositionY := length }
  | .borderSpacing => { record with borderSpacing := length }
  | .bottom => { record with offsets := record.offsets.set .bottom length }
  | .height => { record with height := length }
  | .left => { record with offsets := record.offsets.set .left length }
  | .letterSpacing => { record with letterSpacing := length }
  | .marginTop => { record with margin := record.margin.set .top length }
  | .marginRight => { record with margin := record.margin.set .right length }
  | .marginBottom => { record with margin := record.margin.set .bottom length }
  | .marginLeft => { record with margin := record.margin.set .left length }
  | .maxHeight => { record with maxHeight := length }
  | .maxWidth => { record with maxWidth := length }
  | .minHeight => { record with minHeight := length }
  | .minWidth => { record with minWidth := length }
  | .paddingTop => { record with padding := record.padding.set .top length }
  | .paddingRight => { record with padding := record.padding.set .right length }
  | .paddingBottom => { record with padding := record.padding.set .bottom length }
  | .paddingLeft => { record with padding := record.padding.set .left length }
  | .right => { record with offsets := record.offsets.set .right length }
  | .textIndent => { record with textIndent := length }
  | .top => { record with offsets := record.offsets.set .top length }
  | .width => { record with width := length }
  | .wordSpacing => { record with wordSpacing := length }
  | _ => record

/-- Writes a number of pixels as the value of a property. -/
def withPixels (record : Record) (property : Property) (pixels : Int) : Record :=
  match property with
  | .borderTopWidth => { record with borderWidth := record.borderWidth.set .top pixels }
  | .borderRightWidth => { record with borderWidth := record.borderWidth.set .right pixels }
  | .borderBottomWidth => { record with borderWidth := record.borderWidth.set .bottom pixels }
  | .borderLeftWidth => { record with borderWidth := record.borderWidth.set .left pixels }
  | .outlineWidth => { record with outlineWidth := pixels }
  | .lineHeight => { record with lineHeight := .px pixels }
  | .verticalAlign => { record with verticalAlign := .px pixels }
  | other => record.withLength other (.px pixels)

/-- Writes the colour of a property. -/
def withColor (record : Record) (property : Property) (color : Handle Color) : Record :=
  match property with
  | .color => { record with color := color }
  | .backgroundColor => { record with backgroundColor := some color }
  | .outlineColor => { record with outlineColor := color }
  | .borderTopColor => { record with borderColor := record.borderColor.set .top color }
  | .borderRightColor => { record with borderColor := record.borderColor.set .right color }
  | .borderBottomColor => { record with borderColor := record.borderColor.set .bottom color }
  | .borderLeftColor => { record with borderColor := record.borderColor.set .left color }
  | _ => record

/-- Writes the image of a property. -/
def withImage (record : Record) (property : Property) (image : Option (Handle Image)) : Record :=
  match property with
  | .backgroundImage => { record with backgroundImage := image }
  | .listStyleImage => { record with listStyleImage := image }
  | _ => record

end Record

end StyleCascade
