import StyleCascade.Record.Copy
import StyleCascade.Record.Used
import StyleCascade.Record.Write
import StyleCascade.Resolve.Basis
import StyleCascade.Resolve.Specified

namespace StyleCascade

/-- A record that is being made. -/
structure Draft where
  record : Record
  /-- The font that is asked for so far. -/
  font : FontKey
  /-- Lengths that wait for the font. -/
  waiting : List (Property × FontLength)
  /-- The sides of the border that have a colour of their own. -/
  ownBorderColor : Edges Bool
  /-- The outline has a colour of its own. -/
  ownOutlineColor : Bool
  /-- A vertical alignment that waits for the line height. -/
  alignPercent : Option Float

namespace Draft

/-- A draft with nothing declared. -/
def ofRecord (record : Record) (font : FontKey) : Draft :=
  { record := record
    font := font
    waiting := []
    ownBorderColor := .same false
    ownOutlineColor := false
    alignPercent := none }

/-- The draft of a child, with the parent's values of inherited properties. -/
def ofParent (parent : Record) : Draft :=
  ofRecord ((Record.initial parent.color parent.font).copyAll parent
    (Property.all.filter Property.isInherited)) parent.font.value.key

/-- Marks a border or outline colour as declared. -/
def markColor (draft : Draft) (property : Property) : Draft :=
  match property with
  | .borderTopColor => { draft with ownBorderColor := draft.ownBorderColor.set .top true }
  | .borderRightColor => { draft with ownBorderColor := draft.ownBorderColor.set .right true }
  | .borderBottomColor => { draft with ownBorderColor := draft.ownBorderColor.set .bottom true }
  | .borderLeftColor => { draft with ownBorderColor := draft.ownBorderColor.set .left true }
  | .outlineColor => { draft with ownOutlineColor := true }
  | _ => draft

/-- Takes the parent's value of a property. A root keeps the initial value. -/
def inherit (draft : Draft) (basis : Basis) (property : Property) : Draft :=
  match property with
  | .fontFamily => { draft with font := { draft.font with family := basis.inheritedFont.family } }
  | .fontSize => { draft with font := { draft.font with size := basis.inheritedFont.size } }
  | .fontWeight => { draft with font := { draft.font with bold := basis.inheritedFont.bold } }
  | .fontStyle => { draft with font := { draft.font with italic := basis.inheritedFont.italic } }
  | _ =>
    match basis.parent with
    | none => draft
    | some parent =>
      { draft with record := draft.record.copy parent property }.markColor property

/-- Writes the lengths that waited for the font. -/
def withWaiting (draft : Draft) (metrics : Metrics) (record : Record) : Record :=
  draft.waiting.foldl (fun result (property, length) =>
    result.withPixels property (length.pixels metrics)) record

/-- Gives borders and outline the colour of the text, unless they have their own. -/
def withTextColor (draft : Draft) (record : Record) : Record :=
  { record with
    borderColor := record.borderColor.mapSides (fun side color =>
      if draft.ownBorderColor.get side then color else record.color)
    outlineColor := if draft.ownOutlineColor then record.outlineColor else record.color }

/-- Writes a vertical alignment in percent of the line height. -/
def withAlign (draft : Draft) (em : Int) (record : Record) : Record :=
  match draft.alignPercent with
  | none => record
  | some percent =>
    let line := record.lineHeight.pixels em
    { record with verticalAlign := .px (Number.round (percent * Float.ofInt line / 100)) }

/-- The record of a draft in its font. -/
def finished (draft : Draft) (isRoot : Bool) (font : Handle Font) : Record :=
  let metrics := font.value.metrics
  let measured := { draft.withWaiting metrics draft.record with font := font }
  let colored := draft.withTextColor measured
  let aligned := draft.withAlign metrics.em colored
  ((aligned.fixDisplay isRoot).fixOffsets).fixWidths

end Draft

end StyleCascade
