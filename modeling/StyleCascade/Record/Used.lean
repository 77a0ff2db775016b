import StyleCascade.Record

namespace StyleCascade

namespace Record

/-- Placed out of the flow by its position. -/
def isOutOfFlow (record : Record) : Bool :=
  record.position = .absolute || record.position = .fixed

/-- Brings the kind of the box and its float in line with its position. -/
def fixDisplay (isRoot : Bool) (record : Record) : Record :=
  if record.display = .none then record
  else if record.isOutOfFlow then
    { record with float := .none, display := record.display.blockified }
  else if record.float ≠ .none || isRoot then { record with display := record.display.blockified }
  else record

/-- An automatic offset is the other one negated; two automatic ones are zero. -/
def opposed : Length → Length → Length × Length
  | .auto, .auto => (.zero, .zero)
  | .auto, other => (other.negated, other)
  | other, .auto => (other, other.negated)
  | one, other => (one, other)

/-- Settles the automatic offsets of a relative box. -/
def fixOffsets (record : Record) : Record :=
  if record.position = .relative then
    let (left, right) := opposed record.offsets.left record.offsets.right
    let (top, bottom) := opposed record.offsets.top record.offsets.bottom
    { record with offsets := ⟨top, right, bottom, left⟩ }
  else record

/-- Takes the width from sides without a line. -/
def fixWidths (record : Record) : Record :=
  { record with
    borderWidth := record.borderWidth.mapSides (fun side width =>
      if (record.borderStyle.get side).isInvisible then 0 else width)
    outlineWidth := if record.outlineStyle = .none then 0 else record.outlineWidth }

end Record

end StyleCascade
