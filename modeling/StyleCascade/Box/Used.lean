import StyleCascade.Keyword.Flow
import StyleCascade.Keyword.Paint

namespace StyleCascade

/-- The kind of box that a float, an absolutely placed element, or a root has. An inline table
becomes a table; what belongs into a line or a table becomes a block. -/
def Display.blockified : Display → Display
  | .inlineTable => .table
  | .inline | .runIn | .inlineBlock | .tableRowGroup | .tableHeaderGroup | .tableFooterGroup
  | .tableRow | .tableColumnGroup | .tableColumn | .tableCell | .tableCaption => .block
  | other => other

/-- A side with this line has no width. -/
def BorderStyle.isInvisible : BorderStyle → Bool
  | .none | .hidden => true
  | _ => false

namespace BorderWidth

/-- The initial width of borders and outlines, in pixels. -/
def medium : Int :=
  2

/-- The pixels of a border width given by a word. -/
def ofText? : String → Option Int
  | "thin" => some 1
  | "medium" => some medium
  | "thick" => some 4
  | _ => none

end BorderWidth

end StyleCascade
