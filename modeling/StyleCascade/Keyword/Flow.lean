import StyleCascade.Keyword

namespace StyleCascade

/-- The kind of box an element makes. -/
inductive Display
  | inline
  | block
  | listItem
  | runIn
  | inlineBlock
  | table
  | inlineTable
  | tableRowGroup
  | tableHeaderGroup
  | tableFooterGroup
  | tableRow
  | tableColumnGroup
  | tableColumn
  | tableCell
  | tableCaption
  | none
  deriving DecidableEq, Repr

instance : Keyword Display where
  all := [.inline, .block, .listItem, .runIn, .inlineBlock, .table, .inlineTable,
    .tableRowGroup, .tableHeaderGroup, .tableFooterGroup, .tableRow, .tableColumnGroup,
    .tableColumn, .tableCell, .tableCaption, .none]
  text
    | .inline => "inline"
    | .block => "block"
    | .listItem => "list-item"
    | .runIn => "run-in"
    | .inlineBlock => "inline-block"
    | .table => "table"
    | .inlineTable => "inline-table"
    | .tableRowGroup => "table-row-group"
    | .tableHeaderGroup => "table-header-group"
    | .tableFooterGroup => "table-footer-group"
    | .tableRow => "table-row"
    | .tableColumnGroup => "table-column-group"
    | .tableColumn => "table-column"
    | .tableCell => "table-cell"
    | .tableCaption => "table-caption"
    | .none => "none"

instance : Inhabited Display where
  default := .inline

/-- The side an element floats to. -/
inductive FloatSide
  | none
  | left
  | right
  deriving DecidableEq, Repr

instance : Keyword FloatSide where
  all := [.none, .left, .right]
  text
    | .none => "none"
    | .left => "left"
    | .right => "right"

instance : Inhabited FloatSide where
  default := .none

/-- The floats an element stays below. -/
inductive Clear
  | none
  | left
  | right
  | both
  deriving DecidableEq, Repr

instance : Keyword Clear where
  all := [.none, .left, .right, .both]
  text
    | .none => "none"
    | .left => "left"
    | .right => "right"
    | .both => "both"

instance : Inhabited Clear where
  default := .none

/-- The positioning scheme. -/
inductive Position
  | static
  | relative
  | absolute
  | fixed
  deriving DecidableEq, Repr

instance : Keyword Position where
  all := [.static, .relative, .absolute, .fixed]
  text
    | .static => "static"
    | .relative => "relative"
    | .absolute => "absolute"
    | .fixed => "fixed"

instance : Inhabited Position where
  default := .static

/-- Whether a box is painted. A hidden box keeps its space. -/
inductive Visibility
  | visible
  | hidden
  | collapse
  deriving DecidableEq, Repr

instance : Keyword Visibility where
  all := [.visible, .hidden, .collapse]
  text
    | .visible => "visible"
    | .hidden => "hidden"
    | .collapse => "collapse"

instance : Inhabited Visibility where
  default := .visible

/-- What happens to content beyond the box. -/
inductive Overflow
  | visible
  | hidden
  | scroll
  | auto
  deriving DecidableEq, Repr

instance : Keyword Overflow where
  all := [.visible, .hidden, .scroll, .auto]
  text
    | .visible => "visible"
    | .hidden => "hidden"
    | .scroll => "scroll"
    | .auto => "auto"

instance : Inhabited Overflow where
  default := .visible

/-- The direction of writing. -/
inductive Direction
  | ltr
  | rtl
  deriving DecidableEq, Repr

instance : Keyword Direction where
  all := [.ltr, .rtl]
  text
    | .ltr => "ltr"
    | .rtl => "rtl"

instance : Inhabited Direction where
  default := .ltr

end StyleCascade
