import StyleCascade.Keyword

namespace StyleCascade

/-- The marker of a list item. -/
inductive ListStyleType
  | disc
  | circle
  | square
  | decimal
  | decimalLeadingZero
  | lowerRoman
  | upperRoman
  | lowerGreek
  | lowerLatin
  | upperLatin
  | lowerAlpha
  | upperAlpha
  | armenian
  | georgian
  | none
  deriving DecidableEq, Repr

instance : Keyword ListStyleType where
  all := [.disc, .circle, .square, .decimal, .decimalLeadingZero, .lowerRoman, .upperRoman,
    .lowerGreek, .lowerLatin, .upperLatin, .lowerAlpha, .upperAlpha, .armenian,
    .georgian, .none]
  text
    | .disc => "disc"
    | .circle => "circle"
    | .square => "square"
    | .decimal => "decimal"
    | .decimalLeadingZero => "decimal-leading-zero"
    | .lowerRoman => "lower-roman"
    | .upperRoman => "upper-roman"
    | .lowerGreek => "lower-greek"
    | .lowerLatin => "lower-latin"
    | .upperLatin => "upper-latin"
    | .lowerAlpha => "lower-alpha"
    | .upperAlpha => "upper-alpha"
    | .armenian => "armenian"
    | .georgian => "georgian"
    | .none => "none"

instance : Inhabited ListStyleType where
  default := .disc

/-- Whether the marker stands outside the item. -/
inductive ListStylePosition
  | outside
  | inside
  deriving DecidableEq, Repr

instance : Keyword ListStylePosition where
  all := [.outside, .inside]
  text
    | .outside => "outside"
    | .inside => "inside"

instance : Inhabited ListStylePosition where
  default := .outside

/-- Whether adjacent cells share borders. -/
inductive BorderCollapse
  | separate
  | collapse
  deriving DecidableEq, Repr

instance : Keyword BorderCollapse where
  all := [.separate, .collapse]
  text
    | .separate => "separate"
    | .collapse => "collapse"

instance : Inhabited BorderCollapse where
  default := .separate

/-- The side of a table caption. -/
inductive CaptionSide
  | top
  | bottom
  deriving DecidableEq, Repr

instance : Keyword CaptionSide where
  all := [.top, .bottom]
  text
    | .top => "top"
    | .bottom => "bottom"

instance : Inhabited CaptionSide where
  default := .top

/-- Whether empty cells are painted. -/
inductive EmptyCells
  | show
  | hide
  deriving DecidableEq, Repr

instance : Keyword EmptyCells where
  all := [.show, .hide]
  text
    | .show => "show"
    | .hide => "hide"

instance : Inhabited EmptyCells where
  default := .show

/-- How column widths are found. -/
inductive TableLayout
  | auto
  | fixed
  deriving DecidableEq, Repr

instance : Keyword TableLayout where
  all := [.auto, .fixed]
  text
    | .auto => "auto"
    | .fixed => "fixed"

instance : Inhabited TableLayout where
  default := .auto

end StyleCascade
