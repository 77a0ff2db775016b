import StyleCascade.Keyword

namespace StyleCascade

/-- The directions in which a background image repeats. -/
inductive BackgroundRepeat
  | repeat
  | repeatX
  | repeatY
  | noRepeat
  deriving DecidableEq, Repr

instance : Keyword BackgroundRepeat where
  all := [.repeat, .repeatX, .repeatY, .noRepeat]
  text
    | .repeat => "repeat"
    | .repeatX => "repeat-x"
    | .repeatY => "repeat-y"
    | .noRepeat => "no-repeat"

instance : Inhabited BackgroundRepeat where
  default := .repeat

/-- Whether a background image scrolls. -/
inductive BackgroundAttachment
  | scroll
  | fixed
  deriving DecidableEq, Repr

instance : Keyword BackgroundAttachment where
  all := [.scroll, .fixed]
  text
    | .scroll => "scroll"
    | .fixed => "fixed"

instance : Inhabited BackgroundAttachment where
  default := .scroll

/-- The line of a border side. -/
inductive BorderStyle
  | none
  | hidden
  | dotted
  | dashed
  | solid
  | double
  | groove
  | ridge
  | inset
  | outset
  deriving DecidableEq, Repr

instance : Keyword BorderStyle where
  all := [.none, .hidden, .dotted, .dashed, .solid, .double, .groove, .ridge, .inset,
    .outset]
  text
    | .none => "none"
    | .hidden => "hidden"
    | .dotted => "dotted"
    | .dashed => "dashed"
    | .solid => "solid"
    | .double => "double"
    | .groove => "groove"
    | .ridge => "ridge"
    | .inset => "inset"
    | .outset => "outset"

instance : Inhabited BorderStyle where
  default := .none

/-- The pointer shown over an element. -/
inductive Cursor
  | auto
  | default
  | pointer
  | crosshair
  | move
  | text
  | wait
  | help
  | progress
  | eResize
  | neResize
  | nwResize
  | nResize
  | seResize
  | swResize
  | sResize
  | wResize
  deriving DecidableEq, Repr

instance : Keyword Cursor where
  all := [.auto, .default, .pointer, .crosshair, .move, .text, .wait, .help, .progress,
    .eResize, .neResize, .nwResize, .nResize, .seResize, .swResize, .sResize, .wResize]
  text
    | .auto => "auto"
    | .default => "default"
    | .pointer => "pointer"
    | .crosshair => "crosshair"
    | .move => "move"
    | .text => "text"
    | .wait => "wait"
    | .help => "help"
    | .progress => "progress"
    | .eResize => "e-resize"
    | .neResize => "ne-resize"
    | .nwResize => "nw-resize"
    | .nResize => "n-resize"
    | .seResize => "se-resize"
    | .swResize => "sw-resize"
    | .sResize => "s-resize"
    | .wResize => "w-resize"

instance : Inhabited Cursor where
  default := .auto

end StyleCascade
