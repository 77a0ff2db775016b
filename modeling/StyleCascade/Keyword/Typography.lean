import StyleCascade.Keyword

namespace StyleCascade

/-- Small capitals or not. -/
inductive FontVariant
  | normal
  | smallCaps
  deriving DecidableEq, Repr

instance : Keyword FontVariant where
  all := [.normal, .smallCaps]
  text
    | .normal => "normal"
    | .smallCaps => "small-caps"

instance : Inhabited FontVariant where
  default := .normal

/-- The alignment of lines. -/
inductive TextAlign
  | left
  | right
  | center
  | justify
  deriving DecidableEq, Repr

instance : Keyword TextAlign where
  all := [.left, .right, .center, .justify]
  text
    | .left => "left"
    | .right => "right"
    | .center => "center"
    | .justify => "justify"

instance : Inhabited TextAlign where
  default := .left

/-- Lines drawn along the text. -/
inductive TextDecoration
  | none
  | underline
  | overline
  | lineThrough
  deriving DecidableEq, Repr

instance : Keyword TextDecoration where
  all := [.none, .underline, .overline, .lineThrough]
  text
    | .none => "none"
    | .underline => "underline"
    | .overline => "overline"
    | .lineThrough => "line-through"

instance : Inhabited TextDecoration where
  default := .none

/-- Changes of letter case. -/
inductive TextTransform
  | none
  | capitalize
  | uppercase
  | lowercase
  deriving DecidableEq, Repr

instance : Keyword TextTransform where
  all := [.none, .capitalize, .uppercase, .lowercase]
  text
    | .none => "none"
    | .capitalize => "capitalize"
    | .uppercase => "uppercase"
    | .lowercase => "lowercase"

instance : Inhabited TextTransform where
  default := .none

/-- How white space and line breaks are kept. -/
inductive WhiteSpace
  | normal
  | pre
  | nowrap
  | preWrap
  | preLine
  deriving DecidableEq, Repr

instance : Keyword WhiteSpace where
  all := [.normal, .pre, .nowrap, .preWrap, .preLine]
  text
    | .normal => "normal"
    | .pre => "pre"
    | .nowrap => "nowrap"
    | .preWrap => "pre-wrap"
    | .preLine => "pre-line"

instance : Inhabited WhiteSpace where
  default := .normal

/-- The positions of inline content on its line. -/
inductive VerticalAlignWord
  | baseline
  | sub
  | super
  | top
  | textTop
  | middle
  | bottom
  | textBottom
  deriving DecidableEq, Repr

instance : Keyword VerticalAlignWord where
  all := [.baseline, .sub, .super, .top, .textTop, .middle, .bottom, .textBottom]
  text
    | .baseline => "baseline"
    | .sub => "sub"
    | .super => "super"
    | .top => "top"
    | .textTop => "text-top"
    | .middle => "middle"
    | .bottom => "bottom"
    | .textBottom => "text-bottom"

instance : Inhabited VerticalAlignWord where
  default := .baseline

end StyleCascade
