import StyleCascade.Keyword.Flow
import StyleCascade.Keyword.Paint
import StyleCascade.Keyword.Structure
import StyleCascade.Keyword.Typography

namespace StyleCascade

namespace Keyword

/-- The spelling of the value that a word spells. -/
def respelled (α : Type) [Keyword α] (word : String) : Option String :=
  (ofText? (α := α) word).map text

/-- The spelling of the value that a word spells in a family. -/
def ofFamily? (family word : String) : Option String :=
  match family with
  | "background-attachment" => respelled BackgroundAttachment word
  | "background-repeat" => respelled BackgroundRepeat word
  | "border-collapse" => respelled BorderCollapse word
  | "border-style" => respelled BorderStyle word
  | "caption-side" => respelled CaptionSide word
  | "clear" => respelled Clear word
  | "cursor" => respelled Cursor word
  | "direction" => respelled Direction word
  | "display" => respelled Display word
  | "empty-cells" => respelled EmptyCells word
  | "float" => respelled FloatSide word
  | "font-variant" => respelled FontVariant word
  | "list-style-position" => respelled ListStylePosition word
  | "list-style-type" => respelled ListStyleType word
  | "overflow" => respelled Overflow word
  | "position" => respelled Position word
  | "table-layout" => respelled TableLayout word
  | "text-align" => respelled TextAlign word
  | "text-decoration" => respelled TextDecoration word
  | "text-transform" => respelled TextTransform word
  | "vertical-align" => respelled VerticalAlignWord word
  | "visibility" => respelled Visibility word
  | "white-space" => respelled WhiteSpace word
  | _ => none

end Keyword

end StyleCascade
