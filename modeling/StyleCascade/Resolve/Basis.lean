import StyleCascade.Record

namespace StyleCascade

/-- A font size given by a word. -/
inductive FontSizeWord
  | xxSmall
  | xSmall
  | small
  | medium
  | large
  | xLarge
  | xxLarge
  deriving DecidableEq, Repr

instance : Keyword FontSizeWord where
  all := [.xxSmall, .xSmall, .small, .medium, .large, .xLarge, .xxLarge]
  text
    | .xxSmall => "xx-small"
    | .xSmall => "x-small"
    | .small => "small"
    | .medium => "medium"
    | .large => "large"
    | .xLarge => "x-large"
    | .xxLarge => "xx-large"

/-- The configuration of styling. -/
structure Config where
  /-- The resolution of the device, in dots per inch. -/
  dpi : Float
  /-- The points of the font sizes given by a word. -/
  fontTable : FontSizeWord → Float
  /-- The font family of roots. -/
  family : String
  /-- The colour of roots, as it is written. -/
  color : String
  /-- The media in force. -/
  media : List String

namespace Config

/-- The usual points of the font sizes. -/
def usualFontTable : FontSizeWord → Float
  | .xxSmall => 8
  | .xSmall => 9
  | .small => 10
  | .medium => 11
  | .large => 13
  | .xLarge => 15
  | .xxLarge => 17

/-- The configuration for a screen. -/
def screen : Config :=
  { dpi := 96
    fontTable := usualFontTable
    family := "serif"
    color := "black"
    media := ["all", "screen"] }

/-- The font of roots. -/
def rootFont (config : Config) : FontKey :=
  { family := config.family
    size := FontKey.sizeOfPoints (config.fontTable .medium)
    bold := false
    italic := false }

end Config

/-- Answers to all that styling asks of the surrounding program. -/
structure Answers where
  /-- The sizes of a font that is asked for at a size in pixels. -/
  metrics : FontKey → Int → Metrics
  /-- The image at an address. -/
  image? : String → Option Image
  /-- The text of a value that a script comes to, if scripts are known at all. -/
  script : Option (String → Option String)

namespace Answers

/-- Metrics for want of fonts: one em is the size, and one ex is half of it. -/
def approximateMetrics (_key : FontKey) (pixels : Int) : Metrics :=
  ⟨pixels, Number.round (Float.ofInt pixels * 0.5)⟩

/-- No fonts, images that are never looked at, and no scripts. -/
def plain : Answers :=
  { metrics := approximateMetrics
    image? := fun url => some ⟨url, none⟩
    script := none }

end Answers

/-- What the surrounding program does for styling. Each answer may leave it in another state. -/
structure Hosts (σ : Type) where
  /-- Measures a font at a size in pixels. -/
  metrics : FontKey → Int → StateM σ Metrics
  /-- Loads the image at an address. -/
  loadImage : String → StateM σ (Option Image)
  /-- Evaluates a script to the text of a value, if scripts are known at all. -/
  script : Option (String → StateM σ (Option String))

namespace Hosts

variable {σ : Type}

/-- Hosts that answer the same in every state, and stay in it. -/
def ofAnswers (answers : Answers) : Hosts σ :=
  { metrics := fun key pixels => pure (answers.metrics key pixels)
    loadImage := fun url => pure (answers.image? url)
    script := answers.script.map (fun evaluate source => pure (evaluate source)) }

/-- The hosts of a program that only styles. -/
def plain : Hosts σ :=
  ofAnswers .plain

end Hosts

/-- What the values of an element are resolved against. -/
structure Basis where
  config : Config
  parent : Option Record

namespace Basis

/-- The font of the parent, or the font of roots. -/
def inheritedFont (basis : Basis) : FontKey :=
  match basis.parent with
  | some parent => parent.font.value.key
  | none => basis.config.rootFont

/-- The pixels of one ex of the parent's font. -/
def inheritedEx? (basis : Basis) : Option Int :=
  basis.parent.map (fun parent => parent.font.value.metrics.ex)

end Basis

end StyleCascade
