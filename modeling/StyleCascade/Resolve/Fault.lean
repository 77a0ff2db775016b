import StyleCascade.Color

namespace StyleCascade

/-- Why a declared value is rejected. -/
inductive ValueFault
  /-- A word that the property does not know, or no word where one is needed. -/
  | keyword (text : String)
  | length (text : String)
  /-- A length in a form that the property does not take. -/
  | disallowed (text : String)
  | color (text : String) (cause : ColorFault)
  /-- A value of a form that is never a colour. -/
  | noColor (text : String)
  | image (text : String)
  | script (source : String)
  | invalid (text : String)
  deriving DecidableEq, Repr

/-- The wording of a fault. -/
def ValueFault.message : ValueFault → String
  | .keyword text => "`" ++ text ++ "` is not a valid keyword here"
  | .length text => "`" ++ text ++ "` is not a valid length"
  | .disallowed text => "`" ++ text ++ "` is not allowed here"
  | .color text cause => "`" ++ text ++ "` is not a color: " ++ cause.message
  | .noColor text => "`" ++ text ++ "` is not a color: not a color value"
  | .image text => "image `" ++ text ++ "` could not be loaded"
  | .script source => "script `" ++ source ++ "` did not produce a value"
  | .invalid text => "`" ++ text ++ "` is not a valid value"

end StyleCascade
