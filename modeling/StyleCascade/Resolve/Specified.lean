import StyleCascade.Declared.Value
import StyleCascade.Font
import StyleCascade.Quantity.Length
import StyleCascade.Resolve.Fault

namespace StyleCascade

/-- A length in sizes of the element's font. -/
inductive FontLength
  | em (count : Float)
  | ex (count : Float)

/-- The pixels of a length in a font with some metrics. -/
def FontLength.pixels (metrics : Metrics) : FontLength → Int
  | .em count => Number.round (count * Float.ofInt metrics.em)
  | .ex count => Number.round (count * Float.ofInt metrics.ex)

/-- A declared length. -/
inductive Specified
  | now (length : Length)
  | later (length : FontLength)

namespace Specified

/-- The word for a length, with the permission that it needs. -/
def word? (forms : LengthForms) : String → Option (Bool × Length)
  | "auto" => some (forms.auto, .auto)
  | "none" => some (forms.none, .none)
  | "normal" => some (forms.normal, .normal)
  | _ => none

/-- The pixels of a dimension, or its count of font sizes. -/
def ofDimension (dpi count : Float) (unit : LengthUnit) : Specified :=
  match unit.pixels? count dpi, unit with
  | some pixels, _ => .now (.px (Number.round pixels))
  | none, .ex => .later (.ex count)
  | none, _ => .later (.em count)

/-- Below zero where the property takes nothing below zero. -/
def tooSmall (forms : LengthForms) (count : Float) : Bool :=
  count < 0 && !forms.negative

/-- Reads a length in the forms that a property takes. A number without a unit is in pixels. -/
def ofValue (forms : LengthForms) (dpi : Float) (value : Value) : Except ValueFault Specified :=
  match value with
  | .ident word =>
    match word? forms word with
    | none => .error (.length word)
    | some (permitted, length) =>
      if permitted then .ok (.now length) else .error (.disallowed value.text)
  | .number count _ =>
    if count == 0 then .ok (.now .zero)
    else if tooSmall forms count then .error (.disallowed value.text)
    else .ok (.now (.px (Number.round count)))
  | .dimension count unit =>
    if tooSmall forms count then .error (.disallowed value.text)
    else .ok (ofDimension dpi count unit)
  | .percent count =>
    if tooSmall forms count || !forms.percent then .error (.disallowed value.text)
    else .ok (.now (.ofPercent count))
  | _ => .error (.length value.text)

/-- Reads a length in pixels or in font sizes. The first result is in pixels. -/
def pixelsOfValue (negative : Bool) (dpi : Float) (value : Value) :
    Except ValueFault (Sum Int FontLength) :=
  match ofValue { LengthForms.plain with negative := negative } dpi value with
  | .error cause => .error cause
  | .ok (.now (.px pixels)) => .ok (.inl pixels)
  | .ok (.now _) => .error (.length value.text)
  | .ok (.later length) => .ok (.inr length)

end Specified

end StyleCascade
