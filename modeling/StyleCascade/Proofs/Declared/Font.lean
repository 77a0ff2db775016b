import StyleCascade.Proofs.Declared.Components
import StyleCascade.Proofs.Declared.Shorthand

namespace StyleCascade

/-- A value that is a length or a percentage. -/
def Value.isMeasure : Value → Bool
  | .dimension .. | .percent _ => true
  | _ => false

theorem Value.isNumeric_of_isMeasure {value : Value} (measure : value.isMeasure = true) :
    value.isNumeric = true := by
  unfold isMeasure at measure
  split at measure
  · rfl
  · rfl
  · cases measure

namespace Shorthand

/-- What a font without options sets, if there are families. -/
def sizedFont (size : String) (height : Option String) (families : List String) :
    Option Longhands :=
  if families = [] then none
  else
    some ((.fontSize, Component.classify size) ::
      (height.toList.map (fun text => (Property.lineHeight, Component.classify text)) ++
        [(.fontFamily, Value.ofText (" ".intercalate families))]))

/-- Without its line height, a font sets something else. -/
theorem sizedFont_ne (size height : String) (families : List String) :
    sizedFont size none (height :: families) ≠ sizedFont size (some height) families := by
  rw [sizedFont, sizedFont, if_neg (List.cons_ne_nil _ _)]
  split <;> simp

theorem fontOption_of_isMeasure {value : Value} (measure : value.isMeasure = true) :
    fontOption value = .stop := by
  unfold Value.isMeasure at measure
  split at measure
  · rfl
  · rfl
  · cases measure

/-- Neither a number nor a name has a slash. -/
theorem fontOption_of_slash {part : String} (word : Component.IsWord part)
    (noHash : part.toList.head? ≠ some '#') (slash : '/' ∈ part.toList) :
    fontOption (Component.classify part) = .stop := by
  have noNumeral : Component.numeric? part = none := by
    refine Option.eq_none_iff_forall_ne_some.mpr fun value found => ?_
    exact absurd ((Component.numericChars_of_numeric? found).2 _ slash) (by decide)
  have noName : part.toList.all Ascii.isNameChar = false :=
    List.all_eq_false.mpr ⟨'/', slash, by decide⟩
  rw [Component.classify_of_inner word.inner noHash, Component.ofPlain, noNumeral]
  simp only [noName, Bool.and_false, Bool.false_eq_true, if_false]
  rfl

section

variable {part size : String} {height : Option String} {rest families : List String}

/-- The options end at the first component that is none, and the size is read from there. -/
theorem font?_of_stop (stop : fontOption (Component.classify part) = .stop)
    (read : fontSize? (part :: rest) = some (size, height, families)) :
    font? (part :: rest) = sizedFont size height families := by
  rw [font?, fontOptions]
  simp only [stop, read]
  cases families with
  | nil => rfl
  | cons family others => rfl

theorem inheritsAll_of_slash (slash : '/' ∈ part.toList) :
    Declaration.inheritsAll (part :: rest) = false := by
  cases rest with
  | cons next others => rfl
  | nil =>
    refine Bool.eq_false_iff.mpr fun same => ?_
    have letters : Ascii.lower part = Ascii.lower "inherit" := beq_iff_eq.mp same
    rw [← String.toList_inj, Ascii.toList_lower] at letters
    have lowered : '/' ∈ part.toList.map Char.toLower :=
      List.mem_map_of_mem (f := Char.toLower) slash
    rw [letters] at lowered
    exact absurd lowered (by decide)

/-- A font is read from the part of its size on, if that is the first one. -/
theorem expand_font {value : String} (shape : Component.split value = part :: rest)
    (stop : fontOption (Component.classify part) = .stop)
    (whole : Declaration.inheritsAll (part :: rest) = false)
    (read : fontSize? (part :: rest) = some (size, height, families)) :
    (Declaration.expand "font" value).toOption = sizedFont size height families := by
  have font := Declaration.expand_name .font value
  rw [shape, if_neg (List.cons_ne_nil _ _), whole, if_neg Bool.false_ne_true, expand?,
    font?_of_stop stop read] at font
  rw [show "font" = Shorthand.font.name from rfl, font]
  cases sizedFont size height families <;> rfl

end

section Slash

variable {size height : String}

/-- Size, slash and height in one component are taken apart there. -/
theorem fontSize?_joined (noSlash : '/' ∉ size.toList) (filled : height.toList ≠ [])
    (families : List String) :
    fontSize? ((size ++ "/" ++ height) :: families) = some (size, some height, families) := by
  have shape : (size ++ "/" ++ height).toList = size.toList ++ '/' :: height.toList := by
    rw [String.toList_append, String.toList_append, List.append_assoc]
    rfl
  obtain ⟨front, behind⟩ := Text.span_mark noSlash height.toList
  obtain ⟨c, others, first⟩ := List.exists_cons_of_ne_nil filled
  rw [fontSize?, shape, front, behind, first]
  simp only [← first, String.ofList_toList]

/-- A slash at the end of the size is dropped, and the height is looked for behind another slash
only. -/
theorem fontSize?_before (noSlash : '/' ∉ size.toList) (rest : List String) :
    fontSize? ((size ++ "/") :: rest) =
      (slashedHeight? rest).map (fun (height, families) => (size, height, families)) := by
  have shape : (size ++ "/").toList = size.toList ++ ['/'] := String.toList_append
  obtain ⟨front, behind⟩ := Text.span_mark noSlash []
  rw [fontSize?, shape, front, behind, String.ofList_toList]

theorem fontSize?_alone (noSlash : '/' ∉ size.toList) (rest : List String) :
    fontSize? (size :: rest) =
      (slashedHeight? rest).map (fun (height, families) => (size, height, families)) := by
  have other : ∀ c ∈ size.toList, decide (c ≠ '/') = true := by
    intro c listed
    rw [decide_eq_true_eq]
    rintro rfl
    exact noSlash listed
  have front : size.toList.takeWhile (· ≠ '/') = size.toList := List.takeWhile_eq_self_iff.mpr other
  have behind : size.toList.dropWhile (· ≠ '/') = [] := List.dropWhile_eq_nil_iff.mpr other
  rw [fontSize?, front, behind, String.ofList_toList]

theorem slashedHeight?_joined (filled : height.toList ≠ []) (families : List String) :
    slashedHeight? (("/" ++ height) :: families) = some (some height, families) := by
  have shape : ("/" ++ height).toList = '/' :: height.toList := String.toList_append
  rw [slashedHeight?.eq_def]
  simp only [shape]
  rw [String.ofList_toList]

theorem slashedHeight?_none {next : String} (noSlash : '/' ∉ next.toList) (families : List String) :
    slashedHeight? (next :: families) = some (none, next :: families) := by
  rw [slashedHeight?.eq_def]
  simp only
  split
  · next alone => rw [alone] at noSlash; exact absurd List.mem_cons_self noSlash
  · next whole => rw [whole] at noSlash; exact absurd List.mem_cons_self noSlash
  · rfl

end Slash

section Spellings

variable {size height : String}

theorem isWord_slash : Component.IsWord "/" :=
  ⟨by decide, List.forall_mem_singleton.mpr (by decide)⟩

/-- With white space before the slash only, slash and height are one component. -/
theorem split_before (sizeWord : Component.IsWord size) (heightWord : Component.IsWord height)
    (family : String) :
    Component.split (size ++ " /" ++ height ++ " " ++ family) =
      size :: ("/" ++ height) :: Component.split family := by
  rw [← (isWord_slash.append heightWord).split_append, ← sizeWord.split_append]
  congr 1
  simp only [← String.toList_inj, String.toList_append, List.append_assoc]
  rfl

/-- With white space on both sides the slash is a component of its own. -/
theorem split_around (sizeWord : Component.IsWord size) (heightWord : Component.IsWord height)
    (family : String) :
    Component.split (size ++ " / " ++ height ++ " " ++ family) =
      size :: "/" :: height :: Component.split family := by
  rw [← heightWord.split_append, ← isWord_slash.split_append, ← sizeWord.split_append]
  congr 1
  simp only [← String.toList_inj, String.toList_append, List.append_assoc]
  rfl

/-- With white space behind the slash only, the slash ends the size and the height stands alone,
where the reader of the height does not look for it. -/
theorem split_behind (sizeWord : Component.IsWord size) (heightWord : Component.IsWord height)
    (family : String) :
    Component.split (size ++ "/ " ++ height ++ " " ++ family) =
      (size ++ "/") :: height :: Component.split family := by
  rw [← heightWord.split_append, ← (sizeWord.append isWord_slash).split_append]
  congr 1
  simp only [← String.toList_inj, String.toList_append, List.append_assoc]
  rfl

end Spellings

/-- Numerals with their suffixes hold no mark of a font or of a color. -/
theorem no_mark_of_isNumeric {text : String}
    (numeric : (Component.classify text).isNumeric = true) :
    '/' ∉ text.toList ∧ '#' ∉ text.toList := by
  have chars := (Component.numericChars_of_classify numeric).2
  exact ⟨fun slash => absurd (chars _ slash) (by decide),
    fun hash => absurd (chars _ hash) (by decide)⟩

/-- A size and a slash, with or without anything behind it, is no option. -/
theorem expand_font_slashed {value part size found : String} {height : Option String}
    {behind : List Char} {rest families : List String} (word : Component.IsWord part)
    (numeric : (Component.classify size).isNumeric = true)
    (chars : part.toList = size.toList ++ '/' :: behind)
    (shape : Component.split value = part :: rest)
    (read : fontSize? (part :: rest) = some (found, height, families)) :
    (Declaration.expand "font" value).toOption = sizedFont found height families := by
  have slash : '/' ∈ part.toList := by simp [chars]
  have noHash : part.toList.head? ≠ some '#' := by
    obtain ⟨c, others, first⟩ :=
      List.exists_cons_of_ne_nil (Component.isWord_of_classify numeric).filled
    rw [chars, first]
    rintro ⟨⟩
    exact (no_mark_of_isNumeric numeric).2 (by simp [first])
  exact expand_font shape (fontOption_of_slash word noHash slash) (inheritsAll_of_slash slash) read

end Shorthand

namespace Declaration

open Shorthand

/-- Size and line height of a font may stand on both sides of a slash with or without white space,
but not with white space behind the slash alone: there, the line height is taken for a family. -/
theorem expand_font_slash {size height : String} (family : String)
    (measure : (Component.classify size).isMeasure = true)
    (numeric : (Component.classify height).isNumeric = true) :
    let longhands := fun value => (expand "font" value).toOption
    let families := Component.split family
    longhands (size ++ "/" ++ height ++ " " ++ family) = sizedFont size (some height) families ∧
    longhands (size ++ " /" ++ height ++ " " ++ family) = sizedFont size (some height) families ∧
    longhands (size ++ " / " ++ height ++ " " ++ family) = sizedFont size (some height) families ∧
    longhands (size ++ "/ " ++ height ++ " " ++ family) =
      sizedFont size none (height :: families) ∧
    sizedFont size none (height :: families) ≠ sizedFont size (some height) families := by
  intro longhands families
  have sizeNumeric := Value.isNumeric_of_isMeasure measure
  have sizeWord := Component.isWord_of_classify sizeNumeric
  have heightWord := Component.isWord_of_classify numeric
  have noSlash := (no_mark_of_isNumeric sizeNumeric).1
  have stop := fontOption_of_isMeasure measure
  refine ⟨?joined, ?before, ?around, ?behind, sizedFont_ne size height families⟩
  case joined =>
    have word := (sizeWord.append isWord_slash).append heightWord
    have chars : (size ++ "/" ++ height).toList = size.toList ++ '/' :: height.toList := by simp
    exact expand_font_slashed word sizeNumeric chars (word.split_append family)
      (fontSize?_joined noSlash heightWord.filled families)
  case before =>
    have read : fontSize? (size :: ("/" ++ height) :: families) =
        some (size, some height, families) := by
      rw [fontSize?_alone noSlash, slashedHeight?_joined heightWord.filled, Option.map_some]
    exact expand_font (split_before sizeWord heightWord family) stop rfl read
  case around =>
    have read : fontSize? (size :: "/" :: height :: families) =
        some (size, some height, families) := by
      rw [fontSize?_alone noSlash]
      rfl
    exact expand_font (split_around sizeWord heightWord family) stop rfl read
  case behind =>
    have word := sizeWord.append isWord_slash
    have chars : (size ++ "/").toList = size.toList ++ ['/'] := String.toList_append
    have read : fontSize? ((size ++ "/") :: height :: families) =
        some (size, none, height :: families) := by
      rw [fontSize?_before noSlash, slashedHeight?_none (no_mark_of_isNumeric numeric).1,
        Option.map_some]
    exact expand_font_slashed word sizeNumeric chars (split_behind sizeWord heightWord family) read

/-- The same size and height spelled in two ways: the height is read from the first and becomes a
family in the second. -/
theorem expand_font_slash_serif :
    (Component.classify "12px").isMeasure = true ∧
    (Component.classify "1.5").isNumeric = true ∧
    (expand "font" "12px / 1.5 Times, serif").toOption =
      sizedFont "12px" (some "1.5") ["Times", ",", "serif"] ∧
    (expand "font" "12px/ 1.5 Times, serif").toOption =
      sizedFont "12px" none ["1.5", "Times", ",", "serif"] := by
  have measure : (Component.classify "12px").isMeasure = true := by decide +kernel
  have numeric : (Component.classify "1.5").isNumeric = true := by decide +kernel
  have families : Component.split "Times, serif" = ["Times", ",", "serif"] := by decide +kernel
  obtain ⟨-, -, around, behind, -⟩ := expand_font_slash "Times, serif" measure numeric
  rw [families] at around behind
  exact ⟨measure, numeric, around, behind⟩

/-- White space behind the slash of a font, and not in front of it, drops the line height. -/
theorem expand_font_space_behind_slash :
    (expand "font" "12px/1.5 serif").toOption.map (·.map Prod.fst) =
      some [.fontSize, .lineHeight, .fontFamily] ∧
    (expand "font" "12px/ 1.5 serif").toOption.map (·.map Prod.fst) =
      some [.fontSize, .fontFamily] := by
  decide +kernel

end Declaration

end StyleCascade
