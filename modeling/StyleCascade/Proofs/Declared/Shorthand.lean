import Mathlib.Data.List.Nodup
import StyleCascade.Declared.Declaration

namespace StyleCascade

namespace Shorthand

/-- What components tell, each a key of its own that is not among those seen before. -/
structure Told {κ : Type} (key : Value → Option κ) (seen : List κ) (entries : List (κ × Value)) :
    Prop where
  tells : ∀ entry ∈ entries, key entry.2 = some entry.1
  once : (entries.map Prod.fst).Nodup
  fresh : ∀ entry ∈ entries, entry.1 ∉ seen

/-- Everything told has a key that was not seen before, so no key is told twice. -/
theorem told_of_keyed? {κ : Type} [DecidableEq κ] {key : Value → Option κ} {seen : List κ}
    {parts : List String} {entries : List (κ × Value)}
    (read : keyed? key seen parts = some entries) : Told key seen entries := by
  induction parts generalizing seen entries with
  | nil =>
    cases read
    exact ⟨by simp, List.nodup_nil, by simp⟩
  | cons part rest ih =>
    rw [keyed?] at read
    split at read
    · cases read
    next k here =>
    split at read
    · cases read
    next new =>
    obtain ⟨behind, later, rfl⟩ := Option.map_eq_some_iff.mp read
    obtain ⟨tells, once, fresh⟩ := ih later
    refine ⟨List.forall_mem_cons.mpr ⟨here, tells⟩, List.nodup_cons.mpr ⟨?_, once⟩,
      List.forall_mem_cons.mpr ⟨new, fun entry listed was => ?_⟩⟩
    · intro again
      obtain ⟨entry, listed, rfl⟩ := List.mem_map.mp again
      exact fresh entry listed List.mem_cons_self
    · exact fresh entry listed (List.mem_cons_of_mem k was)

/-- Longhands that set properties of a list, and each of them once. -/
structure Within (covered : List Property) (longhands : Longhands) : Prop where
  covered : ∀ entry ∈ longhands, entry.1 ∈ covered
  once : (longhands.map Prod.fst).Nodup

theorem Within.of_ids {covered : List Property} {longhands : Longhands}
    (ids : longhands.map Prod.fst = covered) (apart : covered.Nodup) : Within covered longhands :=
  ⟨fun _ listed => ids ▸ List.mem_map_of_mem listed, ids ▸ apart⟩

/-- What a shorthand tells stays within the properties its keys can name. -/
theorem Told.within {key : Value → Option Property} {covered : List Property}
    {longhands : Longhands} (told : Told key [] longhands)
    (keys : ∀ value property, key value = some property → property ∈ covered) :
    Within covered longhands :=
  ⟨fun entry listed => keys entry.2 entry.1 (told.tells entry listed), told.once⟩

theorem within_fourSides {properties : Edges Property} {parts : List String}
    {longhands : Longhands} (apart : properties.toList.Nodup)
    (read : fourSides properties parts = some longhands) : Within properties.toList longhands := by
  obtain ⟨values, -, rfl⟩ := Option.map_eq_some_iff.mp read
  exact .of_ids rfl apart

section Lines

variable {parts : List String} {told : List (LinePart × Value)}

/-- The parts of a line go to properties of their own, one for each line that they are told of. -/
theorem within_lines (places : LinePart → List Property)
    (apart : (places .width ++ places .style ++ places .color).Nodup)
    (read : lineParts? parts = some told) :
    Within (places .width ++ places .style ++ places .color)
      (told.flatMap (fun (part, value) => (places part).map (fun property => (property, value)))) := by
  obtain ⟨front, color, offColor⟩ := List.nodup_append'.mp apart
  obtain ⟨width, style, offStyle⟩ := List.nodup_append'.mp front
  have offWidth := List.disjoint_append_left.mp offColor
  constructor
  · intro entry listed
    obtain ⟨⟨part, value⟩, -, there⟩ := List.mem_flatMap.mp listed
    obtain ⟨property, placed, rfl⟩ := List.mem_map.mp there
    rw [List.mem_append, List.mem_append]
    cases part with
    | width => exact Or.inl (Or.inl placed)
    | style => exact Or.inl (Or.inr placed)
    | color => exact Or.inr placed
  · have ids : (told.flatMap (fun (part, value) =>
        (places part).map (fun property => (property, value)))).map Prod.fst =
        (told.map Prod.fst).flatMap places := by
      rw [List.map_flatMap, List.flatMap_map]
      congr 1
      funext ⟨part, value⟩
      rw [List.map_map]
      exact List.map_id _
    rw [ids, List.nodup_flatMap]
    constructor
    · intro part _
      cases part <;> assumption
    · refine (told_of_keyed? read).once.imp fun {one other} differ => ?_
      cases one <;> cases other
      case width.style => exact offStyle
      case style.width => exact List.disjoint_symm offStyle
      case width.color => exact offWidth.1
      case color.width => exact List.disjoint_symm offWidth.1
      case style.color => exact offWidth.2
      case color.style => exact List.disjoint_symm offWidth.2
      all_goals exact absurd rfl differ

/-- A line tells its width, its style and its colour at most once each. -/
theorem within_line (place : LinePart → Property)
    (apart : [place .width, place .style, place .color].Nodup)
    (read : lineParts? parts = some told) :
    Within [place .width, place .style, place .color]
      (told.map (fun (part, value) => (place part, value))) := by
  have within := within_lines (fun part => [place part]) apart read
  rwa [List.map_eq_flatMap]

end Lines

/-- A position tells both coordinates, in this order. -/
theorem ids_of_position? {parts : List String} {longhands : Longhands}
    (read : position? parts = some longhands) :
    longhands.map Prod.fst = backgroundPosition.covered := by
  unfold position? at read
  split at read
  · split at read <;> cases read <;> rfl
  · split at read <;> cases read <;> rfl
  · cases read

/-- The position is not among these: its coordinates are collected apart and told together. -/
theorem backgroundPart?_mem {value : Value} {property : Property}
    (told : backgroundPart? value = some property) :
    property ∈ [Property.backgroundColor, .backgroundImage, .backgroundRepeat,
      .backgroundAttachment] := by
  unfold backgroundPart? at told
  grind

theorem listPart?_mem {value : Value} {property : Property}
    (told : listPart? value = some property) : property ∈ listStyle.covered := by
  unfold listPart? at told
  unfold covered
  grind

theorem within_background {parts : List String} {longhands : Longhands}
    (read : background? parts = some longhands) : Within background.covered longhands := by
  unfold background? at read
  split at read
  · cases read
  next set found =>
  have within := (told_of_keyed? found).within fun _ _ => backgroundPart?_mem
  have inside : [Property.backgroundColor, .backgroundImage, .backgroundRepeat,
      .backgroundAttachment] ⊆ background.covered := by decide
  split at read
  · cases read
    exact ⟨fun entry listed => inside (within.covered entry listed), within.once⟩
  obtain ⟨place, placed, rfl⟩ := Option.map_eq_some_iff.mp read
  have ids := ids_of_position? placed
  constructor
  · intro entry listed
    rcases List.mem_append.mp listed with part | coordinate
    · exact inside (within.covered entry part)
    · have named := List.mem_map_of_mem (f := Prod.fst) coordinate
      rw [ids] at named
      exact (by decide : backgroundPosition.covered ⊆ background.covered) named
  · -- no part of a background is a coordinate
    rw [List.map_append, ids]
    refine within.once.append (by decide) fun property part coordinate => ?_
    obtain ⟨entry, listed, rfl⟩ := List.mem_map.mp part
    have apart : ∀ property ∈ [Property.backgroundColor, .backgroundImage, .backgroundRepeat,
        .backgroundAttachment], property ∉ backgroundPosition.covered := by decide
    exact apart entry.1 (within.covered entry listed) coordinate

theorem fontOption_mem {value : Value} {property : Property}
    (sets : fontOption value = .set property) :
    property ∈ [Property.fontStyle, .fontVariant, .fontWeight] := by
  unfold fontOption at sets
  grind

theorem fontOptions_mem (parts : List String) :
    ∀ property ∈ (fontOptions parts).1.map Prod.fst,
      property ∈ [Property.fontStyle, .fontVariant, .fontWeight] := by
  fun_induction fontOptions parts with
  | case1 => simp
  | case2 part rest skip ih => exact ih
  | case3 part rest property sets ih =>
    exact List.forall_mem_cons.mpr ⟨fontOption_mem sets, ih⟩
  | case4 => simp

/-- A single component is at most one option. -/
theorem nodup_fontOptions_singleton (part : String) :
    ((fontOptions [part]).1.map Prod.fst).Nodup := by
  rw [fontOptions]
  cases fontOption (Component.classify part) with
  | set property => exact List.nodup_singleton property
  | _ => exact List.nodup_nil

/-- A font sets its options, the size, a line height if there is one, and the families. -/
theorem ids_of_font? {parts : List String} {longhands : Longhands}
    (read : font? parts = some longhands) :
    ∃ behind ∈ [[Property.fontSize, .fontFamily], [.fontSize, .lineHeight, .fontFamily]],
      longhands.map Prod.fst = (fontOptions parts).1.map Prod.fst ++ behind := by
  unfold font? at read
  simp only at read
  split at read
  · cases read
  · cases read
  next size height families _ _ =>
  cases read
  cases height with
  | none => exact ⟨[.fontSize, .fontFamily], by simp, by simp⟩
  | some text => exact ⟨[.fontSize, .lineHeight, .fontFamily], by simp, by simp⟩

/-- Only the leading options can tell a property twice: size, height and family are told once each.
This is where the style can be told twice. -/
theorem covered_of_font? {parts : List String} {longhands : Longhands}
    (read : font? parts = some longhands) :
    (∀ entry ∈ longhands, entry.1 ∈ font.covered) ∧
      ((longhands.map Prod.fst).Nodup ↔ ((fontOptions parts).1.map Prod.fst).Nodup) := by
  obtain ⟨behind, shape, ids⟩ := ids_of_font? read
  have options := fontOptions_mem parts
  have lists : ∀ behind ∈ [[Property.fontSize, .fontFamily], [.fontSize, .lineHeight, .fontFamily]],
      behind.Nodup ∧ behind ⊆ font.covered ∧
        ∀ property ∈ [Property.fontStyle, .fontVariant, .fontWeight],
          property ∈ font.covered ∧ property ∉ behind := by decide
  obtain ⟨own, inside, apart⟩ := lists behind shape
  constructor
  · intro entry listed
    have named := List.mem_map_of_mem (f := Prod.fst) listed
    rw [ids, List.mem_append] at named
    exact named.elim (fun option => (apart _ (options _ option)).1) (fun rest => inside rest)
  · rw [ids, List.nodup_append']
    exact ⟨fun parts => parts.1, fun once => ⟨once, own, fun property option rest =>
      (apart property (options property option)).2 rest⟩⟩

theorem nodup_covered (shorthand : Shorthand) : shorthand.covered.Nodup := by
  cases shorthand with
  | borderSide side => cases side <;> decide
  | _ => decide

/-- What a shorthand sets is covered by it, and set once if the shorthand is no font. -/
theorem within_expand? {shorthand : Shorthand} {parts : List String} {longhands : Longhands}
    (other : shorthand ≠ font) (read : shorthand.expand? parts = some longhands) :
    Within shorthand.covered longhands := by
  cases shorthand with
  | margin => exact within_fourSides (nodup_covered margin) read
  | padding => exact within_fourSides (nodup_covered padding) read
  | borderWidth => exact within_fourSides (nodup_covered borderWidth) read
  | borderStyle => exact within_fourSides (nodup_covered borderStyle) read
  | borderColor => exact within_fourSides (nodup_covered borderColor) read
  | borderSide side =>
    obtain ⟨told, found, rfl⟩ := Option.map_eq_some_iff.mp read
    exact within_line (fun part => (borderPart part).get side)
      (nodup_covered (borderSide side)) found
  | border =>
    obtain ⟨told, found, rfl⟩ := Option.map_eq_some_iff.mp read
    exact within_lines (fun part => (borderPart part).toList) (nodup_covered border) found
  | outline =>
    obtain ⟨told, found, rfl⟩ := Option.map_eq_some_iff.mp read
    exact within_line outlinePart (nodup_covered outline) found
  | background => exact within_background read
  | backgroundPosition => exact .of_ids (ids_of_position? read) (nodup_covered _)
  | listStyle => exact (told_of_keyed? read).within fun _ _ => listPart?_mem
  | font => exact absurd rfl other

end Shorthand

namespace Declaration

section

variable {value : String} {shorthand : Shorthand}

/-- A value without components is invalid, `inherit` goes to all properties, and anything else is
taken apart. -/
theorem expand_name (shorthand : Shorthand) (value : String) :
    expand shorthand.name value =
      if Component.split value = [] then .error (.invalidValue shorthand.name value)
      else if inheritsAll (Component.split value) then
        .ok (shorthand.covered.map (fun property => (property, Value.inherit)))
      else
        match shorthand.expand? (Component.split value) with
        | some longhands => .ok longhands
        | none => .error (.invalidValue shorthand.name value) := by
  have noProperty : Property.ofName? shorthand.name = none := by
    cases shorthand with
    | borderSide side => cases side <;> decide +kernel
    | _ => decide +kernel
  have named : Shorthand.ofName? shorthand.name = some shorthand := by
    cases shorthand with
    | borderSide side => cases side <;> decide +kernel
    | _ => decide +kernel
  simp only [expand, noProperty, named]
  cases Component.split value <;> rfl

theorem inheritsAll_cases {parts : List String} (all : inheritsAll parts = true) :
    ∃ only, parts = [only] := by
  unfold inheritsAll at all
  split at all
  · exact ⟨_, rfl⟩
  · cases all

/-- Of a shorthand that inherits, every longhand inherits. -/
theorem expand_inherit (all : inheritsAll (Component.split value) = true) :
    expand shorthand.name value =
      .ok (shorthand.covered.map (fun property => (property, Value.inherit))) := by
  obtain ⟨only, single⟩ := inheritsAll_cases all
  rw [expand_name, if_neg (by simp [single]), if_pos all]

/-- A name of no property and no shorthand sets nothing. -/
theorem expand_unknown {name : String} (noProperty : ∀ property : Property, property.name ≠ name)
    (noShorthand : ∀ shorthand : Shorthand, shorthand.name ≠ name) (longhands : Longhands) :
    expand name value ≠ .ok longhands := by
  have property : Property.ofName? name = none :=
    List.find?_eq_none.mpr fun property _ => by simpa using noProperty property
  have shorthand : Shorthand.ofName? name = none :=
    List.find?_eq_none.mpr fun shorthand _ => by simpa using noShorthand shorthand
  simp only [expand, property, shorthand]
  split <;> nofun

end

theorem exists_of_ids (read : Except DeclarationFault Longhands) (ids : List Property)
    (found : read.toOption.map (·.map Prod.fst) = some ids) :
    ∃ longhands, read = .ok longhands ∧ longhands.map Prod.fst = ids := by
  cases read with
  | ok longhands => exact ⟨longhands, rfl, Option.some.inj found⟩
  | error fault => cases found

/-- A shorthand sets properties that it covers, and each at most once; only the words in front of
a font size may come twice. The word `inherit` goes to each property that is covered. A name that is
neither that of a property nor that of a shorthand sets nothing. -/
theorem expand_sets_covered_once (value : String) :
    (∀ (shorthand : Shorthand) (longhands : Longhands),
      expand shorthand.name value = .ok longhands →
        (∀ entry ∈ longhands, entry.1 ∈ shorthand.covered) ∧
          ((longhands.map Prod.fst).Nodup ↔ (shorthand = .font →
            ((Shorthand.fontOptions (Component.split value)).1.map Prod.fst).Nodup))) ∧
      (∀ shorthand : Shorthand, inheritsAll (Component.split value) = true →
        expand shorthand.name value =
          .ok (shorthand.covered.map (fun property => (property, Value.inherit)))) ∧
      ∀ name : String, (∀ property : Property, property.name ≠ name) →
        (∀ shorthand : Shorthand, shorthand.name ≠ name) →
          ∀ longhands, expand name value ≠ .ok longhands := by
  refine ⟨fun shorthand longhands read => ?_, fun _ => expand_inherit, fun name => expand_unknown⟩
  rw [expand_name] at read
  split at read
  · cases read
  split at read
  · next all =>
    cases read
    obtain ⟨only, single⟩ := inheritsAll_cases all
    have ids : (shorthand.covered.map (fun property => (property, Value.inherit))).map Prod.fst =
        shorthand.covered := List.map_map.trans (List.map_id _)
    obtain ⟨covered, once⟩ := Shorthand.Within.of_ids ids shorthand.nodup_covered
    exact ⟨covered, fun _ _ => single ▸ Shorthand.nodup_fontOptions_singleton only, fun _ => once⟩
  split at read
  · next found =>
    cases read
    by_cases isFont : shorthand = .font
    · subst isFont
      obtain ⟨covered, once⟩ := Shorthand.covered_of_font? found
      exact ⟨covered, once.trans ⟨fun options _ => options, fun options => options rfl⟩⟩
    · obtain ⟨covered, once⟩ := Shorthand.within_expand? isFont found
      exact ⟨covered, fun _ same => absurd same isFont, fun _ => once⟩
  · cases read

/-- One value for each branch: a full font, an inherited border, and a name that is no shorthand. -/
theorem expand_sets_covered_once_font :
    let value := "normal italic bold 12px/1.5 Times, serif"
    (∃ longhands, expand Shorthand.font.name value = .ok longhands ∧
      (∀ entry ∈ longhands, entry.1 ∈ Shorthand.font.covered) ∧
        (longhands.map Prod.fst).Nodup) ∧
      inheritsAll (Component.split " INHERIT") = true ∧
      expand Shorthand.border.name " INHERIT" =
        .ok (Shorthand.border.covered.map (fun property => (property, Value.inherit))) ∧
      (∀ property : Property, property.name ≠ "flex") ∧
      (∀ shorthand : Shorthand, shorthand.name ≠ "flex") ∧
      ∀ longhands, expand "flex" value ≠ .ok longhands := by
  intro value
  obtain ⟨longhands, read, -⟩ := exists_of_ids (expand Shorthand.font.name value)
    [.fontStyle, .fontWeight, .fontSize, .lineHeight, .fontFamily] (by decide +kernel)
  have options : ((Shorthand.fontOptions (Component.split value)).1.map Prod.fst).Nodup := by
    decide +kernel
  obtain ⟨covered, once⟩ := (expand_sets_covered_once value).1 .font longhands read
  have all : inheritsAll (Component.split " INHERIT") = true := by decide +kernel
  have noProperty : ∀ property : Property, property.name ≠ "flex" := by
    intro property
    cases property <;> decide
  have noShorthand : ∀ shorthand : Shorthand, shorthand.name ≠ "flex" := by
    intro shorthand
    cases shorthand with
    | borderSide side => cases side <;> decide
    | _ => decide
  exact ⟨⟨longhands, read, covered, once.mpr fun _ => options⟩, all,
    (expand_sets_covered_once " INHERIT").2.1 .border all, noProperty, noShorthand,
    (expand_sets_covered_once value).2.2 "flex" noProperty noShorthand⟩

/-- Two styles in front of a font size are both set. -/
theorem expand_font_italic_oblique :
    ∃ longhands, expand Shorthand.font.name "italic oblique 12px serif" = .ok longhands ∧
      longhands.map Prod.fst = [.fontStyle, .fontStyle, .fontSize, .fontFamily] ∧
      ¬(longhands.map Prod.fst).Nodup := by
  obtain ⟨longhands, read, ids⟩ := exists_of_ids
    (expand Shorthand.font.name "italic oblique 12px serif")
    [.fontStyle, .fontStyle, .fontSize, .fontFamily] (by decide +kernel)
  exact ⟨longhands, read, ids, by rw [ids]; decide⟩

end Declaration

end StyleCascade
