import Mathlib.Data.List.Perm.Basic
import StyleCascade.Proofs.Declared.Components
import StyleCascade.Proofs.Declared.Shorthand
import StyleCascade.Proofs.Intern.Pool
import StyleCascade.Proofs.Lists

namespace StyleCascade

namespace Shorthand

section Keyed

variable {κ : Type} {key : Value → Option κ} {seen : List κ} {parts others : List String}
  {entries : List (κ × Value)}

/-- A component with what it tells, if it tells anything. -/
def told? (key : Value → Option κ) (part : String) : Option (κ × Value) :=
  (key (Component.classify part)).map (fun k => (k, Component.classify part))

variable [DecidableEq κ]

/-- Components are read if each of them tells something, and nothing is told twice. -/
theorem keyed?_eq_some_iff :
    keyed? key seen parts = some entries ↔
      (∀ part ∈ parts, told? key part ≠ none) ∧ parts.filterMap (told? key) = entries ∧
        (entries.map Prod.fst).Nodup ∧ ∀ entry ∈ entries, entry.1 ∉ seen := by
  induction parts generalizing seen entries with
  | nil =>
    rw [keyed?, Option.some.injEq, List.filterMap_nil]
    constructor
    · rintro rfl
      exact ⟨by simp, rfl, List.nodup_nil, by simp⟩
    · rintro ⟨-, noneTold, -⟩
      exact noneTold
  | cons part rest ih =>
    constructor
    · intro read
      obtain ⟨-, once, fresh⟩ := told_of_keyed? read
      rw [keyed?] at read
      split at read
      · cases read
      next k here =>
      split at read
      · cases read
      obtain ⟨behind, later, rfl⟩ := Option.map_eq_some_iff.mp read
      obtain ⟨tells, kept, -⟩ := ih.mp later
      have first : told? key part = some (k, Component.classify part) := by
        rw [told?, here, Option.map_some]
      refine ⟨List.forall_mem_cons.mpr ⟨by simp [first], tells⟩, ?_, once, fresh⟩
      rw [List.filterMap_cons_some first, kept]
    · rintro ⟨tells, kept, once, fresh⟩
      obtain ⟨firstTells, restTells⟩ := List.forall_mem_cons.mp tells
      obtain ⟨entry, first⟩ := Option.ne_none_iff_exists'.mp firstTells
      obtain ⟨k, here, rfl⟩ := Option.map_eq_some_iff.mp first
      rw [List.filterMap_cons_some first] at kept
      subst kept
      obtain ⟨new, onceRest⟩ := List.nodup_cons.mp once
      obtain ⟨firstFresh, restFresh⟩ := List.forall_mem_cons.mp fresh
      have read : keyed? key (k :: seen) rest = some (rest.filterMap (told? key)) := by
        refine ih.mpr ⟨restTells, rfl, onceRest, fun entry listed => ?_⟩
        rw [List.mem_cons, not_or]
        have named : entry.1 ∈ (rest.filterMap (told? key)).map Prod.fst :=
          List.mem_map_of_mem listed
        exact ⟨fun same => new (same ▸ named), restFresh entry listed⟩
      rw [keyed?, here]
      simp only [if_neg firstFresh, read, Option.map_some]

/-- Components that are read in one order are read in any other, to the same entries. -/
theorem exists_keyed?_of_perm (perm : parts.Perm others)
    (read : keyed? key seen parts = some entries) :
    ∃ moved, keyed? key seen others = some moved ∧ entries.Perm moved := by
  obtain ⟨tells, rfl, once, fresh⟩ := keyed?_eq_some_iff.mp read
  have moved := perm.filterMap (told? key)
  refine ⟨_, keyed?_eq_some_iff.mpr ⟨fun part listed => ?_, rfl, ?_, fun entry listed => ?_⟩, moved⟩
  · exact tells part (perm.mem_iff.mpr listed)
  · exact (moved.map Prod.fst).nodup_iff.mp once
  · exact fresh entry (moved.mem_iff.mpr listed)

theorem keyed?_perm (perm : parts.Perm others) :
    Option.Rel List.Perm (keyed? key seen parts) (keyed? key seen others) := by
  cases read : keyed? key seen parts with
  | some entries =>
    obtain ⟨moved, otherRead, same⟩ := exists_keyed?_of_perm perm read
    exact otherRead ▸ .some same
  | none =>
    cases otherRead : keyed? key seen others with
    | none => exact .none
    | some moved =>
      obtain ⟨entries, back, -⟩ := exists_keyed?_of_perm perm.symm otherRead
      rw [read] at back
      cases back

end Keyed

/-- A component that a background takes for a coordinate: a number, a percentage, a dimension or a
position word. -/
def isPosition (part : String) : Bool :=
  let value := Component.classify part
  value.isNumeric || (value.word?.bind positionWord?).isSome

theorem positionWord?_apart {word : String} (position : (positionWord? word).isSome = true) :
    word ≠ "none" ∧ (Keyword.ofText? (α := BackgroundRepeat) word).isSome = false ∧
      (Keyword.ofText? (α := BackgroundAttachment) word).isSome = false := by
  unfold positionWord? at position
  split at position
  all_goals first
    | exact absurd position Bool.false_ne_true
    | decide

theorem isCoordinate_eq_isPosition (part : String) : isCoordinate part = isPosition part := by
  unfold isCoordinate isPosition
  cases Component.classify part with
  | ident word =>
    show (backgroundPart? (.ident word)).isNone = (positionWord? word).isSome
    cases position : (positionWord? word).isSome with
    | true =>
      obtain ⟨other, noRepeat, noAttachment⟩ := positionWord?_apart position
      simp [backgroundPart?, other, noRepeat, noAttachment, position]
    | false =>
      simp only [backgroundPart?, position]
      repeat' split
      all_goals first | rfl | contradiction
  | _ => rfl

variable {parts others : List String}

/-- The shorthands that take their components in any order. -/
def takesAnyOrder : Shorthand → Bool
  | border | borderSide _ | outline | listStyle => true
  | _ => false

/-- Moving the components about moves the longhands about. It makes no value readable that was not,
and none unreadable. -/
theorem expand?_perm {shorthand : Shorthand} (any : shorthand.takesAnyOrder = true)
    (perm : parts.Perm others) :
    Option.Rel List.Perm (shorthand.expand? parts) (shorthand.expand? others) := by
  have lines : Option.Rel List.Perm (lineParts? parts) (lineParts? others) := keyed?_perm perm
  cases shorthand with
  | borderSide side => exact optionRel_map lines fun _ _ same => same.map _
  | border => exact optionRel_map lines fun _ _ same => same.flatMap_right _
  | outline => exact optionRel_map lines fun _ _ same => same.map _
  | listStyle => exact keyed?_perm perm
  | _ => cases any

/-- The coordinates of a background are its position, in their order. -/
theorem expand?_background_perm (perm : parts.Perm others)
    (positions : parts.filter isPosition = others.filter isPosition) :
    Option.Rel List.Perm (background.expand? parts) (background.expand? others) := by
  have coordinates : parts.filter isCoordinate = others.filter isCoordinate := by
    simpa only [funext isCoordinate_eq_isPosition] using positions
  have set : Option.Rel List.Perm (keyed? backgroundPart? [] (parts.filter (!isCoordinate ·)))
      (keyed? backgroundPart? [] (others.filter (!isCoordinate ·))) :=
    keyed?_perm (perm.filter _)
  show Option.Rel List.Perm (background? parts) (background? others)
  unfold background?
  rw [← coordinates]
  generalize keyed? backgroundPart? [] (parts.filter (!isCoordinate ·)) = one at set ⊢
  generalize keyed? backgroundPart? [] (others.filter (!isCoordinate ·)) = other at set ⊢
  cases set with
  | none => exact .none
  | some same =>
    simp only
    split
    · exact .some same
    · cases position? (parts.filter isCoordinate) with
      | none => exact .none
      | some place => exact .some (same.append_right place)

/-- What a line sets on all sides is what it sets on each of them. -/
theorem sides_perm (told : List (LinePart × Value)) :
    (told.flatMap (fun (part, value) =>
      (borderPart part).toList.map (fun property => (property, value)))).Perm
        (Side.all.flatMap (fun side =>
          told.map (fun (part, value) => ((borderPart part).get side, value)))) := by
  induction told with
  | nil => exact .refl _
  | cons first rest ih =>
    obtain ⟨part, value⟩ := first
    have alone : (borderPart part).toList.map (fun property => (property, value)) =
        Side.all.flatMap (fun side => [((borderPart part).get side, value)]) := rfl
    rw [List.flatMap_cons]
    refine (ih.append_left _).trans ?_
    show ((borderPart part).toList.map (fun property => (property, value)) ++ _).Perm _
    rw [alone]
    exact List.flatMap_append_perm _ _ _

end Shorthand

/-- Longhands that give the same properties the same values, each property once. -/
structure SameMap (one other : Longhands) : Prop where
  once : (one.map Prod.fst).Nodup
  other_once : (other.map Prod.fst).Nodup
  same : ∀ property, one.lookup property = other.lookup property

theorem SameMap.of_perm {one other : Longhands} (once : (one.map Prod.fst).Nodup)
    (perm : one.Perm other) : SameMap one other := by
  have otherOnce := (perm.map Prod.fst).nodup_iff.mp once
  refine ⟨once, otherOnce, fun property => Option.ext fun value => ?_⟩
  rw [Entries.lookup_eq_some_iff once, Entries.lookup_eq_some_iff otherOnce, perm.mem_iff]

namespace Declaration

section

variable {value other : String} {shorthand : Shorthand}

theorem inheritsAll_perm {parts others : List String} (perm : parts.Perm others) :
    inheritsAll parts = inheritsAll others := by
  by_cases single : ∃ only, parts = [only]
  · obtain ⟨only, rfl⟩ := single
    rw [List.singleton_perm.mp perm]
  · have more (list : List String) (same : list.Perm parts) : inheritsAll list = false := by
      refine Bool.eq_false_iff.mpr fun all => single ?_
      obtain ⟨only, rfl⟩ := inheritsAll_cases all
      exact ⟨only, (List.singleton_perm.mp same).symm⟩
    rw [more parts (.refl parts), more others perm.symm]

theorem ids_inherit (covered : List Property) :
    (covered.map (fun property => (property, Value.inherit))).map Prod.fst = covered :=
  List.map_map.trans (List.map_id covered)

/-- What a value sets only depends on its components. -/
theorem toOption_expand (shorthand : Shorthand) (value : String) :
    (expand shorthand.name value).toOption =
      if Component.split value = [] then none
      else if inheritsAll (Component.split value) then
        some (shorthand.covered.map (fun property => (property, Value.inherit)))
      else shorthand.expand? (Component.split value) := by
  rw [expand_name]
  split
  · rfl
  split
  · rfl
  cases shorthand.expand? (Component.split value) <;> rfl

/-- Two orders of components set the same, if what they come to is the same up to its order. -/
theorem expand_sameMap (noFont : shorthand ≠ .font)
    (perm : (Component.split value).Perm (Component.split other))
    (related : Option.Rel List.Perm (shorthand.expand? (Component.split value))
      (shorthand.expand? (Component.split other))) :
    Option.Rel SameMap (expand shorthand.name value).toOption
      (expand shorthand.name other).toOption := by
  have emptyIff : Component.split value = [] ↔ Component.split other = [] := by
    rw [← List.length_eq_zero_iff, perm.length_eq, List.length_eq_zero_iff]
  have once : ∀ longhands, shorthand.expand? (Component.split value) = some longhands →
      (longhands.map Prod.fst).Nodup :=
    fun _ read => (Shorthand.within_expand? noFont read).once
  rw [toOption_expand, toOption_expand, inheritsAll_perm perm, if_congr emptyIff rfl rfl]
  split
  · exact .none
  split
  · refine .some (.of_perm ?_ (.refl _))
    rw [ids_inherit]
    exact shorthand.nodup_covered
  · generalize shorthand.expand? (Component.split value) = one at related once ⊢
    generalize shorthand.expand? (Component.split other) = two at related ⊢
    cases related with
    | none => exact .none
    | some same => exact .some (.of_perm (once _ rfl) same)

/-- A border is refused where its sides are, and else sets what it sets on each of them. -/
theorem expand_border_cases (value : String) :
    ((expand Shorthand.border.name value).toOption = none ∧
      ∀ side, (expand (Shorthand.borderSide side).name value).toOption = none) ∨
    ∃ all sides, (expand Shorthand.border.name value).toOption = some all ∧
      (∀ side, (expand (Shorthand.borderSide side).name value).toOption = some (sides side)) ∧
      SameMap all (Side.all.flatMap sides) := by
  simp only [toOption_expand]
  split
  · exact Or.inl ⟨rfl, fun _ => rfl⟩
  split
  · refine Or.inr ⟨_, _, rfl, fun _ => rfl, .of_perm ?_ ?_⟩
    · rw [ids_inherit]
      exact Shorthand.border.nodup_covered
    · have covered : Shorthand.border.covered.Perm
          (Side.all.flatMap (fun side => (Shorthand.borderSide side).covered)) := by decide
      have inherited := covered.map (fun property => (property, Value.inherit))
      rwa [List.map_flatMap] at inherited
  · cases read : Shorthand.lineParts? (Component.split value) with
    | none =>
      exact Or.inl ⟨congrArg (Option.map _) read, fun _ => congrArg (Option.map _) read⟩
    | some told =>
      have all : Shorthand.border.expand? (Component.split value) = some (told.flatMap _) :=
        congrArg (Option.map _) read
      refine Or.inr ⟨_, _, all, fun side => congrArg (Option.map _) read, ?_⟩
      exact .of_perm (Shorthand.within_expand? (by decide) all).once (Shorthand.sides_perm told)

end

/-- Components of borders, outlines and list styles may stand in any order, and those of a
background too if its coordinates keep theirs: the values are both refused, or they set the same.
A border is refused where its top side is, and else sets what the value sets on each side. -/
theorem expand_in_any_order :
    (∀ (shorthand : Shorthand) (value other : String), shorthand.takesAnyOrder = true →
      (Component.split value).Perm (Component.split other) →
        Option.Rel SameMap (expand shorthand.name value).toOption
          (expand shorthand.name other).toOption) ∧
      (∀ value other : String, (Component.split value).Perm (Component.split other) →
        (Component.split value).filter Shorthand.isPosition =
          (Component.split other).filter Shorthand.isPosition →
            Option.Rel SameMap (expand Shorthand.background.name value).toOption
              (expand Shorthand.background.name other).toOption) ∧
      ∀ value : String,
        ((expand Shorthand.border.name value).toOption.isSome ↔
          (expand (Shorthand.borderSide .top).name value).toOption.isSome) ∧
        ∀ all, (expand Shorthand.border.name value).toOption = some all →
          ∃ sides : Side → Longhands,
            (∀ side, (expand (Shorthand.borderSide side).name value).toOption =
              some (sides side)) ∧
            SameMap all (Side.all.flatMap sides) := by
  refine ⟨fun shorthand value other any perm => ?_, fun value other perm positions => ?_,
    fun value => ?_⟩
  · have noFont : shorthand ≠ .font := by
      rintro rfl
      cases any
    exact expand_sameMap noFont perm (Shorthand.expand?_perm any perm)
  · exact expand_sameMap (by decide) perm (Shorthand.expand?_background_perm perm positions)
  · rcases expand_border_cases value with ⟨noneAll, noneSide⟩ | ⟨all, sides, read, each, same⟩
    · rw [noneAll, noneSide]
      exact ⟨Iff.rfl, nofun⟩
    · rw [read, each]
      refine ⟨Iff.rfl, ?_⟩
      rintro _ ⟨⟩
      exact ⟨sides, each, same⟩

/-- A line shorthand and a background, each with its components moved about; the background keeps
its two coordinates in their order, as it has to. -/
theorem expand_in_any_order_thin :
    let line := "thin solid red"
    let turned := " red thin  solid"
    let back := "left red url(a) 10%"
    let turnedBack := "url(a) left 10% red"
    (Component.split line).Perm (Component.split turned) ∧
      Option.Rel SameMap (expand Shorthand.outline.name line).toOption
        (expand Shorthand.outline.name turned).toOption ∧
      (Component.split back).Perm (Component.split turnedBack) ∧
      (Component.split back).filter Shorthand.isPosition =
        (Component.split turnedBack).filter Shorthand.isPosition ∧
      Option.Rel SameMap (expand Shorthand.background.name back).toOption
        (expand Shorthand.background.name turnedBack).toOption ∧
      ∃ all, (expand Shorthand.border.name line).toOption = some all ∧ all.length = 12 ∧
        ∃ sides : Side → Longhands,
          (∀ side, (expand (Shorthand.borderSide side).name line).toOption = some (sides side)) ∧
          SameMap all (Side.all.flatMap sides) := by
  intro line turned back turnedBack
  have perm : (Component.split line).Perm (Component.split turned) := by decide +kernel
  have backPerm : (Component.split back).Perm (Component.split turnedBack) := by decide +kernel
  have positions : (Component.split back).filter Shorthand.isPosition =
      (Component.split turnedBack).filter Shorthand.isPosition := by decide +kernel
  have twelve : (expand Shorthand.border.name line).toOption.map List.length = some 12 := by
    decide +kernel
  obtain ⟨all, read, long⟩ := Option.map_eq_some_iff.mp twelve
  obtain ⟨any, background, border⟩ := expand_in_any_order
  exact ⟨perm, any .outline line turned rfl perm, backPerm, positions,
    background back turnedBack backPerm positions, all, read, long, (border line).2 all read⟩

end Declaration

end StyleCascade
