import Mathlib.Data.List.Basic
import StyleCascade.Proofs.Declared.Components

namespace StyleCascade

namespace Component

section Gaps

/-- Parts of a text, in order, with nothing but white space around them. -/
inductive Tiles : List Char → List (List Char) → Prop
  | nil : Tiles [] []
  | white {c : Char} {text : List Char} {parts : List (List Char)} (space : Ascii.isSpace c = true)
      (behind : Tiles text parts) : Tiles (c :: text) parts
  | part {part text : List Char} {parts : List (List Char)} (filled : part ≠ [])
      (behind : Tiles text parts) : Tiles (part ++ text) (part :: parts)

variable {text : List Char} {parts : List (List Char)}

theorem Tiles.finish (part : List Char) (behind : Tiles text parts) :
    Tiles (part.reverse ++ text) (finish part ++ parts) := by
  cases part with
  | nil => exact behind
  | cons c part =>
    have filled : (c :: part).reverse ≠ [] := by simp
    exact .part filled behind

theorem Tiles.last (part : List Char) : Tiles part.reverse (Component.finish part) := by
  have whole := Tiles.nil.finish part
  rwa [List.append_nil, List.append_nil] at whole

/-- Every character is in a component, or it is white space. -/
theorem tiles_splitFrom (part : List Char) (depth : Nat) (quote : Option Char) (text : List Char) :
    Tiles (part.reverse ++ text) (splitFrom part depth quote text) := by
  -- a character that is kept stands behind the part
  have goesOn {c : Char} {part rest : List Char} {parts : List (List Char)}
      (tiles : Tiles ((c :: part).reverse ++ rest) parts) :
      Tiles (part.reverse ++ c :: rest) parts := by
    rwa [List.reverse_cons, List.append_assoc, List.singleton_append] at tiles
  fun_induction splitFrom part depth quote text with
  | case1 part depth =>
    rw [List.append_nil]
    exact .last part
  | case2 part depth q =>
    exact goesOn (by rw [List.append_nil]; exact .last _)
  | case3 part depth q kept more ih => exact goesOn (goesOn ih)
  | case4 part depth c rest q _ ih => exact goesOn ih
  | case5 part depth c rest _ ih => exact goesOn ih
  | case6 part depth rest _ ih => exact goesOn ih
  | case7 part depth rest _ _ ih => exact goesOn ih
  | case8 part depth c rest _ _ _ comma ih =>
    exact Tiles.finish part (.part (List.cons_ne_nil c []) ih)
  | case9 part depth c rest _ _ _ _ white ih =>
    exact Tiles.finish part (.white (Bool.and_eq_true_iff.mp white).1 ih)
  | case10 part depth c rest _ _ _ _ _ ih => exact goesOn ih

/-- The texts of parts, and of the white space in front of and behind each of them, make up the
whole. -/
theorem Tiles.spread (tiles : Tiles text parts) :
    ∃ (front : String) (gaps : List String), gaps.length = parts.length ∧
      (∀ gap ∈ front :: gaps, ∀ c ∈ gap.toList, Ascii.isSpace c = true) ∧
      String.ofList text =
        front ++ String.join (List.zipWith (· ++ ·) (parts.map String.ofList) gaps) := by
  induction tiles with
  | nil => exact ⟨"", [], rfl, by simp, rfl⟩
  | @white c text parts space behind ih =>
    obtain ⟨front, gaps, count, blank, whole⟩ := ih
    obtain ⟨blankFront, blankGaps⟩ := List.forall_mem_cons.mp blank
    refine ⟨String.ofList [c] ++ front, gaps, count, List.forall_mem_cons.mpr ⟨?_, blankGaps⟩, ?_⟩
    · rw [String.toList_append, String.toList_ofList]
      exact List.forall_mem_cons.mpr ⟨space, blankFront⟩
    · rw [String.append_assoc, ← whole, ← String.ofList_append]
      rfl
  | @part part text parts filled behind ih =>
    obtain ⟨front, gaps, count, blank, whole⟩ := ih
    refine ⟨"", front :: gaps, congrArg (· + 1) count, ?_, ?_⟩
    · exact List.forall_mem_cons.mpr ⟨by simp, blank⟩
    · rw [List.map_cons, List.zipWith_cons_cons, String.join_cons, String.ofList_append, whole,
        String.append_assoc]
      exact String.empty_append.symm

theorem Tiles.filled (tiles : Tiles text parts) : ∀ part ∈ parts, part ≠ [] := by
  induction tiles with
  | nil => simp
  | white _ _ ih => exact ih
  | part filled _ ih => exact List.forall_mem_cons.mpr ⟨filled, ih⟩

end Gaps

section Again

variable {part : List Char} {parts : List (List Char)} {depth : Nat} {quote : Option Char}

/-- A part that is read so far is read in the same way from its own start, whatever is behind. -/
def Reread (part : List Char) (depth : Nat) (quote : Option Char) : Prop :=
  ∀ rest, splitFrom [] 0 none (part.reverse ++ rest) = splitFrom part depth quote rest

theorem Reread.nil : Reread [] 0 none :=
  fun _ => rfl

/-- A character that does not end a part belongs to it when it is read anew. -/
theorem Reread.step {c : Char} {deeper : Nat} {quoted : Option Char}
    (reread : Reread part depth quote)
    (step : ∀ rest, splitFrom part depth quote (c :: rest) = splitFrom (c :: part) deeper quoted rest) :
    Reread (c :: part) deeper quoted := by
  intro rest
  rw [List.reverse_cons, List.append_assoc, List.singleton_append, reread, step]

/-- A component that leaves nothing open: alone it is the only one, and behind it and a space
splitting begins anew. -/
structure Closed (part : List Char) : Prop where
  alone : splitFrom [] 0 none part = [part]
  before : ∀ rest, splitFrom [] 0 none (part ++ ' ' :: rest) = part :: splitFrom [] 0 none rest

/-- Components of which each is the only one of its own text, and all but the last one leave nothing
open. -/
inductive Stable : List (List Char) → Prop
  | nil : Stable []
  | last {part : List Char} (alone : splitFrom [] 0 none part = [part]) : Stable [part]
  | cons {part : List Char} {parts : List (List Char)} (closed : Closed part)
      (others : Stable parts) : Stable (part :: parts)

theorem closed_comma : Closed [','] :=
  ⟨rfl, fun _ => rfl⟩

theorem Reread.closed (reread : Reread part 0 none) (filled : part ≠ []) : Closed part.reverse where
  alone := by
    have alone := reread []
    rwa [List.append_nil, splitFrom, finish_of_ne_nil filled] at alone
  before rest := by
    rw [reread (' ' :: rest), splitFrom_space, finish_of_ne_nil filled, List.singleton_append]

theorem Stable.finish_append (reread : Reread part 0 none) (others : Stable parts) :
    Stable (finish part ++ parts) := by
  by_cases filled : part = []
  · rw [filled]
    exact others
  · rw [finish_of_ne_nil filled]
    exact .cons (reread.closed filled) others

theorem Stable.finish (read : splitFrom [] 0 none part.reverse = finish part) :
    Stable (Component.finish part) := by
  by_cases filled : part = []
  · rw [filled]
    exact .nil
  · rw [finish_of_ne_nil filled] at read ⊢
    exact .last read

/-- Where a part is cut, nothing is open, and the next one is read from the start. -/
theorem stable_splitFrom (reread : Reread part depth quote) (text : List Char) :
    Stable (splitFrom part depth quote text) := by
  fun_induction splitFrom part depth quote text with
  | case1 part depth quote =>
    have alone := reread []
    rw [List.append_nil, splitFrom] at alone
    exact .finish alone
  | case2 part depth q =>
    have alone := reread ['\\']
    exact .finish (by simpa [splitFrom] using alone)
  | case3 part depth q kept more ih =>
    refine ih fun rest => ?_
    have behind := reread ('\\' :: kept :: rest)
    simpa [splitFrom] using behind
  | case4 part depth c rest q noEscape ih =>
    refine ih (reread.step fun rest => ?_)
    rw [splitFrom.eq_def]
    exact if_neg noEscape
  | case5 part depth c rest quotes ih =>
    exact ih (reread.step fun _ => by simp only [splitFrom, if_pos quotes])
  | case6 part depth rest _ ih => exact ih (reread.step fun _ => rfl)
  | case7 part depth rest _ _ ih => exact ih (reread.step fun _ => rfl)
  | case8 part depth c rest noQuote noOpen noClose comma ih =>
    simp only [Bool.and_eq_true, decide_eq_true_eq] at comma
    obtain ⟨rfl, rfl⟩ := comma
    exact .finish_append reread (.cons closed_comma (ih .nil))
  | case9 part depth c rest noQuote noOpen noClose noComma white ih =>
    simp only [Bool.and_eq_true, decide_eq_true_eq] at white
    obtain ⟨white, rfl⟩ := white
    exact .finish_append reread (ih .nil)
  | case10 part depth c rest noQuote noOpen noClose noComma noSpace ih =>
    exact ih (reread.step fun _ => by
      simp only [splitFrom, if_neg noQuote, if_neg noOpen, if_neg noClose, if_neg noComma,
        if_neg noSpace])

theorem Stable.alone (stable : Stable parts) : ∀ part ∈ parts, splitFrom [] 0 none part =
    [part] := by
  induction stable with
  | nil => simp
  | last alone => simpa using alone
  | cons closed _ ih => exact List.forall_mem_cons.mpr ⟨closed.alone, ih⟩

/-- With spaces between them, the components are read one after the other. -/
theorem Stable.joined (stable : Stable parts) :
    splitFrom [] 0 none ([' '].intercalate parts) = parts := by
  induction stable with
  | nil => rfl
  | last alone => rwa [List.intercalate_singleton]
  | @cons part parts closed others ih =>
    cases parts with
    | nil => rw [List.intercalate_singleton, closed.alone]
    | cons second parts =>
      rw [List.intercalate_cons_cons, List.append_assoc, List.singleton_append, closed.before, ih]

end Again

/-- Splitting loses nothing and is stable. The components of a text are not empty, and stand in it
in order, with nothing but white space in front of, between and behind them. Each of them is the
only component of its own text, and all of them are those of their texts with single spaces between
them. -/
theorem split_loses_nothing (text : String) :
    (∀ part ∈ split text, part ≠ "" ∧ split part = [part]) ∧
    (∃ (front : String) (gaps : List String), gaps.length = (split text).length ∧
      (∀ gap ∈ front :: gaps, ∀ c ∈ gap.toList, Ascii.isSpace c = true) ∧
      text = front ++ String.join (List.zipWith (· ++ ·) (split text) gaps)) ∧
    split (" ".intercalate (split text)) = split text := by
  have tiles : Tiles text.toList (splitFrom [] 0 none text.toList) :=
    tiles_splitFrom [] 0 none text.toList
  have stable : Stable (splitFrom [] 0 none text.toList) := stable_splitFrom .nil text.toList
  refine ⟨fun part listed => ?_, ?_, ?_⟩
  · obtain ⟨chars, read, rfl⟩ := List.mem_map.mp listed
    refine ⟨fun empty => tiles.filled chars read ?_, ?_⟩
    · simpa using empty
    · rw [split, String.toList_ofList, stable.alone chars read, List.map_singleton]
  · obtain ⟨front, gaps, count, blank, whole⟩ := tiles.spread
    rw [String.ofList_toList] at whole
    exact ⟨front, gaps, by rw [split, List.length_map, count], blank, whole⟩
  · have chars : (" ".intercalate (split text)).toList =
        [' '].intercalate (splitFrom [] 0 none text.toList) := by
      rw [String.toList_intercalate, split, List.map_map]
      simp [Function.comp_def]
    rw [split, chars, stable.joined]
    rfl

/-- Commas stand for themselves, and quotes that nothing closes go to the end. -/
example : split " a( b, c ),'d\\' ;\\" = ["a( b, c )", ",", "'d\\' ;\\"] := by
  decide +kernel

end Component

end StyleCascade
