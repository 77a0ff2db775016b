import Mathlib.Data.List.TakeWhile
import StyleCascade.Declared.Component
import StyleCascade.Proofs.Text.Plain

namespace StyleCascade

namespace Component

/-- Characters that neither part components nor open or close anything. -/
def isInner (c : Char) : Bool :=
  c ≠ '"' && c ≠ '\'' && c ≠ '(' && c ≠ ')' && c ≠ ',' && !Ascii.isSpace c

section

variable {chars rest : List Char} {part : List Char}

/-- Inner characters belong to the component that is read. -/
theorem splitFrom_inner (inner : ∀ c ∈ chars, isInner c = true) (part : List Char) (depth : Nat)
    (rest : List Char) :
    splitFrom part depth none (chars ++ rest) = splitFrom (chars.reverse ++ part) depth none rest := by
  induction chars generalizing part with
  | nil => rfl
  | cons c chars ih =>
    obtain ⟨first, others⟩ := List.forall_mem_cons.mp inner
    simp only [isInner, Bool.and_eq_true, decide_eq_true_eq, Bool.not_eq_true'] at first
    obtain ⟨⟨⟨⟨⟨noDouble, noSingle⟩, noOpen⟩, noClose⟩, noComma⟩, noSpace⟩ := first
    rw [List.cons_append, splitFrom]
    simp only [noDouble, noSingle, noOpen, noClose, noComma, noSpace, decide_false, Bool.or_self,
      Bool.false_and, Bool.false_eq_true, if_false]
    rw [ih others, List.reverse_cons, List.append_assoc]
    rfl

theorem splitFrom_space (part rest : List Char) :
    splitFrom part 0 none (' ' :: rest) = finish part ++ splitFrom [] 0 none rest :=
  rfl

theorem finish_of_ne_nil (filled : part ≠ []) : finish part = [part.reverse] := by
  rw [finish, if_neg (by simpa using filled)]

/-- A text that is a component as it stands, next to any others. -/
structure IsWord (text : String) : Prop where
  filled : text.toList ≠ []
  inner : ∀ c ∈ text.toList, isInner c = true

theorem IsWord.append {first second : String} (one : IsWord first) (other : IsWord second) :
    IsWord (first ++ second) := by
  constructor
  · rw [String.toList_append]
    exact List.append_ne_nil_of_left_ne_nil one.filled _
  · rw [String.toList_append]
    exact List.forall_mem_append.mpr ⟨one.inner, other.inner⟩

theorem IsWord.finish_eq {word : String} (isWord : IsWord word) :
    finish word.toList.reverse = [word.toList] := by
  rw [finish_of_ne_nil (List.reverse_eq_nil_iff.not.mpr isWord.filled), List.reverse_reverse]

/-- Behind a word and a space, splitting begins anew. -/
theorem IsWord.split_append {word : String} (isWord : IsWord word) (rest : String) :
    split (word ++ " " ++ rest) = word :: split rest := by
  have space : " ".toList = [' '] := rfl
  rw [split, String.toList_append, String.toList_append, space, List.append_assoc,
    splitFrom_inner isWord.inner, List.append_nil, List.cons_append, List.nil_append,
    splitFrom_space, isWord.finish_eq, List.singleton_append, List.map_cons, String.ofList_toList]
  rfl

theorem IsWord.split_eq {word : String} (isWord : IsWord word) : split word = [word] := by
  have whole := splitFrom_inner isWord.inner [] 0 []
  rw [List.append_nil, List.append_nil] at whole
  rw [split, whole, splitFrom, isWord.finish_eq, List.map_singleton, String.ofList_toList]

end

end Component

namespace Numeral

theorem eq_append_of_splitSign (source : List Char) :
    source = (splitSign source).1.toList ++ (splitSign source).2 := by
  unfold splitSign
  split
  · split <;> rfl
  · rfl

/-- A numeral stands in front of what is left behind it. -/
theorem eq_append_of_read? {source rest : List Char} {numeral : Numeral}
    (read : read? source = some (numeral, rest)) : source = numeral.chars ++ rest := by
  have sign := eq_append_of_splitSign source
  have whole := List.takeWhile_append_dropWhile (p := Char.isDigit) (l := (splitSign source).2)
  simp only [read?] at read
  split at read
  · next behind point =>
    have fraction := List.takeWhile_append_dropWhile (p := Char.isDigit) (l := behind)
    split at read <;> cases read
    rw [point] at whole
    simp only [chars, List.append_assoc, List.cons_append, fraction, whole, ← sign]
  · split at read <;> cases read
    simp only [chars, List.append_nil, List.append_assoc, whole, ← sign]

/-- The characters of numerals. -/
theorem mem_chars_of_read? {source rest : List Char} {numeral : Numeral}
    (read : read? source = some (numeral, rest)) :
    ∀ c ∈ numeral.chars, c.isDigit = true ∨ c ∈ ['+', '-', '.'] := by
  have signs : ∀ c ∈ (splitSign source).1.toList, c ∈ ['+', '-', '.'] := by
    unfold splitSign
    split
    · split
      · next sign =>
        simp only [Bool.or_eq_true, decide_eq_true_eq] at sign
        rcases sign with rfl | rfl <;> simp
      · simp
    · simp
  have digits (source : List Char) : ∀ c ∈ source.takeWhile Char.isDigit, c.isDigit = true :=
    List.all_eq_true.mp List.all_takeWhile
  simp only [read?] at read
  split at read
  · split at read <;> cases read
    intro c listed
    simp only [chars, List.mem_append, List.mem_cons] at listed
    rcases listed with (sign | whole) | rfl | fraction
    · exact Or.inr (signs c sign)
    · exact Or.inl (digits _ c whole)
    · exact Or.inr (by decide)
    · exact Or.inl (digits _ c fraction)
  · split at read <;> cases read
    intro c listed
    simp only [chars, List.append_nil, List.mem_append] at listed
    exact listed.elim (fun sign => Or.inr (signs c sign)) (fun whole => Or.inl (digits _ c whole))

end Numeral

/-- A value that a numeral writes. -/
def Value.isNumeric : Value → Bool
  | .number .. | .dimension .. | .percent _ => true
  | _ => false

namespace Component

/-- The characters of numerals with their suffixes. -/
def isNumericChar (c : Char) : Bool :=
  Text.isPlainChar c || c = '+' || c = '.' || c = '%'

section

variable {c : Char}

theorem isNumericChar_of_isAlphanum (alphanum : c.isAlphanum = true) : isNumericChar c = true := by
  simp only [isNumericChar, Text.isPlainChar, alphanum, Bool.true_or]

theorem isInner_of_isNumericChar (numeric : isNumericChar c = true) : isInner c = true := by
  simp only [isNumericChar, Bool.or_eq_true, decide_eq_true_eq] at numeric
  rcases numeric with ((plain | rfl) | rfl) | rfl
  · exact Text.of_isPlainChar (motive := fun c => isInner c = true) (by decide) plain
  · decide
  · decide
  · decide

end

variable {text : String}

theorem isNumeric_of_numeric? {value : Value} (found : numeric? text = some value) :
    value.isNumeric = true := by
  unfold numeric? ofNumeral? at found
  split at found
  · split at found
    · cases found; rfl
    · cases found; rfl
    · split at found
      · obtain ⟨unit, -, rfl⟩ := Option.map_eq_some_iff.mp found
        rfl
      · cases found
  · cases found

theorem numericChars_of_numeric? {value : Value} (found : numeric? text = some value) :
    text.toList ≠ [] ∧ ∀ c ∈ text.toList, isNumericChar c = true := by
  unfold numeric? at found
  split at found
  · next numeral rest read =>
    have shape := Numeral.eq_append_of_read? read
    have front : ∀ c ∈ numeral.chars, isNumericChar c = true := by
      intro c listed
      rcases Numeral.mem_chars_of_read? read c listed with digit | mark
      · exact isNumericChar_of_isAlphanum (by rw [Char.isAlphanum, digit, Bool.or_true])
      · simp only [List.mem_cons, List.not_mem_nil, or_false] at mark
        rcases mark with rfl | rfl | rfl <;> decide
    have behind : ∀ c ∈ rest, isNumericChar c = true := by
      unfold ofNumeral? at found
      split at found
      · simp
      · exact List.forall_mem_singleton.mpr (by decide)
      · split at found
        · next letters =>
          intro c listed
          have letter := List.all_eq_true.mp letters c listed
          exact isNumericChar_of_isAlphanum (by rw [Char.isAlphanum, letter, Bool.true_or])
        · cases found
    constructor
    · intro empty
      rw [empty] at read
      cases read
    · rw [shape]
      exact List.forall_mem_append.mpr ⟨front, behind⟩
  · cases found

theorem quotedChars?_of_inner {chars : List Char} (inner : ∀ c ∈ chars, isInner c = true) :
    quotedChars? chars = none := by
  cases chars with
  | nil => rfl
  | cons c rest =>
    have first := inner c List.mem_cons_self
    simp only [isInner, Bool.and_eq_true, decide_eq_true_eq] at first
    simp only [quotedChars?, first.1.1.1.1.1, first.1.1.1.1.2, decide_false, Bool.or_self,
      Bool.false_and, Bool.false_eq_true, if_false]

theorem splitFunction?_of_inner {chars : List Char} (inner : ∀ c ∈ chars, isInner c = true) :
    splitFunction? chars = none := by
  have nothing : chars.dropWhile (· ≠ '(') = [] := by
    refine List.dropWhile_eq_nil_iff.mpr fun c listed => ?_
    have noOpen := inner c listed
    simp only [isInner, Bool.and_eq_true] at noOpen
    exact noOpen.1.1.1.2
  simp only [splitFunction?, nothing]

/-- What is neither quoted, nor a hash, nor a function, is plain. -/
theorem classify_of_inner (inner : ∀ c ∈ text.toList, isInner c = true)
    (noHash : text.toList.head? ≠ some '#') : classify text = ofPlain text := by
  rw [classify, unquote?, quotedChars?_of_inner inner]
  simp only [Option.map_none]
  split
  · next shape => rw [shape] at noHash; exact absurd rfl noHash
  · rw [splitFunction?_of_inner inner]

/-- Numbers, percentages and dimensions are what numerals write. -/
theorem numeric?_of_classify (numeric : (classify text).isNumeric = true) :
    (numeric? text).isSome = true := by
  unfold classify at numeric
  split at numeric
  · cases numeric
  split at numeric
  · split at numeric <;> cases numeric
  split at numeric
  · unfold ofFunction at numeric
    split at numeric
    · cases numeric
    split at numeric <;> cases numeric
  unfold ofPlain at numeric
  split at numeric
  · next found => rw [found]; rfl
  · split at numeric <;> cases numeric

theorem numericChars_of_classify (numeric : (classify text).isNumeric = true) :
    text.toList ≠ [] ∧ ∀ c ∈ text.toList, isNumericChar c = true := by
  obtain ⟨value, found⟩ := Option.isSome_iff_exists.mp (numeric?_of_classify numeric)
  exact numericChars_of_numeric? found

theorem isWord_of_classify (numeric : (classify text).isNumeric = true) : IsWord text := by
  obtain ⟨filled, chars⟩ := numericChars_of_classify numeric
  exact ⟨filled, fun c listed => isInner_of_isNumericChar (chars c listed)⟩

end Component

end StyleCascade
