import Mathlib.Data.List.DropRight
import StyleCascade.Proofs.Declared.Components

namespace StyleCascade

/-- Decimal digits, at least one of them. -/
def IsDigits (chars : List Char) : Prop :=
  chars ≠ [] ∧ ∀ c ∈ chars, c.isDigit = true

/-- The texts of numbers without a sign. -/
inductive UnsignedNumber : List Char → Prop
  | whole {digits : List Char} (run : IsDigits digits) : UnsignedNumber digits
  | pointed {digits fraction : List Char} (run : IsDigits digits)
      (behind : ∀ c ∈ fraction, c.isDigit = true) : UnsignedNumber (digits ++ '.' :: fraction)
  | fraction {digits : List Char} (run : IsDigits digits) : UnsignedNumber ('.' :: digits)

/-- The texts of numbers. -/
inductive SignedNumber : List Char → Prop
  | bare {chars : List Char} (number : UnsignedNumber chars) : SignedNumber chars
  | signed {sign : Char} {chars : List Char} (mark : sign = '+' ∨ sign = '-')
      (number : UnsignedNumber chars) : SignedNumber (sign :: chars)

/-- The value that a number with a suffix writes. A number alone keeps its source. -/
inductive Value.Suffixed (value : Float) (source : List Char) : List Char → Value → Prop
  | number : Suffixed value source [] (.number value (String.ofList source))
  | percent : Suffixed value source ['%'] (.percent value)
  | dimension {suffix : List Char} (unit : LengthUnit)
      (letters : suffix.map Char.toLower = unit.suffix.toList) :
      Suffixed value source suffix (.dimension value unit)

/-- Digits end where no digit follows. -/
theorem span_digits {digits rest : List Char} (all : ∀ c ∈ digits, c.isDigit = true)
    (ends : ∀ c ∈ rest.head?, c.isDigit = false) :
    (digits ++ rest).takeWhile Char.isDigit = digits ∧
      (digits ++ rest).dropWhile Char.isDigit = rest := by
  rw [List.takeWhile_append_of_pos all, List.dropWhile_append_of_pos all]
  cases rest with
  | nil => simp
  | cons c others => simp [ends c rfl]

namespace Numeral

/-- A sign is one of two, and digits are digits; there are some. -/
structure WellFormed (numeral : Numeral) : Prop where
  sign : ∀ c ∈ numeral.sign, c = '+' ∨ c = '-'
  whole : ∀ c ∈ numeral.whole, c.isDigit = true
  fraction : ∀ digits ∈ numeral.fraction, ∀ c ∈ digits, c.isDigit = true
  filled : numeral.whole ≠ [] ∨ ∃ digits ∈ numeral.fraction, digits ≠ []

section

variable {numeral : Numeral} {source rest : List Char}

theorem wellFormed_of_read? (read : read? source = some (numeral, rest)) : numeral.WellFormed := by
  have sign : ∀ c ∈ (splitSign source).1, c = '+' ∨ c = '-' := by
    unfold splitSign
    split
    · split
      · next mark =>
        rintro _ ⟨⟩
        simpa using mark
      · rintro _ ⟨⟩
    · rintro _ ⟨⟩
  have digits (source : List Char) : ∀ c ∈ source.takeWhile Char.isDigit, c.isDigit = true :=
    List.all_eq_true.mp List.all_takeWhile
  simp only [read?] at read
  split at read
  · next behind point =>
    split at read <;> cases read
    next filled =>
    refine ⟨sign, digits _, ?_, ?_⟩
    · rintro _ ⟨⟩
      exact digits behind
    · by_cases whole : (splitSign source).2.takeWhile Char.isDigit = []
      · exact Or.inr ⟨_, rfl, fun none => filled (by simp [whole, none])⟩
      · exact Or.inl whole
  · split at read <;> cases read
    next filled =>
    refine ⟨sign, digits _, ?_, Or.inl filled⟩
    rintro _ ⟨⟩

/-- A text that cannot go on with a numeral. -/
def Ends (rest : List Char) : Prop :=
  ∀ c ∈ rest.head?, c.isDigit = false ∧ c ≠ '.'

theorem splitSign_unsigned {first : Char} (noSign : first ≠ '+' ∧ first ≠ '-') (rest : List Char) :
    splitSign (first :: rest) = (none, first :: rest) := by
  simp only [splitSign, noSign, decide_false, Bool.or_self, Bool.false_eq_true, if_false]

/-- A sign is split off in front of a digit or a point. -/
theorem splitSign_append {sign : Option Char} (signs : ∀ c ∈ sign, c = '+' ∨ c = '-') {first : Char}
    (number : first.isDigit = true ∨ first = '.') (rest : List Char) :
    splitSign (sign.toList ++ first :: rest) = (sign, first :: rest) := by
  cases sign with
  | none =>
    have noSign : first ≠ '+' ∧ first ≠ '-' := by
      constructor <;> rintro rfl <;> revert number <;> decide
    exact splitSign_unsigned noSign rest
  | some c =>
    rcases signs c rfl with rfl | rfl <;> rfl

/-- A numeral is read back from its characters, with anything behind it that is no part of one. -/
theorem read?_append (formed : numeral.WellFormed) (ends : Ends rest) :
    read? (numeral.chars ++ rest) = some (numeral, rest) := by
  obtain ⟨sign, whole, fraction⟩ := numeral
  obtain ⟨signs, digits, fractions, filled⟩ := formed
  cases fraction with
  | none =>
    have someDigit : whole ≠ [] := filled.resolve_right (by simp)
    obtain ⟨first, others, rfl⟩ := List.exists_cons_of_ne_nil someDigit
    have split : splitSign (chars ⟨sign, first :: others, none⟩ ++ rest) =
        (sign, first :: others ++ rest) := by
      simp only [chars, List.append_nil, List.append_assoc]
      exact splitSign_append signs (Or.inl (digits first List.mem_cons_self)) _
    obtain ⟨front, behind⟩ := span_digits digits fun c head => (ends c head).1
    simp only [read?, split, front, behind]
    split
    · exact absurd rfl (ends _ rfl).2
    · rfl
  | some fraction =>
    have split : splitSign (chars ⟨sign, whole, some fraction⟩ ++ rest) =
        (sign, whole ++ '.' :: (fraction ++ rest)) := by
      simp only [chars, List.append_assoc, List.cons_append]
      cases whole with
      | nil => exact splitSign_append signs (Or.inr rfl) _
      | cons first others =>
        exact splitSign_append signs (Or.inl (digits first List.mem_cons_self)) _
    have point : ∀ c ∈ ('.' :: (fraction ++ rest)).head?, c.isDigit = false := by
      rintro _ ⟨⟩
      rfl
    obtain ⟨front, behind⟩ := span_digits digits point
    obtain ⟨frontFraction, behindFraction⟩ :=
      span_digits (fractions fraction rfl) fun c head => (ends c head).1
    have someDigit : ¬(decide (whole = []) && decide (fraction = [])) = true := by
      simpa [imp_iff_not_or] using filled
    simp only [read?, split, front, behind, frontFraction, behindFraction, if_neg someDigit]

/-- Numbers are the characters of numerals. -/
theorem signedNumber_iff {number : List Char} :
    SignedNumber number ↔ ∃ numeral : Numeral, numeral.WellFormed ∧ numeral.chars = number := by
  constructor
  · have unsigned (sign : Option Char) (signs : ∀ c ∈ sign, c = '+' ∨ c = '-') {chars : List Char}
        (number : UnsignedNumber chars) :
        ∃ numeral : Numeral, numeral.WellFormed ∧ numeral.chars = sign.toList ++ chars := by
      cases number with
      | whole run =>
        exact ⟨⟨sign, chars, none⟩, ⟨signs, run.2, by simp, Or.inl run.1⟩, List.append_nil _⟩
      | @pointed digits fraction run behind =>
        exact ⟨⟨sign, digits, some fraction⟩, ⟨signs, run.2, by simpa using behind, Or.inl run.1⟩,
          List.append_assoc ..⟩
      | @fraction digits run =>
        exact ⟨⟨sign, [], some digits⟩,
          ⟨signs, by simp, by simpa using run.2, Or.inr ⟨digits, rfl, run.1⟩⟩, by simp [chars]⟩
    rintro (number | ⟨mark, number⟩)
    · exact unsigned none (by simp) number
    · exact unsigned (some _) (by simpa using mark) number
  · rintro ⟨⟨sign, whole, fraction⟩, ⟨signs, digits, fractions, filled⟩, rfl⟩
    have number : UnsignedNumber (whole ++ (fraction.map ('.' :: ·)).getD []) := by
      cases fraction with
      | none =>
        rw [Option.map_none, Option.getD_none, List.append_nil]
        exact .whole ⟨filled.resolve_right (by simp), digits⟩
      | some fraction =>
        by_cases none : whole = []
        · subst none
          exact .fraction ⟨by simpa using filled, fractions fraction rfl⟩
        · exact .pointed ⟨none, digits⟩ (fractions fraction rfl)
    have shape : chars ⟨sign, whole, fraction⟩ =
        sign.toList ++ (whole ++ (fraction.map ('.' :: ·)).getD []) := by
      cases fraction <;> simp [chars]
    rw [shape]
    cases sign with
    | none => exact .bare number
    | some c => exact .signed (signs c rfl) number

/-- A digit or a point is no part of a word for an infinity or for no number. -/
theorem read?_of_sign {sign : Option Char} (signs : ∀ c ∈ sign, c = '+' ∨ c = '-') {first : Char}
    (number : first.isDigit = true ∨ first = '.') (others : List Char) :
    Number.read? (String.ofList (sign.toList ++ first :: others)) =
      Number.readDecimal? (sign = some '-') (first :: others) := by
  have split : Number.splitSign (sign.toList ++ first :: others) =
      (decide (sign = some '-'), first :: others) := by
    cases sign with
    | none =>
      have noSign : first ≠ '+' ∧ first ≠ '-' := by
        constructor <;> rintro rfl <;> revert number <;> decide
      simp [Number.splitSign, noSign]
    | some c =>
      rcases signs c rfl with rfl | rfl <;> rfl
  have noLetter : first.toLower ≠ 'i' ∧ first.toLower ≠ 'n' := by
    rcases number with digit | rfl
    · have plain : Text.isPlainChar first = true := by
        simp only [Text.isPlainChar, Char.isAlphanum, digit, Bool.or_true, Bool.true_or]
      exact Text.of_isPlainChar
        (motive := fun c => c.isDigit = true → c.toLower ≠ 'i' ∧ c.toLower ≠ 'n')
        (by decide) plain digit
    · decide
  have noWord (word : List Char) (begins : word.head? = some 'i' ∨ word.head? = some 'n') :
      String.ofList ((first :: others).map Char.toLower) ≠ String.ofList word := by
    intro same
    rw [String.ofList_inj] at same
    rw [← same] at begins
    exact begins.elim (fun i => noLetter.1 (Option.some.inj i))
      (fun n => noLetter.2 (Option.some.inj n))
  have noInf : String.ofList ((first :: others).map Char.toLower) ≠ "inf" :=
    noWord ['i', 'n', 'f'] (Or.inl rfl)
  have noInfinity : String.ofList ((first :: others).map Char.toLower) ≠ "infinity" :=
    noWord ['i', 'n', 'f', 'i', 'n', 'i', 't', 'y'] (Or.inl rfl)
  have noNan : String.ofList ((first :: others).map Char.toLower) ≠ "nan" :=
    noWord ['n', 'a', 'n'] (Or.inr rfl)
  simp only [Number.read?, String.toList_ofList, split, noInf, noInfinity, noNan, decide_false,
    Bool.or_self, Bool.false_eq_true, if_false]

theorem readDecimal?_whole {whole : List Char} (run : IsDigits whole) (negative : Bool) :
    Number.readDecimal? negative whole =
      some (Number.ofDecimal negative (Ascii.decimalNumber whole) 0) := by
  have front := List.takeWhile_eq_self_iff.mpr run.2
  have behind := List.dropWhile_eq_nil_iff.mpr run.2
  simp only [Number.readDecimal?, front, behind]
  simp [Number.readExponent?, run.1]

/-- A numeral with a point is the number of all its digits, scaled by one power of ten for each
digit behind the point. -/
theorem readDecimal?_pointed {whole fraction : List Char} (digits : ∀ c ∈ whole, c.isDigit = true)
    (run : IsDigits fraction) (negative : Bool) :
    Number.readDecimal? negative (whole ++ '.' :: fraction) =
      some (Number.ofDecimal negative (Ascii.decimalNumber (whole ++ fraction))
        (-fraction.length)) := by
  have point : ∀ c ∈ ('.' :: fraction).head?, c.isDigit = false := by
    rintro _ ⟨⟩
    rfl
  obtain ⟨front, behind⟩ := span_digits digits point
  have frontFraction := List.takeWhile_eq_self_iff.mpr run.2
  have behindFraction := List.dropWhile_eq_nil_iff.mpr run.2
  simp only [Number.readDecimal?, front, behind, frontFraction, behindFraction]
  simp [Number.readExponent?, run.1]

theorem rdropWhile_digits {run : List Char} (digits : IsDigits run) (front : List Char) :
    (front ++ run).rdropWhile (· = '.') = front ++ run := by
  refine List.rdropWhile_eq_self_iff.mpr fun nonempty point => ?_
  rw [List.getLast_append_of_ne_nil _ digits.1] at point
  have digit := digits.2 _ (List.getLast_mem digits.1)
  rw [of_decide_eq_true point] at digit
  cases digit

/-- A numeral without a point at its end is read as a number of the same value. -/
theorem read?_number (formed : numeral.WellFormed) :
    Number.read? (String.ofList (numeral.chars.rdropWhile (· = '.'))) = some numeral.value := by
  obtain ⟨sign, whole, fraction⟩ := numeral
  obtain ⟨signs, digits, fractions, filled⟩ := formed
  -- without digits behind it, the point does not matter
  have alone (run : IsDigits whole) :
      Number.read? (String.ofList (sign.toList ++ whole)) =
        some (value ⟨sign, whole, some []⟩) := by
    have read := readDecimal?_whole run (sign = some '-')
    obtain ⟨first, others, rfl⟩ := List.exists_cons_of_ne_nil run.1
    rw [read?_of_sign signs (Or.inl (run.2 first List.mem_cons_self)), read]
    simp [value]
  rcases fraction with _ | _ | ⟨digit, fraction⟩
  · have run : IsDigits whole := ⟨filled.resolve_right (by simp), digits⟩
    have shape : chars ⟨sign, whole, none⟩ = sign.toList ++ whole := List.append_nil _
    rw [shape, rdropWhile_digits run]
    exact alone run
  · have run : IsDigits whole := ⟨filled.resolve_right (by simp), digits⟩
    have shape : chars ⟨sign, whole, some []⟩ = (sign.toList ++ whole) ++ ['.'] := rfl
    rw [shape, List.rdropWhile_concat_pos _ _ _ (by simp), rdropWhile_digits run]
    exact alone run
  · have run : IsDigits (digit :: fraction) := ⟨by simp, fractions _ rfl⟩
    have read := readDecimal?_pointed digits run (sign = some '-')
    have shape : chars ⟨sign, whole, some (digit :: fraction)⟩ =
        sign.toList ++ (whole ++ '.' :: digit :: fraction) := List.append_assoc ..
    have dropped : (chars ⟨sign, whole, some (digit :: fraction)⟩).rdropWhile (· = '.') =
        sign.toList ++ (whole ++ '.' :: digit :: fraction) := by
      rw [shape]
      simpa using rdropWhile_digits run (sign.toList ++ (whole ++ ['.']))
    rw [dropped]
    cases whole with
    | nil =>
      rw [List.nil_append, read?_of_sign signs (Or.inr rfl)]
      exact read
    | cons first others =>
      rw [List.cons_append, read?_of_sign signs (Or.inl (digits first List.mem_cons_self))]
      exact read

end

end Numeral

theorem LengthUnit.suffix_of_ofSuffix? {word : String} {unit : LengthUnit}
    (found : ofSuffix? word = some unit) : unit.suffix = word := by
  unfold ofSuffix? at found
  simpa using List.find?_some found

namespace Component

variable {text : String} {numeral : Numeral} {suffix : List Char} {value : Value}

theorem isAlpha_of_toLower {c : Char} (letter : c.toLower.isAlpha = true) : c.isAlpha = true :=
  Text.of_toLower (motive := fun form c => form.isAlpha = true → c.isAlpha = true) (by decide)
    (fun _ => id) letter

/-- A unit is written in letters. -/
theorem isAlpha_of_unit {unit : LengthUnit}
    (letters : suffix.map Char.toLower = unit.suffix.toList) :
    suffix ≠ [] ∧ ∀ c ∈ suffix, c.isAlpha = true := by
  have written : unit.suffix.toList ≠ [] ∧ unit.suffix.toList.all Char.isAlpha = true := by
    cases unit <;> decide
  rw [← letters, List.all_eq_true] at written
  exact ⟨by simpa using written.1, fun c listed =>
    isAlpha_of_toLower (written.2 _ (List.mem_map_of_mem listed))⟩

/-- The suffix alone decides whether a numeral makes a number, a percentage or a length, and of
which unit. -/
theorem ofNumeral?_eq_some_iff :
    ofNumeral? numeral suffix = some value ↔
      Value.Suffixed numeral.value numeral.chars suffix value := by
  constructor
  · intro found
    unfold ofNumeral? at found
    split at found
    · cases found
      exact .number
    · cases found
      exact .percent
    · split at found
      · obtain ⟨unit, read, rfl⟩ := Option.map_eq_some_iff.mp found
        exact .dimension unit (by rw [LengthUnit.suffix_of_ofSuffix? read, String.toList_ofList])
      · cases found
  · rintro (_ | _ | ⟨unit, letters⟩)
    · rfl
    · rfl
    · obtain ⟨filled, alphabetic⟩ := isAlpha_of_unit letters
      have noPercent : suffix ≠ ['%'] := by
        rintro rfl
        exact absurd (alphabetic '%' List.mem_cons_self) (by decide)
      unfold ofNumeral?
      split
      · exact absurd rfl filled
      · exact absurd rfl noPercent
      · rw [if_pos (List.all_eq_true.mpr alphabetic), letters, String.ofList_toList,
          LengthUnit.ofSuffix?_suffix]
        rfl

/-- A suffix is no part of a numeral. -/
theorem ends_of_suffixed {number : Float} {source : List Char}
    (suffixed : Value.Suffixed number source suffix value) : Numeral.Ends suffix := by
  cases suffixed with
  | number => rintro _ ⟨⟩
  | percent =>
    rintro _ ⟨⟩
    decide
  | dimension unit letters =>
    intro c head
    have letter := (isAlpha_of_unit letters).2 c (List.mem_of_mem_head? head)
    have plain : Text.isPlainChar c = true := by
      simp only [Text.isPlainChar, Char.isAlphanum, letter, Bool.true_or]
    exact Text.of_isPlainChar (motive := fun c => c.isAlpha = true → c.isDigit = false ∧ c ≠ '.')
      (by decide) plain letter

/-- The easy half of the grammar: a numeral followed by a suffix that its value fits is read as that
value. -/
theorem numeric?_of_suffixed (shape : text.toList = numeral.chars ++ suffix)
    (formed : numeral.WellFormed)
    (suffixed : Value.Suffixed numeral.value numeral.chars suffix value) :
    numeric? text = some value := by
  rw [numeric?, shape, Numeral.read?_append formed (ends_of_suffixed suffixed)]
  exact ofNumeral?_eq_some_iff.mpr suffixed

/-- A text is a number, a percentage or a dimension just if it is a number with nothing, a percent
sign or a unit behind it. The number is read to the end, and without a point there its value is what
the text of a number is read as. -/
theorem numeric?_eq_some_iff (text : String) :
    ((numeric? text).isSome = true ↔ ∃ number suffix, text.toList = number ++ suffix ∧
      SignedNumber number ∧ (suffix = [] ∨ suffix = ['%'] ∨
        ∃ unit : LengthUnit, suffix.map Char.toLower = unit.suffix.toList)) ∧
    ∀ value, numeric? text = some value ↔ ∃ number suffix numeral,
      text.toList = number ++ suffix ∧ SignedNumber number ∧
        Numeral.read? number = some (numeral, []) ∧
        Number.read? (String.ofList (number.rdropWhile (· = '.'))) = some numeral.value ∧
        Value.Suffixed numeral.value number suffix value := by
  have each : ∀ value, numeric? text = some value ↔ ∃ number suffix numeral,
      text.toList = number ++ suffix ∧ SignedNumber number ∧
        Numeral.read? number = some (numeral, []) ∧
        Number.read? (String.ofList (number.rdropWhile (· = '.'))) = some numeral.value ∧
        Value.Suffixed numeral.value number suffix value := by
    intro value
    constructor
    · intro found
      unfold numeric? at found
      split at found
      · next numeral suffix read =>
        have formed := Numeral.wellFormed_of_read? read
        have nothingBehind : Numeral.Ends [] := by rintro _ ⟨⟩
        have whole := Numeral.read?_append formed nothingBehind
        rw [List.append_nil] at whole
        exact ⟨numeral.chars, suffix, numeral, Numeral.eq_append_of_read? read,
          Numeral.signedNumber_iff.mpr ⟨numeral, formed, rfl⟩, whole, Numeral.read?_number formed,
          ofNumeral?_eq_some_iff.mp found⟩
      · cases found
    · rintro ⟨number, suffix, numeral, shape, -, whole, -, suffixed⟩
      obtain rfl : number = numeral.chars := by
        rw [Numeral.eq_append_of_read? whole, List.append_nil]
      exact numeric?_of_suffixed shape (Numeral.wellFormed_of_read? whole) suffixed
  refine ⟨?_, each⟩
  constructor
  · intro found
    obtain ⟨value, found⟩ := Option.isSome_iff_exists.mp found
    obtain ⟨number, suffix, numeral, shape, signed, -, -, suffixed⟩ := (each value).mp found
    refine ⟨number, suffix, shape, signed, ?_⟩
    cases suffixed with
    | number => exact Or.inl rfl
    | percent => exact Or.inr (Or.inl rfl)
    | dimension unit letters => exact Or.inr (Or.inr ⟨unit, letters⟩)
  · rintro ⟨number, suffix, shape, signed, ends⟩
    obtain ⟨numeral, formed, rfl⟩ := Numeral.signedNumber_iff.mp signed
    have suffixed : ∃ value, Value.Suffixed numeral.value numeral.chars suffix value := by
      rcases ends with rfl | rfl | ⟨unit, letters⟩
      · exact ⟨_, .number⟩
      · exact ⟨_, .percent⟩
      · exact ⟨_, .dimension unit letters⟩
    obtain ⟨value, suffixed⟩ := suffixed
    exact Option.isSome_iff_exists.mpr ⟨value, numeric?_of_suffixed shape formed suffixed⟩

end Component

end StyleCascade
