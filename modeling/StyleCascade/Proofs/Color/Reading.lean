import StyleCascade.Color
import StyleCascade.Proofs.Intern.Pool
import StyleCascade.Proofs.Text.Plain

namespace StyleCascade

namespace Color

/-- Each of the sixteen digits is a lowercase one, and stands for its own value. -/
theorem hexDigit_spec {value : Nat} (small : value < 16) :
    Ascii.hexValue (Ascii.hexDigit value) = value ∧ Ascii.isHexDigit (Ascii.hexDigit value) = true ∧
      (Ascii.hexDigit value).toLower = Ascii.hexDigit value ∧
      Text.isBlank (Ascii.hexDigit value) = false := by
  have each : ∀ digit : Fin 16, Ascii.hexValue (Ascii.hexDigit digit) = digit ∧
      Ascii.isHexDigit (Ascii.hexDigit digit) = true ∧
      (Ascii.hexDigit digit).toLower = Ascii.hexDigit digit ∧
      Text.isBlank (Ascii.hexDigit digit) = false := by decide
  exact each ⟨value, small⟩

theorem digits_of_hexPair (part : UInt8) :
    hexPart (hexPair part) = part ∧ ∀ c ∈ hexPair part,
      Ascii.isHexDigit c = true ∧ c.toLower = c ∧ Text.isBlank c = false := by
  have size := part.toNat_lt
  obtain ⟨high, highs⟩ := hexDigit_spec (show part.toNat / 16 < 16 by omega)
  obtain ⟨low, lows⟩ := hexDigit_spec (Nat.mod_lt part.toNat (show 0 < 16 by decide))
  constructor
  · have halves : 16 * (16 * 0 + part.toNat / 16) + part.toNat % 16 = part.toNat := by omega
    simp only [hexPart, hexPair, Ascii.hexNumber, List.foldl_cons, List.foldl_nil, high, low,
      halves,
      UInt8.ofNat_toNat]
  · simp only [hexPair, List.forall_mem_cons, List.not_mem_nil, false_implies, implies_true,
      and_true]
    exact ⟨highs, lows⟩

/-- The digits of a colour's name are read as the colour. -/
theorem ofHex?_hexPairs (red green blue : UInt8) :
    ofHex? (hexPair red ++ hexPair green ++ hexPair blue) = some (rgb red green blue) := by
  obtain ⟨sameRed, reds⟩ := digits_of_hexPair red
  obtain ⟨sameGreen, greens⟩ := digits_of_hexPair green
  obtain ⟨sameBlue, blues⟩ := digits_of_hexPair blue
  have all : (hexPair red ++ hexPair green ++ hexPair blue).all Ascii.isHexDigit = true := by
    refine List.all_eq_true.mpr fun c listed => ?_
    simp only [List.mem_append] at listed
    rcases listed with (mem | mem) | mem
    · exact (reds c mem).1
    · exact (greens c mem).1
    · exact (blues c mem).1
  unfold ofHex?
  rw [if_pos all]
  show some (rgb (hexPart (hexPair red)) (hexPart (hexPair green)) (hexPart (hexPair blue))) = _
  rw [sameRed, sameGreen, sameBlue]

theorem read_rgb_name (red green blue : UInt8) :
    read (rgb red green blue).name = .ok (rgb red green blue) := by
  let digits := hexPair red ++ hexPair green ++ hexPair blue
  have name : (rgb red green blue).name.toList = '#' :: digits := String.toList_ofList
  have ink : ∀ c ∈ '#' :: digits, c.toLower = c ∧ Text.isBlank c = false := by
    refine List.forall_mem_cons.mpr ⟨by decide, fun c listed => ?_⟩
    simp only [digits, List.mem_append] at listed
    rcases listed with (mem | mem) | mem
    all_goals exact ((digits_of_hexPair _).2 c mem).2
  have trimmed : Text.trim (rgb red green blue).name = (rgb red green blue).name := by
    refine Text.trim_of_ink (fun c head => ?_) (fun c last => ?_)
    · exact (ink c (name ▸ List.mem_of_mem_head? head)).2
    · exact (ink c (name ▸ List.mem_of_mem_getLast? last)).2
  have lowered : (Ascii.lower (rgb red green blue).name).toList = '#' :: digits := by
    rw [Ascii.toList_lower, name]
    exact (List.map_congr_left fun c listed => (ink c listed).1).trans (List.map_id' _)
  simp only [read, trimmed, lowered, digits, ofHex?_hexPairs]

/-- The bytes of the words for colours are those of lowercase letters, and none is read as a
function. Bytes are what a text is made of; its characters take longer to try. -/
theorem bytes_of_colorNames : ∀ entry ∈ colorNames,
    entry.1.toByteArray.data.toList ≠ [] ∧
      entry.1.toByteArray.data.toList.all (fun b => 97 ≤ b && b ≤ 122) = true ∧
      entry.1.toByteArray.data.toList.take 3 ≠ ['r', 'g', 'b'].map Ascii.byte := by
  decide +kernel

/-- The names are lower case letters, and none of them looks like a colour function. -/
theorem letters_of_colorNames : ∀ entry ∈ colorNames,
    (entry.1.toList ≠ [] ∧ ∀ c ∈ entry.1.toList, c.isLower = true) ∧
      entry.1.toList.take 3 ≠ ['r', 'g', 'b'] := by
  intro entry listed
  obtain ⟨filled, lower, noFunction⟩ := bytes_of_colorNames entry listed
  rw [← Utf8.encode_eq] at filled lower noFunction
  have range : ∀ c ∈ entry.1.toList, 97 ≤ c.toNat ∧ c.toNat ≤ 122 := by
    intro c mem
    obtain ⟨b, first⟩ := List.exists_mem_of_ne_nil _ (String.utf8EncodeChar_ne_nil (c := c))
    have small := List.all_eq_true.mp lower b (List.mem_flatMap_of_mem mem first)
    simp only [Bool.and_eq_true, decide_eq_true_eq, UInt8.le_iff_toNat_le] at small
    have bounds : 97 ≤ b.toNat ∧ b.toNat ≤ 122 := small
    have same := Utf8.toNat_of_mem_encodeChar (by omega) first
    omega
  refine ⟨⟨fun none => filled (by rw [Utf8.encode, none]; rfl), fun c mem => ?_⟩,
    fun function => ?_⟩
  · have bounds := range c mem
    show (decide (97 ≤ c.toNat) && decide (c.toNat ≤ 122)) = true
    rw [decide_eq_true bounds.1, decide_eq_true bounds.2]
    rfl
  · rw [Utf8.encode_of_ascii fun c mem => by have := range c mem; omega, ← List.map_take,
      function] at noFunction
    exact noFunction rfl

theorem isPlainChar_of_isLower {c : Char} (lower : c.isLower = true) :
    Text.isPlainChar c = true := by
  show ((c.isUpper || c.isLower) || c.isDigit || c = '-' || c = '_') = true
  simp only [lower, Bool.or_true, Bool.true_or]

theorem toLower_of_isLower {c : Char} (lower : c.isLower = true) : c.toLower = c :=
  Text.of_isPlainChar (motive := fun c => c.isLower = true → c.toLower = c) (by decide)
    (isPlainChar_of_isLower lower) lower

variable {text : String} {color : Color}

theorem read_name_of_ofName? {word : String} (found : ofName? word = some color) :
    read color.name = .ok color := by
  obtain ⟨⟨red, green, blue⟩, listed, rfl⟩ := Option.map_eq_some_iff.mp found
  obtain ⟨⟨filled, letters⟩, noFunction⟩ := letters_of_colorNames _ (Entries.mem_of_lookup listed)
  have plain : Text.IsPlain word :=
    ⟨filled, fun c mem => isPlainChar_of_isLower (letters c mem)⟩
  have lowered : Ascii.lower word = word := by
    rw [← String.toList_inj, Ascii.toList_lower]
    exact (List.map_congr_left fun c mem => toLower_of_isLower (letters c mem)).trans (List.map_id' _)
  show read word = _
  simp only [read, plain.trim_eq, lowered]
  split
  · next none => exact absurd none filled
  · next hash => exact absurd (letters '#' (by simp [hash])) (by decide)
  · next function => exact absurd (by simp [function]) noFunction
  · rw [found]

theorem eq_rgb_of_ofHex? {chars : List Char} (found : ofHex? chars = some color) :
    ∃ red green blue, color = rgb red green blue := by
  unfold ofHex? at found
  split at found
  · split at found <;> cases found <;> exact ⟨_, _, _, rfl⟩
  · cases found

theorem eq_rgb_of_readParts? {chars : List Char} (found : readParts? chars = some color) :
    ∃ red green blue, color = rgb red green blue := by
  simp only [readParts?, Option.bind_eq_bind, Option.bind_eq_some_iff] at found
  obtain ⟨_, _, ⟨red, _⟩, _, _, _, ⟨green, _⟩, _, _, _, ⟨blue, _⟩, _, left, _, closed⟩ := found
  cases left with
  | nil =>
    cases closed
    exact ⟨red, green, blue, rfl⟩
  | cons => cases closed

/-- The name of a colour is read as the colour. -/
theorem read_name (found : read text = .ok color) : read color.name = .ok color := by
  have ofRgb (unnamed : ∃ red green blue, color = rgb red green blue) :
      read color.name = .ok color := by
    obtain ⟨red, green, blue, rfl⟩ := unnamed
    exact read_rgb_name red green blue
  simp only [read] at found
  split at found
  · cases found
  · split at found
    · next hex =>
      cases found
      exact ofRgb (eq_rgb_of_ofHex? hex)
    · cases found
  · split at found
    · next parts =>
      cases found
      exact ofRgb (eq_rgb_of_readParts? parts)
    · cases found
  · split at found
    · next word =>
      cases found
      exact read_name_of_ofName? word
    · split at found
      · next hex =>
        cases found
        exact ofRgb (eq_rgb_of_ofHex? hex)
      · cases found

/-- The words that stand for no colour where colours stand. -/
theorem read_reserved :
    (read "inherit").toOption = none ∧ (read "transparent").toOption = none := by
  decide +kernel

end Color

end StyleCascade
