import StyleCascade.Proofs.Text.Replaced
import StyleCascade.Declared.Component
import StyleCascade.Token.Scan

namespace StyleCascade

namespace Text

/-- The characters of plain names: ASCII letters, digits, `-` and `_`. -/
def isPlainChar (c : Char) : Bool :=
  c.isAlphanum || c = '-' || c = '_'

/-- A name that is not empty and has plain characters alone. -/
def IsPlain (name : String) : Prop :=
  name.toList ≠ [] ∧ ∀ c ∈ name.toList, isPlainChar c = true

instance (name : String) : Decidable (IsPlain name) :=
  decidable_of_iff (name.toList ≠ [] ∧ name.toList.all isPlainChar = true)
    (and_congr_right fun _ => List.all_eq_true)

section

variable {c : Char}

theorem toNat_of_isPlainChar (plain : isPlainChar c = true) : c.toNat < 128 := by
  have bounded {high : UInt32} (below : c.val ≤ high) (small : high.toNat < 128) : c.toNat < 128 :=
    Nat.lt_of_le_of_lt (UInt32.le_iff_toNat_le.mp below) small
  have kinds : ((c.isUpper || c.isLower) || c.isDigit || c = '-' || c = '_') = true := plain
  simp only [Bool.or_eq_true, decide_eq_true_eq] at kinds
  rcases kinds with (((upper | lower) | digit) | rfl) | rfl
  · exact bounded (of_decide_eq_true upper).2 (by decide)
  · exact bounded (of_decide_eq_true (Bool.and_eq_true_iff.mp lower).2) (by decide)
  · exact bounded (of_decide_eq_true (Bool.and_eq_true_iff.mp digit).2) (by decide)
  · decide
  · decide

/-- What plain characters have in common is found by trying each of them. -/
theorem of_isPlainChar {motive : Char → Prop}
    (all : ∀ n : Fin 128, isPlainChar (Char.ofNat n) = true → motive (Char.ofNat n))
    (plain : isPlainChar c = true) : motive c := by
  have found := all ⟨c.toNat, toNat_of_isPlainChar plain⟩
  rw [Char.ofNat_toNat] at found
  exact found plain

theorem isIdentByte_of_isPlainChar (plain : isPlainChar c = true) :
    Scan.isIdentByte (Ascii.byte c) = true ∧ Ascii.byte c ≠ Ascii.byte '\\' :=
  of_isPlainChar (motive := fun c => Scan.isIdentByte (Ascii.byte c) = true ∧
    Ascii.byte c ≠ Ascii.byte '\\') (by decide) plain

theorem not_isBlank_of_isPlainChar (plain : isPlainChar c = true) : isBlank c = false :=
  of_isPlainChar (motive := fun c => isBlank c = false) (by decide) plain

end

theorem toList_call (function argument : String) :
    (function ++ "(" ++ argument ++ ")").toList =
      function.toList ++ '(' :: (argument.toList ++ [')']) := by
  have opening : "(".toList = ['('] := rfl
  have closing : ")".toList = [')'] := rfl
  simp only [String.toList_append, opening, closing, List.append_assoc, List.cons_append,
    List.nil_append]

/-- A text without a mark ends at the first one. -/
theorem span_mark {mark : Char} {front : List Char} (absent : mark ∉ front) (rest : List Char) :
    (front ++ mark :: rest).takeWhile (· ≠ mark) = front ∧
      (front ++ mark :: rest).dropWhile (· ≠ mark) = mark :: rest := by
  have all : ∀ c ∈ front, decide (c ≠ mark) = true := by
    intro c mem
    rw [decide_eq_true_eq]
    rintro rfl
    exact absent mem
  rw [List.takeWhile_append_of_pos all, List.dropWhile_append_of_pos all]
  simp

/-- Behind the ASCII capitals, each character is its own lowercase form in ASCII. -/
theorem toLower_of_beyond {c : Char} (beyond : 'Z'.toNat < c.toNat) : c.toLower = c := by
  have noLetter : ¬(c.val ≥ 'A'.val ∧ c.val ≤ 'Z'.val) := by
    intro letter
    have inside : c.toNat ≤ 'Z'.toNat := UInt32.le_iff_toNat_le.mp letter.2
    omega
  exact dif_neg noLetter

theorem toLower_ofNat {n : Nat} (beyond : 'Z'.toNat < n) :
    (Char.ofNat n).toLower = Char.ofNat n := by
  by_cases valid : n.isValidChar
  · have point : (Char.ofNat n).toNat = n := congrArg Char.toNat (dif_pos valid)
    exact toLower_of_beyond (by rwa [point])
  · have none : Char.ofNat n = Char.ofNat 0 := dif_neg valid
    rw [none]
    rfl

/-- The characters that have a lowercase form of their own are ASCII, and so are their forms. -/
theorem of_toLower {motive : Char → Char → Prop} {c : Char}
    (small : ∀ n : Fin 128, motive (Char.ofNat n).toLower (Char.ofNat n))
    (same : c.toLower = c → motive c c) : motive c.toLower c := by
  rcases Nat.lt_or_ge c.toNat 128 with inside | beyond
  · have found := small ⟨c.toNat, inside⟩
    rwa [Char.ofNat_toNat] at found
  · have own := toLower_of_beyond (Nat.lt_of_lt_of_le (by decide) beyond)
    rw [own]
    exact same own

theorem toLower_toLower (c : Char) : c.toLower.toLower = c.toLower :=
  of_toLower (motive := fun form _ => form.toLower = form) (by decide) id

theorem isPlainChar_of_toLower {c : Char} (plain : isPlainChar c.toLower = true) :
    isPlainChar c = true :=
  of_toLower (motive := fun form c => isPlainChar form = true → isPlainChar c = true)
    (by decide) (fun _ => id) plain

theorem eq_paren_of_toLower {c : Char} (same : c.toLower = '(') : c = '(' :=
  of_toLower (motive := fun form c => form = '(' → c = '(') (by decide) (fun _ => id) same

/-- No lowercase form outside ASCII is an ASCII capital. -/
theorem lt_of_mem_caseRuns :
    ∀ run ∈ caseRuns, ('Z'.toNat : Int) < run.first + run.offset := by
  decide +kernel

theorem toLower_lowerChar (c : Char) : (lowerChar c).toLower = lowerChar c := by
  unfold lowerChar
  split
  · exact toLower_toLower c
  next large =>
  split
  · next run found =>
    have inside := List.find?_some found
    have start := lt_of_mem_caseRuns run (List.mem_of_find?_eq_some found)
    simp only [Bool.and_eq_true, decide_eq_true_eq] at inside
    exact toLower_ofNat (by omega)
  · exact toLower_of_beyond (Nat.lt_of_lt_of_le (by decide) (Nat.le_of_not_lt large))

theorem toLower_of_mem_lowerForm {before after : List Char} {c d : Char}
    (mem : d ∈ lowerForm before c after) : d.toLower = d := by
  unfold lowerForm at mem
  split at mem
  · rw [List.mem_singleton.mp mem]
    split <;> rfl
  split at mem
  · simp only [List.mem_cons, List.not_mem_nil, or_false] at mem
    rcases mem with rfl | rfl <;> rfl
  · rw [List.mem_singleton.mp mem]
    exact toLower_lowerChar c

theorem toLower_of_mem_lowerFrom {before chars : List Char} {d : Char}
    (mem : d ∈ lowerFrom before chars) : d.toLower = d := by
  induction chars generalizing before with
  | nil => cases mem
  | cons c rest ih =>
    rw [lowerFrom, List.mem_append] at mem
    exact mem.elim toLower_of_mem_lowerForm ih

/-- A text in lowercase has no ASCII capital. -/
theorem lower_lowercase (text : String) : Ascii.lower (lowercase text) = lowercase text := by
  rw [← String.toList_inj, Ascii.toList_lower, lowercase, String.toList_ofList]
  exact (List.map_congr_left fun _ mem => toLower_of_mem_lowerFrom mem).trans (List.map_id' _)

theorem lower_lower (text : String) : Ascii.lower (Ascii.lower text) = Ascii.lower text := by
  rw [← String.toList_inj, Ascii.toList_lower, Ascii.toList_lower, List.map_map]
  exact List.map_congr_left fun c _ => toLower_toLower c

section Strip

variable {drop : Char → Bool} {chars : List Char}

theorem dropWhile_of_kept (front : ∀ c ∈ chars.head?, drop c = false) :
    chars.dropWhile drop = chars := by
  cases chars with
  | nil => rfl
  | cons c rest => rw [List.dropWhile_cons, if_neg (Bool.eq_false_iff.mp (front c rfl))]

/-- What neither begins nor ends with a character of a class is left as it is. -/
theorem strip_of_kept (front : ∀ c ∈ chars.head?, drop c = false)
    (back : ∀ c ∈ chars.getLast?, drop c = false) : strip drop chars = chars := by
  rw [strip, dropWhile_of_kept front, dropWhile_of_kept (by rwa [List.head?_reverse]),
    List.reverse_reverse]

/-- A mark of the class is dropped at both ends. -/
theorem strip_enclosed {mark : Char} (dropped : drop mark = true)
    (front : ∀ c ∈ chars.head?, drop c = false) (back : ∀ c ∈ chars.getLast?, drop c = false) :
    strip drop (mark :: (chars ++ [mark])) = chars := by
  rw [strip, List.dropWhile_cons_of_pos dropped]
  cases chars with
  | nil => simp [dropped]
  | cons c rest =>
    have inside : (c :: rest ++ [mark]).dropWhile drop = c :: rest ++ [mark] := dropWhile_of_kept front
    rw [inside, List.reverse_append, List.reverse_singleton, List.singleton_append,
      List.dropWhile_cons_of_pos dropped, dropWhile_of_kept (by rwa [List.head?_reverse]),
      List.reverse_reverse]

end Strip

/-- A text that neither begins nor ends with white space is trimmed to itself. -/
theorem trim_of_ink {text : String} (front : ∀ c ∈ text.toList.head?, isBlank c = false)
    (back : ∀ c ∈ text.toList.getLast?, isBlank c = false) : trim text = text := by
  rw [trim, strip_of_kept front back, String.ofList_toList]

namespace IsPlain

variable {name : String}

theorem ascii (plain : IsPlain name) : ∀ c ∈ name.toList, c.toNat < 128 :=
  fun c mem => toNat_of_isPlainChar (plain.2 c mem)

theorem lowercase_eq (plain : IsPlain name) : lowercase name = Ascii.lower name := by
  rw [lowercase, lowerFrom_ascii plain.ascii, Ascii.lower]

/-- A plain name in lowercase is not changed any more. -/
theorem lowercase_lowercase {text : String} (plain : IsPlain (lowercase text)) :
    lowercase (lowercase text) = lowercase text := by
  rw [plain.lowercase_eq, lower_lowercase]

theorem not_mem {c : Char} (plain : IsPlain name) (other : isPlainChar c = false) :
    c ∉ name.toList := by
  intro mem
  rw [plain.2 c mem] at other
  cases other

theorem trim_eq (plain : IsPlain name) : trim name = name :=
  trim_of_ink (fun _ head => not_isBlank_of_isPlainChar (plain.2 _ (List.mem_of_mem_head? head)))
    (fun _ last => not_isBlank_of_isPlainChar (plain.2 _ (List.mem_of_mem_getLast? last)))

end IsPlain

end Text

namespace Component

theorem unescape_cons {c : Char} (plain : c ≠ '\\') (rest : List Char) :
    unescape (c :: rest) = c :: unescape rest := by
  rw [unescape.eq_def]
  simp only [plain, if_false]

theorem unescape_of_plain {chars : List Char} (plain : '\\' ∉ chars) : unescape chars = chars := by
  induction chars with
  | nil => rw [unescape]
  | cons c rest ih =>
    have other : c ≠ '\\' := Ne.symm (List.ne_of_not_mem_cons plain)
    rw [unescape_cons other, ih (List.not_mem_of_not_mem_cons plain)]

theorem unescapeText_of_plain {text : String} (plain : '\\' ∉ text.toList) :
    unescapeText text = text := by
  rw [unescapeText, unescape_of_plain plain, String.ofList_toList]

/-- The digits of an escape are not more than the characters behind its backslash. -/
theorem length_escaped_le (rest : List Char) :
    (dropSpace (rest.drop ((rest.take 6).takeWhile Ascii.isHexDigit).length)).length +
      ((rest.take 6).takeWhile Ascii.isHexDigit).length ≤ rest.length := by
  have digits := (List.takeWhile_prefix (l := rest.take 6) Ascii.isHexDigit).length_le
  have behind := length_dropSpace_le (rest.drop ((rest.take 6).takeWhile Ascii.isHexDigit).length)
  rw [List.length_take] at digits
  rw [List.length_drop] at behind
  omega

theorem length_unescape_le (chars : List Char) : (unescape chars).length ≤ chars.length := by
  fun_induction unescape chars with
  | case1 => exact Nat.le_refl _
  | case2 => exact Nat.zero_le _
  | case3 kept more _ ih => simp only [List.length_cons]; omega
  | case4 more some ih =>
    have := length_escaped_le more
    simp only [List.length_cons]; omega
  | case5 c rest _ ih => simp only [List.length_cons]; omega

/-- An escape is longer than the character that it stands for. -/
theorem length_unescape_lt {chars : List Char} (escaped : '\\' ∈ chars) :
    (unescape chars).length < chars.length := by
  fun_induction unescape chars with
  | case1 => cases escaped
  | case2 => exact Nat.zero_lt_one
  | case3 kept more =>
    have := length_unescape_le more
    simp only [List.length_cons]; omega
  | case4 more some =>
    have inside := length_escaped_le more
    have read := length_unescape_le
      (dropSpace (more.drop ((more.take 6).takeWhile Ascii.isHexDigit).length))
    have digit := List.length_pos_iff.mpr some
    simp only [List.length_cons]; omega
  | case5 c rest other ih =>
    have shorter := ih ((List.mem_cons.mp escaped).resolve_left (Ne.symm other))
    simp only [List.length_cons]; omega

theorem unescapeText_eq_iff (text : String) :
    unescapeText text = text ↔ '\\' ∉ text.toList := by
  constructor
  · intro same escaped
    have shorter := length_unescape_lt escaped
    rw [unescapeText, ← String.toList_inj, String.toList_ofList] at same
    rw [same] at shorter
    exact Nat.lt_irrefl _ shorter
  · exact unescapeText_of_plain

end Component

namespace Utf8

theorem encodeChar_of_ascii {c : Char} (ascii : c.toNat < 128) :
    String.utf8EncodeChar c = [Ascii.byte c] := by
  have small : c.val.toNat ≤ 0x7f := Nat.le_of_lt_succ ascii
  rw [String.utf8EncodeChar]
  simp only [if_pos small]
  rfl

/-- ASCII text is written byte by byte. -/
theorem encode_of_ascii {text : String} (ascii : ∀ c ∈ text.toList, c.toNat < 128) :
    encode text = text.toList.map Ascii.byte := by
  rw [encode]
  generalize text.toList = chars at ascii
  induction chars with
  | nil => rfl
  | cons c rest ih =>
    obtain ⟨small, others⟩ := List.forall_mem_cons.mp ascii
    rw [List.flatMap_cons, encodeChar_of_ascii small, ih others]
    rfl

theorem encode_join (texts : List String) : encode (String.join texts) = texts.flatMap encode := by
  rw [encode, String.toList_join, List.flatMap_assoc]
  rfl

end Utf8

end StyleCascade
