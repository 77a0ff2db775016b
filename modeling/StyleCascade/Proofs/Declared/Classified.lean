import StyleCascade.Proofs.Declared.Components
import StyleCascade.Proofs.Token.Alone
import StyleCascade.Proofs.Token.Nested
import StyleCascade.Proofs.Token.Whole

namespace StyleCascade

namespace Utf8

/-- The bytes of characters. -/
def encodeChars (chars : List Char) : List UInt8 :=
  chars.flatMap String.utf8EncodeChar

theorem encode_of_toList {text : String} {chars : List Char} (shape : text.toList = chars) :
    encode text = encodeChars chars := by
  rw [encode, shape, encodeChars]

theorem encodeChars_cons (c : Char) (rest : List Char) :
    encodeChars (c :: rest) = String.utf8EncodeChar c ++ encodeChars rest :=
  List.flatMap_cons

theorem encodeChars_cons_ascii {c : Char} (ascii : c.toNat < 128) (rest : List Char) :
    encodeChars (c :: rest) = Ascii.byte c :: encodeChars rest := by
  rw [encodeChars_cons, encodeChar_of_ascii ascii]
  rfl

theorem encodeChars_append (front rest : List Char) :
    encodeChars (front ++ rest) = encodeChars front ++ encodeChars rest :=
  List.flatMap_append

/-- The bytes behind the first one of a character are outside ASCII. -/
theorem encodeChar_eq_cons (c : Char) :
    ∃ lead trail, String.utf8EncodeChar c = lead :: trail ∧ ∀ b ∈ trail, 0x80 ≤ b.toNat := by
  rcases Nat.lt_or_ge c.toNat 128 with ascii | wide
  · exact ⟨Ascii.byte c, [], encodeChar_of_ascii ascii, fun _ none => by cases none⟩
  · cases shape : String.utf8EncodeChar c with
    | nil => exact absurd shape String.utf8EncodeChar_ne_nil
    | cons lead trail =>
      refine ⟨lead, trail, rfl, fun b mem => Nat.le_of_not_lt fun small => ?_⟩
      have same := toNat_of_mem_encodeChar small (shape ▸ List.mem_cons_of_mem lead mem)
      omega

end Utf8

namespace Component

/-- The characters that no backslash keeps. A backslash with nothing behind it is one of them. -/
def bare : List Char → List Char
  | [] => []
  | c :: rest =>
    if c = '\\' then
      match rest with
      | [] => ['\\']
      | _ :: more => bare more
    else c :: bare rest

end Component

/-- A value that a name and arguments in parentheses write. -/
def Value.isCall : Value → Bool
  | .url _ | .script _ | .function .. => true
  | _ => false

namespace Scan

open Component (bare)

theorem ne_byte_of_beyond {b : UInt8} {mark : Char} (beyond : 0x80 ≤ b.toNat)
    (ascii : mark.toNat < 0x80) : b ≠ Ascii.byte mark := by
  rintro rfl
  have size := Utf8.toNat_byte ascii
  omega

theorem isIdentByte_of_beyond {b : UInt8} (beyond : 0x80 ≤ b.toNat) : isIdentByte b = true := by
  have large : (0x80 : UInt8) ≤ b := UInt8.le_iff_toNat_le.mpr beyond
  simp only [isIdentByte, large, decide_true, Bool.true_or]

/-- A backslash keeps the whole character behind it. -/
theorem stringLength?_kept {quote : Char} (ascii : quote.toNat < 128) (kept : Char)
    (behind : List UInt8) :
    stringLength? (Ascii.byte quote)
        (Ascii.byte '\\' :: (String.utf8EncodeChar kept ++ behind)) =
      (stringLength? (Ascii.byte quote) behind).map
        (1 + (String.utf8EncodeChar kept).length + ·) := by
  obtain ⟨lead, trail, shape, beyond⟩ := Utf8.encodeChar_eq_cons kept
  have plain : ∀ b ∈ trail, b ≠ Ascii.byte '\\' ∧ b ≠ Ascii.byte quote :=
    fun b mem =>
      ⟨ne_byte_of_beyond (beyond b mem) (by decide), ne_byte_of_beyond (beyond b mem) ascii⟩
  rw [shape, stringLength?.eq_def]
  simp only [List.cons_append, if_true]
  rw [stringLength?_passed plain, Option.map_map, List.length_cons]
  congr 1
  funext length
  simp only [Function.comp_apply]
  omega

/-- An escaped character of any width is passed as a whole. -/
theorem identLength_kept (kept : Char) (behind : List UInt8) :
    identLength (Ascii.byte '\\' :: (String.utf8EncodeChar kept ++ behind)) =
      1 + (String.utf8EncodeChar kept).length + identLength behind := by
  obtain ⟨lead, trail, shape, beyond⟩ := Utf8.encodeChar_eq_cons kept
  have plain : ∀ b ∈ trail, isIdentByte b = true ∧ b ≠ Ascii.byte '\\' :=
    fun b mem =>
      ⟨isIdentByte_of_beyond (beyond b mem), ne_byte_of_beyond (beyond b mem) (by decide)⟩
  have escape : isIdentByte (Ascii.byte '\\') = true := by decide
  rw [shape, identLength.eq_def]
  simp only [List.cons_append, escape, if_true]
  rw [identLength_passed plain, List.length_cons]
  omega

theorem map_add_eq_some_iff {found : Option Nat} {front length : Nat} :
    found.map (front + ·) = some (front + length) ↔ found = some length := by
  cases found <;> simp

/-- A string ends at the last quote just if no quote and no backslash is bare inside. -/
theorem stringLength?_encodeChars_iff {quote : Char} (quoted : quote = '"' ∨ quote = '\'')
    (inner : List Char) :
    stringLength? (Ascii.byte quote) (Utf8.encodeChars (inner ++ [quote])) =
        some (Utf8.encodeChars (inner ++ [quote])).length ↔
      quote ∉ bare inner ∧ '\\' ∉ bare inner := by
  obtain ⟨ascii, noEscape, noByte⟩ : quote.toNat < 128 ∧ quote ≠ '\\' ∧
      Ascii.byte quote ≠ Ascii.byte '\\' := by
    rcases quoted with rfl | rfl <;> decide
  have last : Utf8.encodeChars [quote] = [Ascii.byte quote] := Utf8.encodeChars_cons_ascii ascii []
  fun_induction bare inner with
  | case1 =>
    rw [List.nil_append, last, stringLength?_of_quote noByte]
    simp
  | case2 =>
    rw [List.cons_append, Utf8.encodeChars_cons_ascii (by decide), List.nil_append, last]
    simp [stringLength?]
  | case3 kept more ih =>
    refine Iff.trans ?_ ih
    rw [List.cons_append, List.cons_append, Utf8.encodeChars_cons_ascii (by decide),
      Utf8.encodeChars_cons, stringLength?_kept ascii, List.length_cons, List.length_append,
      Nat.add_comm _ 1, ← Nat.add_assoc, map_add_eq_some_iff]
  | case4 c rest plain ih =>
    rw [List.cons_append, Utf8.encodeChars_cons]
    by_cases same : c = quote
    · subst same
      have early : Utf8.encodeChars (rest ++ [c]) ≠ [] := by
        rw [Utf8.encodeChars_append, last]
        simp
      have longer := List.length_pos_iff.mpr early
      rw [Utf8.encodeChar_of_ascii ascii, List.singleton_append, stringLength?_of_quote noByte,
        List.length_cons]
      constructor
      · intro whole
        have := Option.some.inj whole
        omega
      · exact fun closed => absurd List.mem_cons_self closed.1
    · have passed : ∀ b ∈ String.utf8EncodeChar c, b ≠ Ascii.byte '\\' ∧ b ≠ Ascii.byte quote := by
        intro b mem
        constructor
        · rintro rfl
          exact Utf8.byte_not_mem_encodeChar (by decide) plain mem
        · rintro rfl
          exact Utf8.byte_not_mem_encodeChar ascii same mem
      rw [stringLength?_passed passed, List.length_append, map_add_eq_some_iff, List.mem_cons,
        List.mem_cons, or_iff_right (Ne.symm same), or_iff_right (Ne.symm plain)]
      exact ih

/-- A quoted text is a string token just if no quote and no backslash is bare inside. -/
theorem scan_quoted_iff {quote : Char} (quoted : quote = '"' ∨ quote = '\'') (inner : List Char) :
    scan (Utf8.encodeChars (quote :: (inner ++ [quote]))) =
        .token .str (Utf8.encodeChars (quote :: (inner ++ [quote]))).length ↔
      quote ∉ bare inner ∧ '\\' ∉ bare inner := by
  refine Iff.trans ?_ (stringLength?_encodeChars_iff quoted inner)
  have mark : Ascii.byte quote = Ascii.byte '"' ∨ Ascii.byte quote = Ascii.byte '\'' := by
    rcases quoted with rfl | rfl <;> simp
  have ascii : quote.toNat < 128 := by rcases quoted with rfl | rfl <;> decide
  rw [Utf8.encodeChars_cons_ascii ascii, List.length_cons, Nat.add_comm]
  constructor
  · intro read
    obtain ⟨wrong, -⟩ | ⟨front, -⟩ := scan_token_cases read
    · cases wrong
    obtain ⟨_, _, more, shape, -, closed, size⟩ := flat_str front
    cases shape
    rw [closed, Nat.add_left_cancel size]
  · intro closed
    have front := flat_of_quote mark closed
    rw [scan_of_not_ident (fun length same => by rw [front] at same; cases same), front]

end Scan

namespace Component

open Utf8 (encodeChars)

theorem eq_of_quotedChars? {chars inner : List Char} (found : quotedChars? chars = some inner) :
    ∃ quote, (quote = '"' ∨ quote = '\'') ∧ chars = quote :: (inner ++ [quote]) := by
  unfold quotedChars? at found
  split at found
  · cases found
  next quote rest =>
  split at found
  · next marks =>
    simp only [Bool.and_eq_true, Bool.or_eq_true, decide_eq_true_eq] at marks
    obtain ⟨between, rfl⟩ := List.getLast?_eq_some_iff.mp marks.2
    rw [List.dropLast_concat] at found
    simp only at found
    split at found <;> cases found
    exact ⟨quote, marks.1, rfl⟩
  · cases found

theorem exists_of_unquote? {text : String} (found : (unquote? text).isSome = true) :
    ∃ quote inner, (quote = '"' ∨ quote = '\'') ∧ text.toList = quote :: (inner ++ [quote]) := by
  rw [unquote?, Option.isSome_map] at found
  obtain ⟨inner, between⟩ := Option.isSome_iff_exists.mp found
  obtain ⟨quote, quoted, shape⟩ := eq_of_quotedChars? between
  exact ⟨quote, inner, quoted, shape⟩

end Component

namespace Scan

open Component (bare)
open Utf8 (encodeChars)

theorem isIdentByte_of_isNameChar {c : Char} (name : Ascii.isNameChar c = true) :
    ∀ b ∈ String.utf8EncodeChar c, isIdentByte b = true := by
  rcases Nat.lt_or_ge c.toNat 128 with small | wide
  · have ascii : ∀ n : Fin 128, Ascii.isNameChar (Char.ofNat n) = true →
        isIdentByte (Ascii.byte (Char.ofNat n)) = true := by decide
    have found := ascii ⟨c.toNat, small⟩
    rw [Char.ofNat_toNat] at found
    rw [Utf8.encodeChar_of_ascii small]
    exact List.forall_mem_singleton.mpr (found name)
  · refine fun b mem => isIdentByte_of_beyond (Nat.le_of_not_lt fun small => ?_)
    have same := Utf8.toNat_of_mem_encodeChar small mem
    omega

/-- An identifier is read through the name in front of a parenthesis. It ends there if no backslash
keeps the parenthesis. -/
theorem identLength_name {name : List Char} (chars : ∀ c ∈ name, Ascii.isNameChar c = true)
    (behind : List UInt8) :
    identLength (encodeChars name ++ Ascii.byte '(' :: behind) =
      (encodeChars name).length + if '\\' ∈ bare name then 1 + identLength behind else 0 := by
  fun_induction bare name with
  | case1 => exact identLength_of_other (by decide) behind
  | case2 =>
    have paren : String.utf8EncodeChar '(' = [Ascii.byte '('] := rfl
    have kept := identLength_kept '(' behind
    rw [paren] at kept
    rw [Utf8.encodeChars_cons_ascii (by decide), if_pos List.mem_cons_self, ← Nat.add_assoc]
    exact kept
  | case3 kept more ih =>
    have rest := ih fun c mem => chars c (List.mem_cons_of_mem _ (List.mem_cons_of_mem _ mem))
    rw [Utf8.encodeChars_cons_ascii (by decide), Utf8.encodeChars_cons, List.cons_append,
      List.append_assoc, identLength_kept, rest, List.length_cons, List.length_append]
    omega
  | case4 c rest plain ih =>
    obtain ⟨first, others⟩ := List.forall_mem_cons.mp chars
    have passed : ∀ b ∈ String.utf8EncodeChar c, isIdentByte b = true ∧ b ≠ Ascii.byte '\\' := by
      refine fun b mem => ⟨isIdentByte_of_isNameChar first b mem, ?_⟩
      rintro rfl
      exact Utf8.byte_not_mem_encodeChar (by decide) plain mem
    rw [Utf8.encodeChars_cons, List.append_assoc, identLength_passed passed, ih others,
      List.length_append]
    simp only [List.mem_cons, Ne.symm plain, false_or, Nat.add_assoc]

theorem mark?_openParen {b : UInt8} (found : mark? b = some .openParen) :
    b = Ascii.byte '(' :=
  of_mark? (motive := fun b kind => kind = .openParen → b = Ascii.byte '(') (by decide) found rfl

theorem length_of_flat_ident {source : List UInt8} {length : Nat}
    (read : flat source = .token .ident length) : length = identLength source := by
  cases source with
  | nil => cases read
  | cons b rest => exact (ident_of_flat read).2

/-- What opens a group is an identifier, if there is one, and a parenthesis. -/
theorem opening?_eq (source : List UInt8) :
    opening? source =
      if (source.drop (identLength source)).head? = some (Ascii.byte '(') then
        some (identLength source + 1)
      else none := by
  split
  · next called =>
    rcases Nat.eq_zero_or_pos (identLength source) with none | named
    · rw [none] at called ⊢
      obtain ⟨rest, rfl⟩ := List.head?_eq_some_iff.mp called
      rfl
    · rw [opening?_of_token (flat_of_call named called), if_neg (by decide), if_pos ⟨rfl, called⟩]
  · next other =>
    unfold opening?
    split
    · next front =>
      obtain ⟨⟨b, head, mark⟩, -⟩ := flat_mark front (by decide)
      rw [mark?_openParen mark] at head
      obtain ⟨rest, rfl⟩ := List.head?_eq_some_iff.mp head
      rw [identLength_of_other (by decide)] at other
      exact absurd rfl other
    · next front =>
      rw [length_of_flat_ident front, if_neg other]
    · rfl

/-- Where a name stands in front, a function is a group. -/
theorem scan_function_iff {source : List UInt8} (named : 0 < identLength source) (length : Nat) :
    scan source = .token .function length ↔ groupLength? source = some length := by
  by_cases called : (source.drop (identLength source)).head? = some (Ascii.byte '(')
  · rw [scan_of_call named called]
    cases groupLength? source <;> simp
  rw [groupLength?, opening?_eq, if_neg called, Option.bind_none]
  refine iff_of_false (fun read => ?_) (by simp)
  obtain ⟨-, size, -, front, opened, -⟩ | ⟨front, -⟩ := scan_token_cases read
  · rw [length_of_flat_ident front] at opened
    exact called opened
  · exact flat_ne_function source length front

/-- A name and a parenthesis open a group. If a backslash keeps the parenthesis, another one behind
it must open the group. -/
theorem groupLength?_name {name : List Char} (chars : ∀ c ∈ name, Ascii.isNameChar c = true)
    (behind : List UInt8) :
    groupLength? (encodeChars name ++ Ascii.byte '(' :: behind) =
      (if '\\' ∈ bare name then groupLength? behind else bodyLength? behind).map
        ((encodeChars name).length + 1 + ·) := by
  have size := identLength_name chars behind
  have past (more : Nat) : (encodeChars name ++ Ascii.byte '(' :: behind).drop
      ((encodeChars name).length + (1 + more)) = behind.drop more := by
    rw [List.drop_length_add_append, Nat.add_comm, List.drop_succ_cons]
  rw [groupLength?, opening?_eq, size]
  split
  · next kept =>
    rw [past, groupLength?, opening?_eq]
    split
    · rw [Option.bind_some, Option.bind_some, Nat.add_assoc, Nat.add_assoc, past, Option.map_map]
      congr 1
      funext more
      simp only [Function.comp_apply]
      omega
    · rfl
  · next ended =>
    rw [Nat.add_zero, List.drop_left, List.head?_cons, if_pos rfl, Option.bind_some]
    exact congrArg _ (congrArg bodyLength? (past 0))

end Scan

namespace Component

open Utf8 (encodeChars)

/-- A text that was split at a parenthesis is the name, the argument and the two parentheses again,
so the split loses nothing. -/
theorem splitFunction?_eq_some {chars name arguments : List Char}
    (found : splitFunction? chars = some (name, arguments)) :
    chars = name ++ '(' :: (arguments ++ [')']) ∧ name ≠ [] ∧
      ∀ c ∈ name, Ascii.isNameChar c = true := by
  unfold splitFunction? at found
  simp only at found
  split at found
  · next mark behind rest =>
    split at found <;> cases found
    next parts =>
    simp only [Bool.and_eq_true, decide_eq_true_eq] at parts
    obtain ⟨⟨filled, all⟩, last⟩ := parts
    obtain ⟨inner, rfl⟩ := List.getLast?_eq_some_iff.mp last
    obtain rfl : mark = '(' := by
      have stops := List.head?_dropWhile_not (· ≠ '(') chars
      rw [rest] at stops
      simpa using stops
    refine ⟨?_, filled, List.all_eq_true.mp all⟩
    rw [List.dropLast_concat, ← rest, List.takeWhile_append_dropWhile]
  · cases found

theorem ofPlain_isCall (text : String) : (ofPlain text).isCall = false := by
  unfold ofPlain
  split
  · next value found =>
    have numeric := isNumeric_of_numeric? found
    unfold Value.isNumeric at numeric
    split at numeric
    · rfl
    · rfl
    · rfl
    · cases numeric
  · split <;> rfl

/-- Only a name and arguments in parentheses are classified as a call. -/
theorem splitFunction?_of_isCall {text : String} (call : (classify text).isCall = true) :
    ∃ name arguments, splitFunction? text.toList = some (name, arguments) := by
  unfold classify at call
  split at call
  · cases call
  split at call
  · split at call <;> cases call
  split at call
  · next name arguments found => exact ⟨name, arguments, found⟩
  · rw [ofPlain_isCall] at call
    cases call

/-- What is classified as a call is a function token just if the parenthesis at its end is the one
that closes the group behind its name. -/
theorem scan_call {text : String} {name arguments : List Char}
    (found : splitFunction? text.toList = some (name, arguments)) :
    scan (Utf8.encode text) = .token .function (Utf8.size text) ↔
      (if '\\' ∈ bare name then Scan.groupLength? (encodeChars (arguments ++ [')']))
        else Scan.bodyLength? (encodeChars (arguments ++ [')']))) =
          some (encodeChars (arguments ++ [')'])).length := by
  obtain ⟨shape, filled, chars⟩ := splitFunction?_eq_some found
  have source : Utf8.encode text =
      encodeChars name ++ Ascii.byte '(' :: encodeChars (arguments ++ [')']) := by
    rw [Utf8.encode_of_toList shape, Utf8.encodeChars_append,
      Utf8.encodeChars_cons_ascii (by decide)]
  have named : 0 < (encodeChars name).length := by
    obtain ⟨c, rest, rfl⟩ := List.exists_cons_of_ne_nil filled
    obtain ⟨lead, trail, written, -⟩ := Utf8.encodeChar_eq_cons c
    rw [Utf8.encodeChars_cons, written]
    exact Nat.succ_pos _
  have size : Utf8.size text =
      (encodeChars name).length + 1 + (encodeChars (arguments ++ [')'])).length := by
    rw [Utf8.size, source, List.length_append, List.length_cons]
    omega
  have ident : 0 < Scan.identLength (Utf8.encode text) := by
    rw [source, Scan.identLength_name chars]
    omega
  rw [Scan.scan_function_iff ident, source, Scan.groupLength?_name chars, size,
    Scan.map_add_eq_some_iff]

/-- Every text that is a string token is classified as a string, and every text that is classified
as one is a string token if neither its quote nor a backslash is bare inside. What is classified as
a call is a function token just if its last parenthesis closes the group behind its name. -/
theorem classify_agrees_with_scan (text : String) :
    (scan (Utf8.encode text) = .token .str (Utf8.size text) ↔
      (unquote? text).isSome = true ∧ ∀ quote inner,
        text.toList = quote :: (inner ++ [quote]) → quote ∉ bare inner ∧ '\\' ∉ bare inner) ∧
    ((classify text).isCall = true → ∃ name arguments,
      splitFunction? text.toList = some (name, arguments) ∧
      (scan (Utf8.encode text) = .token .function (Utf8.size text) ↔
        (if '\\' ∈ bare name then Scan.groupLength? (encodeChars (arguments ++ [')']))
          else Scan.bodyLength? (encodeChars (arguments ++ [')']))) =
            some (encodeChars (arguments ++ [')'])).length)) := by
  constructor
  · constructor
    · intro read
      have found := unquote?_of_scan read
      rw [Utf8.size, List.take_length, Utf8.text_encode] at found
      obtain ⟨quote, inner, quoted, shape⟩ := exists_of_unquote? found
      refine ⟨found, fun other between spelled => ?_⟩
      obtain ⟨rfl, tails⟩ := List.cons.inj (shape.symm.trans spelled)
      obtain rfl := List.append_cancel_right tails
      rw [Utf8.size, Utf8.encode_of_toList shape] at read
      exact (Scan.scan_quoted_iff quoted inner).mp read
    · rintro ⟨found, closed⟩
      obtain ⟨quote, inner, quoted, shape⟩ := exists_of_unquote? found
      rw [Utf8.size, Utf8.encode_of_toList shape]
      exact (Scan.scan_quoted_iff quoted inner).mpr (closed quote inner shape)
  · intro call
    obtain ⟨name, arguments, found⟩ := splitFunction?_of_isCall call
    exact ⟨name, arguments, found, scan_call found⟩

/-- The string ends in an escaped backslash, and the call holds a closing parenthesis in a string,
in a call and in a comment: both readers take the whole text. -/
theorem classify_agrees_with_scan_nested :
    let string := "\"a\\\\\""
    let call := "url(f(\")\")/*)*/)"
    (unquote? string).isSome = true ∧
      scan (Utf8.encode string) = .token .str (Utf8.size string) ∧
      (classify call).isCall = true ∧
      scan (Utf8.encode call) = .token .function (Utf8.size call) := by
  intro string call
  have found : (unquote? string).isSome = true := by decide +kernel
  have closed : ∀ quote inner, string.toList = quote :: (inner ++ [quote]) →
      quote ∉ bare inner ∧ '\\' ∉ bare inner := by
    intro quote inner shape
    have spelled : string.toList = '"' :: (['a', '\\', '\\'] ++ ['"']) := by decide +kernel
    obtain ⟨rfl, tails⟩ := List.cons.inj (spelled.symm.trans shape)
    obtain rfl := List.append_cancel_right tails
    decide
  have isCall : (classify call).isCall = true := by decide +kernel
  have split : splitFunction? call.toList = some ("url".toList, "f(\")\")/*)*/".toList) := by
    decide +kernel
  obtain ⟨name, arguments, parts, agrees⟩ := (classify_agrees_with_scan call).2 isCall
  cases split.symm.trans parts
  exact ⟨found, (classify_agrees_with_scan string).1.mpr ⟨found, closed⟩, isCall,
    agrees.mpr (by decide +kernel)⟩

/-- A quoted text whose closing quote is kept, and two functions next to each other. -/
theorem classify_past_the_token :
    (unquote? "\"a\\\\\\\"").isSome = true ∧
      scan (Utf8.encode "\"a\\\\\\\"") = .invalid 6 ∧ Utf8.size "\"a\\\\\\\"" = 6 ∧
      (classify "a(b)c(d)").isCall = true ∧
      scan (Utf8.encode "a(b)c(d)") = .token .function 4 ∧ Utf8.size "a(b)c(d)" = 8 := by
  decide +kernel

end Component

end StyleCascade
