import StyleCascade.Declared.Component
import StyleCascade.Proofs.Text.Replaced
import StyleCascade.Proofs.Token.Append

namespace StyleCascade

namespace Scan

/-- A backslash at the end of bytes is kept by another one in front of it. -/
def KeptEnd (bytes : List UInt8) : Prop :=
  bytes.getLast? = some (Ascii.byte '\\') → bytes.dropLast.getLast? = some (Ascii.byte '\\')

theorem KeptEnd.cons {bytes : List UInt8} (kept : KeptEnd bytes) (filled : bytes ≠ [])
    (b : UInt8) : KeptEnd (b :: bytes) := by
  intro last
  rw [List.getLast?_cons_of_ne_nil filled] at last
  have before := kept last
  have more : bytes.dropLast ≠ [] := by
    intro empty
    rw [empty] at before
    cases before
  rw [List.dropLast_cons_of_ne_nil filled, List.getLast?_cons_of_ne_nil more]
  exact before

/-- A string ends in its quote, which no backslash keeps. -/
theorem stringLength?_closed {quote : UInt8} {source : List UInt8} {length : Nat}
    (found : stringLength? quote source = some length) :
    ∃ inner, source.take length = inner ++ [quote] ∧ KeptEnd inner := by
  fun_induction stringLength? quote source generalizing length with
  | case1 => cases found
  | case2 => cases found
  | case3 escaped more ih =>
    obtain ⟨length, closed, rfl⟩ := Option.map_eq_some_iff.mp found
    obtain ⟨inner, taken, kept⟩ := ih closed
    refine ⟨Ascii.byte '\\' :: escaped :: inner, ?_, ?_⟩
    · rw [Nat.add_comm, List.take_succ_cons, List.take_succ_cons, taken]
      rfl
    · cases inner with
      | nil => exact fun _ => rfl
      | cons b inner => exact (kept.cons (List.cons_ne_nil _ _) _).cons (List.cons_ne_nil _ _) _
  | case4 rest plain =>
    cases found
    exact ⟨[], rfl, fun last => by cases last⟩
  | case5 b rest plain other ih =>
    obtain ⟨length, closed, rfl⟩ := Option.map_eq_some_iff.mp found
    obtain ⟨inner, taken, kept⟩ := ih closed
    refine ⟨b :: inner, ?_, ?_⟩
    · rw [Nat.add_comm, List.take_succ_cons, taken]
      rfl
    · cases inner with
      | nil => exact fun last => absurd (Option.some.inj last) plain
      | cons c inner => exact kept.cons (List.cons_ne_nil _ _) b

theorem mark?_ne_str (b : UInt8) : mark? b ≠ some .str := fun found =>
  of_mark? (motive := fun _ kind => kind ≠ .str) (by decide) found rfl

/-- What a string is at the front of a source. -/
theorem flat_str {source : List UInt8} {length : Nat} (read : flat source = .token .str length) :
    ∃ quote rest more, source = quote :: rest ∧
      (quote = Ascii.byte '"' ∨ quote = Ascii.byte '\'') ∧
      stringLength? quote rest = some more ∧ length = 1 + more := by
  cases lead_of_flat read with
  | str quoted closed => exact ⟨_, _, _, rfl, quoted, closed, rfl⟩
  | word found => exact absurd (kind_of_atWord found) (by decide)
  | mark found => exact absurd found (mark?_ne_str _)

theorem mark?_ne_function (b : UInt8) : mark? b ≠ some .function := fun found =>
  of_mark? (motive := fun _ kind => kind ≠ .function) (by decide) found rfl

theorem flat_ne_function (source : List UInt8) (length : Nat) :
    flat source ≠ .token .function length := by
  intro read
  obtain ⟨⟨b, -, found⟩, -⟩ := flat_mark read (by decide)
  exact mark?_ne_function b found

end Scan

/-- The bytes of a string token. -/
theorem scan_str {source : List UInt8} {length : Nat} (read : scan source = .token .str length) :
    ∃ quote inner, (quote = '"' ∨ quote = '\'') ∧
      source.take length = Ascii.byte quote :: (inner ++ [Ascii.byte quote]) ∧
      Scan.KeptEnd inner := by
  obtain ⟨wrong, -⟩ | ⟨first, -⟩ := scan_token_cases read
  · cases wrong
  obtain ⟨quote, rest, more, rfl, quoted, closed, rfl⟩ := Scan.flat_str first
  obtain ⟨inner, taken, escaped⟩ := Scan.stringLength?_closed closed
  rw [Nat.add_comm, List.take_succ_cons, taken]
  obtain rfl | rfl := quoted
  · exact ⟨'"', inner, Or.inl rfl, rfl, escaped⟩
  · exact ⟨'\'', inner, Or.inr rfl, rfl, escaped⟩

/-- The bytes of a function token. -/
theorem scan_function {source : List UInt8} {length : Nat}
    (read : scan source = .token .function length) :
    ∃ name arguments,
      source.take length = name ++ Ascii.byte '(' :: (arguments ++ [Ascii.byte ')']) := by
  obtain ⟨-, size, more, -, opened, closed, rfl⟩ | ⟨first, -⟩ := scan_token_cases read
  · obtain ⟨arguments, later, inside, rfl⟩ := closed.shape
    refine ⟨source.take size, arguments, ?_⟩
    obtain ⟨rest, shape⟩ := List.head?_eq_some_iff.mp opened
    have behind : source.drop (size + 1) = rest := by
      rw [← List.drop_drop, shape]
      rfl
    have taken : rest.take (arguments.length + 1) = arguments ++ [Ascii.byte ')'] := by
      rw [← behind, inside, List.take_length_add_append]
      rfl
    rw [Nat.add_assoc, List.take_add, shape, Nat.add_comm 1, List.take_succ_cons, taken]
  · exact absurd first (Scan.flat_ne_function source length)

namespace Utf8

theorem decode_nil : decode [] = [] := by
  rw [decode]

theorem decode_append_last {c : Char} (ascii : c.toNat < 0x80) (front : List UInt8) :
    decode (front ++ [Ascii.byte c]) = decode front ++ [c] := by
  rw [decode_append_byte ascii, decode_nil]

end Utf8

namespace Component

/-- Bytes between quotes are a quoted text if their last backslash is not a single one. -/
theorem quotedChars?_decode {quote : Char} {inner : List UInt8}
    (quoted : quote = '"' ∨ quote = '\'') (escaped : Scan.KeptEnd inner) :
    quotedChars? (quote :: (Utf8.decode inner ++ [quote])) = some (Utf8.decode inner) := by
  have mark : (quote = '"' || quote = '\'') = true := by
    simpa only [Bool.or_eq_true, decide_eq_true_eq] using quoted
  have kept : ((Utf8.decode inner).getLast? = some '\\' &&
      (Utf8.decode inner).dropLast.getLast? ≠ some '\\') = false := by
    simp only [Bool.and_eq_false_imp, decide_eq_true_eq, decide_eq_false_iff_not, not_not]
    intro last
    obtain ⟨front, rfl⟩ := Utf8.eq_append_of_getLast?_decode last (by decide) (by decide)
    have before := escaped List.getLast?_concat
    rw [List.dropLast_concat] at before
    obtain ⟨more, rfl⟩ := List.getLast?_eq_some_iff.mp before
    rw [Utf8.decode_append_last (by decide), List.dropLast_concat,
      Utf8.decode_append_last (by decide), List.getLast?_concat]
  rw [quotedChars?, mark, List.getLast?_concat]
  simp only [Bool.true_and, decide_true, if_true, List.dropLast_concat, kept,
    Bool.false_eq_true, if_false]

/-- What is read as a string is a quoted text. -/
theorem unquote?_of_scan {source : List UInt8} {length : Nat}
    (read : scan source = .token .str length) :
    (unquote? (Utf8.text (source.take length))).isSome = true := by
  obtain ⟨quote, inner, quoted, written, escaped⟩ := scan_str read
  have ascii : quote.toNat < 0x80 := by obtain rfl | rfl := quoted <;> decide
  have text : (Utf8.text (source.take length)).toList =
      quote :: (Utf8.decode inner ++ [quote]) := by
    rw [Utf8.text, String.toList_ofList, written]
    refine (Utf8.decode_append_byte ascii [] _).trans ?_
    rw [Utf8.decode_nil, Utf8.decode_append_last ascii]
    rfl
  rw [unquote?, text, quotedChars?_decode quoted escaped]
  rfl

end Component

namespace Token

variable {source : List UInt8} {token : Token}

theorem scan_of_mem_tokensOf (mem : token ∈ tokensOf source) :
    ∃ rest length, scan rest = .token token.kind length ∧ token.bytes = rest.take length := by
  obtain ⟨-, rest, length, -, -, front, bytes⟩ := Lexeme.scan_of_mem_readFrom mem
  exact ⟨rest, length, front, bytes⟩

/-- The text of a string token is quoted. -/
theorem unquote?_of_str (mem : token ∈ tokensOf source) (str : token.kind = .str) :
    (Component.unquote? token.text).isSome = true := by
  obtain ⟨rest, length, front, bytes⟩ := scan_of_mem_tokensOf mem
  rw [str] at front
  rw [Token.text, bytes]
  exact Component.unquote?_of_scan front

/-- The text of a function token has a parenthesis, and another one at its end. -/
theorem text_of_function (mem : token ∈ tokensOf source) (function : token.kind = .function) :
    ∃ name arguments, token.text.toList = name ++ '(' :: (arguments ++ [')']) := by
  obtain ⟨rest, length, front, bytes⟩ := scan_of_mem_tokensOf mem
  rw [function] at front
  obtain ⟨name, arguments, written⟩ := scan_function front
  refine ⟨Utf8.decode name, Utf8.decode arguments, ?_⟩
  rw [Token.text, Utf8.text, String.toList_ofList, bytes, written,
    Utf8.decode_append_byte (by decide), Utf8.decode_append_last (by decide)]

end Token

end StyleCascade
