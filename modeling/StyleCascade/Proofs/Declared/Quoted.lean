import StyleCascade.Proofs.Declared.Classified
import StyleCascade.Proofs.Text.Pieces

namespace StyleCascade

open Value (escapeQuotes)

namespace Component

variable {c : Char} {chars rest : List Char}

theorem unescape_kept (noHex : Ascii.isHexDigit c = false) (rest : List Char) :
    unescape ('\\' :: c :: rest) = c :: unescape rest := by
  have noDigits : ((c :: rest).take 6).takeWhile Ascii.isHexDigit = [] := by
    rw [List.take_succ_cons, List.takeWhile_cons, noHex]
    rfl
  rw [unescape.eq_def]
  simp only [if_true, noDigits]

/-- Up to six hexadecimal digits name a code point, and one white space character behind them
belongs to the escape. -/
theorem unescape_hex (hex : Ascii.isHexDigit c = true) (rest : List Char) :
    let digits := ((c :: rest).take 6).takeWhile Ascii.isHexDigit
    unescape ('\\' :: c :: rest) =
      codePoint (Ascii.hexNumber digits) ::
        unescape (dropSpace ((c :: rest).drop digits.length)) := by
  intro digits
  have some : digits ≠ [] := by
    simp only [digits, List.take_succ_cons, List.takeWhile_cons, hex, if_true]
    exact List.cons_ne_nil _ _
  rw [unescape.eq_def]
  simp only [if_true]
  split
  · next none => exact absurd none some
  · rfl

/-- Every backslash stands directly before a double quote. -/
def EscapesQuotes : List Char → Prop
  | [] => True
  | c :: rest => (c = '\\' → rest.head? = some '"') ∧ EscapesQuotes rest

theorem escapesQuotes_of_plain (plain : '\\' ∉ chars) : EscapesQuotes chars := by
  induction chars with
  | nil => trivial
  | cons c rest ih =>
    refine ⟨?_, ih (List.not_mem_of_not_mem_cons plain)⟩
    rintro rfl
    exact absurd List.mem_cons_self plain

theorem escapeQuotes_cons (other : c ≠ '"') (rest : List Char) :
    escapeQuotes (c :: rest) = c :: escapeQuotes rest := by
  rw [escapeQuotes, if_neg other]

theorem escapeQuotes_quote (rest : List Char) :
    escapeQuotes ('"' :: rest) = '\\' :: '"' :: escapeQuotes rest := by
  rw [escapeQuotes, if_pos rfl]

/-- The digits in front are the same, and behind them is what is written for the rest. -/
theorem hexDigits_escapeQuotes (chars : List Char) (count : Nat) :
    let digits := (chars.take count).takeWhile Ascii.isHexDigit
    ((escapeQuotes chars).take count).takeWhile Ascii.isHexDigit = digits ∧
      (escapeQuotes chars).drop digits.length = escapeQuotes (chars.drop digits.length) := by
  induction chars generalizing count with
  | nil => simp [escapeQuotes]
  | cons c rest ih =>
    cases count with
    | zero => simp
    | succ count =>
      have noDigit : Ascii.isHexDigit '\\' = false := by decide
      by_cases quote : c = '"'
      · subst quote
        have noDigit' : Ascii.isHexDigit '"' = false := by decide
        simp [escapeQuotes_quote, noDigit, noDigit']
      · rw [escapeQuotes_cons quote]
        cases hex : Ascii.isHexDigit c with
        | false => simp [hex, escapeQuotes_cons quote]
        | true =>
          obtain ⟨same, behind⟩ := ih count
          simp [hex, same, behind]

theorem dropSpace_cons (other : c ≠ ' ') (rest : List Char) :
    dropSpace (c :: rest) = c :: rest := by
  unfold dropSpace
  split
  · next same => exact absurd (List.cons.inj same).1 other
  · rfl

theorem dropSpace_escapeQuotes (chars : List Char) :
    dropSpace (escapeQuotes chars) = escapeQuotes (dropSpace chars) := by
  cases chars with
  | nil => rfl
  | cons c rest =>
    by_cases quote : c = '"'
    · subst quote
      rfl
    rw [escapeQuotes_cons quote]
    by_cases space : c = ' '
    · subst space
      rfl
    · rw [dropSpace_cons space, dropSpace_cons space, escapeQuotes_cons quote]

/-- A backslash that stands before no quote is read together with what is behind it, as one
character at most. -/
theorem unescape_lost (other : rest.head? ≠ some '"') :
    ∃ read behind, unescape (escapeQuotes ('\\' :: rest)) =
        read ++ unescape (escapeQuotes behind) ∧ read.length + behind.length ≤ rest.length := by
  have plain : '\\' ≠ '"' := by decide
  rw [escapeQuotes_cons plain]
  cases rest with
  | nil => exact ⟨[], [], by simp [escapeQuotes, unescape], Nat.le_refl _⟩
  | cons c more =>
    have noQuote : c ≠ '"' := fun same => other (congrArg some same)
    cases hex : Ascii.isHexDigit c with
    | false =>
      refine ⟨[c], more, ?_, Nat.le_of_eq (Nat.add_comm _ _)⟩
      rw [escapeQuotes_cons noQuote, unescape_kept hex]
      rfl
    | true =>
      let digits := ((c :: more).take 6).takeWhile Ascii.isHexDigit
      obtain ⟨same, behind⟩ := hexDigits_escapeQuotes (c :: more) 6
      have read := unescape_hex hex (escapeQuotes more)
      rw [← escapeQuotes_cons noQuote] at read
      simp only [same, behind, dropSpace_escapeQuotes] at read
      refine ⟨[_], _, read, ?_⟩
      have some : 0 < digits.length := by simp [digits, hex]
      have space := length_dropSpace_le ((c :: more).drop digits.length)
      rw [List.length_drop] at space
      show 1 + (dropSpace ((c :: more).drop digits.length)).length ≤ (c :: more).length
      rw [List.length_cons] at space ⊢
      omega

/-- A backslash directly before a quote is read as itself, and so is any other character. -/
theorem unescape_escapeQuotes_cons (free : c = '\\' → rest.head? = some '"') :
    unescape (escapeQuotes (c :: rest)) = c :: unescape (escapeQuotes rest) := by
  have noHex : Ascii.isHexDigit '"' = false ∧ Ascii.isHexDigit '\\' = false := by decide
  by_cases quote : c = '"'
  · subst quote
    rw [escapeQuotes_quote, unescape_kept noHex.1]
  rw [escapeQuotes_cons quote]
  by_cases escape : c = '\\'
  · obtain ⟨more, rfl⟩ := List.head?_eq_some_iff.mp (free escape)
    subst escape
    have plain : '"' ≠ '\\' := by decide
    rw [escapeQuotes_quote, unescape_kept noHex.2, unescape_kept noHex.1, unescape_cons plain]
  · rw [unescape_cons escape]

theorem length_unescape_escapeQuotes_le (chars : List Char) :
    (unescape (escapeQuotes chars)).length ≤ chars.length := by
  match chars with
  | [] => rw [escapeQuotes, unescape]
  | c :: rest =>
    by_cases free : c = '\\' → rest.head? = some '"'
    · have := length_unescape_escapeQuotes_le rest
      rw [unescape_escapeQuotes_cons free]
      exact Nat.succ_le_succ this
    · obtain ⟨rfl, other⟩ := Classical.not_imp.mp free
      obtain ⟨read, behind, same, size⟩ := unescape_lost other
      have := length_unescape_escapeQuotes_le behind
      rw [same, List.length_append, List.length_cons]
      omega
  termination_by chars.length
  decreasing_by
    all_goals simp only [List.length_cons]; omega

/-- What is written with escaped quotes is read back just if each backslash stands directly before
a quote. -/
theorem unescape_escapeQuotes_eq_iff (chars : List Char) :
    unescape (escapeQuotes chars) = chars ↔ EscapesQuotes chars := by
  induction chars with
  | nil => simp [escapeQuotes, unescape, EscapesQuotes]
  | cons c rest ih =>
    rw [EscapesQuotes]
    by_cases free : c = '\\' → rest.head? = some '"'
    · rw [unescape_escapeQuotes_cons free, List.cons.injEq, ih]
      exact ⟨fun same => ⟨free, same.2⟩, fun all => ⟨rfl, all.2⟩⟩
    · refine iff_of_false (fun same => ?_) (fun all => free all.1)
      obtain ⟨rfl, other⟩ := Classical.not_imp.mp free
      obtain ⟨read, behind, lost, size⟩ := unescape_lost other
      have shorter := length_unescape_escapeQuotes_le behind
      have length := congrArg List.length (lost.symm.trans same)
      rw [List.length_append, List.length_cons] at length
      omega

section Split

variable {part : List Char} {depth : Nat}

/-- Inside quotes nothing but the same quote ends the quoting. -/
theorem splitFrom_quoted {quote : Char} (other : c ≠ '\\') (rest : List Char) :
    splitFrom part depth (some quote) (c :: rest) =
      splitFrom (c :: part) depth (if c = quote then none else some quote) rest := by
  rw [splitFrom.eq_def]
  simp only [other, if_false]

/-- And a backslash takes the next character along, whatever it is. -/
theorem splitFrom_kept {quote : Char} (kept : Char) (rest : List Char) :
    splitFrom part depth (some quote) ('\\' :: kept :: rest) =
      splitFrom (kept :: '\\' :: part) depth (some quote) rest := by
  rw [splitFrom.eq_def]
  simp only [if_true]

/-- Inside quotes, everything up to the first bare quote belongs to the component. -/
theorem splitFrom_bare {quote : Char} {inner : List Char} (noEscape : quote ≠ '\\')
    (closed : quote ∉ bare inner ∧ '\\' ∉ bare inner) (rest : List Char) :
    splitFrom part depth (some quote) (inner ++ quote :: rest) =
      splitFrom (quote :: (inner.reverse ++ part)) depth none rest := by
  fun_induction bare inner generalizing part with
  | case1 =>
    rw [List.nil_append, splitFrom_quoted noEscape, if_pos rfl]
    rfl
  | case2 => exact absurd List.mem_cons_self closed.2
  | case3 kept more ih =>
    rw [List.cons_append, List.cons_append, splitFrom_kept, ih closed]
    simp only [List.reverse_cons, List.append_assoc, List.cons_append, List.nil_append]
  | case4 c rest plain ih =>
    have other : c ≠ quote := Ne.symm (List.ne_of_not_mem_cons closed.1)
    have behind := And.intro (List.not_mem_of_not_mem_cons closed.1)
      (List.not_mem_of_not_mem_cons closed.2)
    rw [List.cons_append, splitFrom_quoted plain, if_neg other, ih behind]
    simp only [List.reverse_cons, List.append_assoc, List.cons_append, List.nil_append]

theorem flatten_finish (part : List Char) : (finish part).flatten = part.reverse := by
  cases part <;> simp [finish]

/-- Components take no character of a text twice, and keep the order. -/
theorem flatten_splitFrom_sublist (part : List Char) (depth : Nat) (quote : Option Char)
    (chars : List Char) :
    (splitFrom part depth quote chars).flatten.Sublist (part.reverse ++ chars) := by
  fun_induction splitFrom part depth quote chars with
  | case1 part => simp [flatten_finish]
  | case2 part => simp [flatten_finish]
  | case3 part depth quote kept more ih => simpa using ih
  -- a comma is a component between two others, and white space is in none
  | case8 part depth c rest _ _ _ _ ih =>
    rw [List.flatten_append, flatten_finish, List.flatten_cons, List.singleton_append]
    exact (ih.cons_cons c).append_left part.reverse
  | case9 part depth c rest _ _ _ _ _ ih =>
    rw [List.flatten_append, flatten_finish]
    exact (ih.cons c).append_left part.reverse
  | case4 part depth c rest quote other ih => simpa using ih
  | case5 part depth c rest quote ih => simpa using ih
  | case6 part depth rest noQuote ih => simpa using ih
  | case7 part depth rest noQuote noOpen ih => simpa using ih
  | case10 part depth c rest _ _ _ _ _ ih => simpa using ih

theorem flatten_split_sublist (text : String) :
    ((split text).map String.toList).flatten.Sublist text.toList := by
  have pieces : (split text).map String.toList = splitFrom [] 0 none text.toList := by
    rw [split, List.map_map]
    refine (List.map_congr_left fun _ _ => String.toList_ofList).trans (List.map_id' _)
  rw [pieces]
  exact flatten_splitFrom_sublist [] 0 none text.toList

/-- A component that is as long as the whole text is the text. -/
theorem eq_of_split_singleton {text only : String} (alone : split text = [only])
    (whole : text.toList.length ≤ only.toList.length) : only = text := by
  have inside := flatten_split_sublist text
  rw [alone, List.map_singleton, List.flatten_singleton] at inside
  exact String.toList_inj.mp (inside.eq_of_length_le whole)

end Split

/-- The two marks that strings stand between. -/
inductive Quote
  | double
  | single
  deriving DecidableEq, Repr

/-- The character of a mark. -/
def Quote.char : Quote → Char
  | .double => '"'
  | .single => '\''

/-- Characters between two marks. -/
def quoted (quote : Quote) (inner : List Char) : String :=
  String.ofList (quote.char :: (inner ++ [quote.char]))

section Quoted

variable {quote : Quote} {inner : List Char}

theorem toList_quoted (quote : Quote) (inner : List Char) :
    (quoted quote inner).toList = quote.char :: (inner ++ [quote.char]) :=
  String.toList_ofList

theorem Quote.ink (quote : Quote) : Text.isBlank quote.char = false := by
  cases quote <;> rfl

theorem kept_quoted (quote : Quote) (inner : List Char) :
    Text.Kept Text.isBlank (quoted quote inner) where
  filled := by
    rw [toList_quoted]
    exact List.cons_ne_nil _ _
  front := by
    rw [toList_quoted]
    rintro c ⟨⟩
    exact quote.ink
  back := by
    rw [toList_quoted, ← List.cons_append, List.getLast?_concat]
    rintro c ⟨⟩
    exact quote.ink

theorem splitFrom_open (quote : Quote) (depth : Nat) (rest : List Char) :
    splitFrom [] depth none (quote.char :: rest) =
      splitFrom [quote.char] depth (some quote.char) rest := by
  cases quote <;> rfl

/-- Behind a text in quotes, splitting goes on with what is read so far. -/
theorem splitFrom_closed (closed : quote.char ∉ bare inner ∧ '\\' ∉ bare inner) (depth : Nat)
    (rest : List Char) :
    splitFrom [] depth none ((quoted quote inner).toList ++ rest) =
      splitFrom (quoted quote inner).toList.reverse depth none rest := by
  have noEscape : quote.char ≠ '\\' := by cases quote <;> decide
  rw [toList_quoted, List.cons_append, List.append_assoc, splitFrom_open, List.singleton_append,
    splitFrom_bare noEscape closed]
  simp only [List.reverse_cons, List.reverse_append, List.reverse_nil, List.nil_append,
    List.cons_append]

/-- A text in quotes is one component if no quote and no backslash is bare inside. -/
theorem split_quoted (closed : quote.char ∉ bare inner ∧ '\\' ∉ bare inner) :
    split (quoted quote inner) = [quoted quote inner] := by
  have whole := splitFrom_closed closed 0 []
  rw [List.append_nil] at whole
  rw [split, whole]
  simp [splitFrom, finish, quoted]

/-- A quoted text is taken unless its last character is a backslash that the check takes for an
escape. The check looks at two characters, so three backslashes count as an escaped one. -/
theorem unquote?_quoted (quote : Quote) (inner : List Char) :
    unquote? (quoted quote inner) =
      if inner.getLast? = some '\\' ∧ inner.dropLast.getLast? ≠ some '\\' then none
      else some (String.ofList (unescape inner)) := by
  have mark : (decide (quote.char = '"') || decide (quote.char = '\'')) = true := by
    cases quote <;> rfl
  rw [unquote?, toList_quoted, quotedChars?]
  simp only [mark, decide_true, List.getLast?_concat, List.dropLast_concat, Bool.true_and,
    if_true, Bool.and_eq_true, decide_eq_true_eq]
  split <;> rfl

/-- What begins with a quote is a string, or it is kept as it is. -/
theorem classify_quoted (quote : Quote) (inner : List Char) :
    classify (quoted quote inner) =
      (unquote? (quoted quote inner)).elim (.raw (quoted quote inner)) .str := by
  have head : quote.char ∈ (quoted quote inner).toList := by
    rw [toList_quoted]
    exact List.mem_cons_self
  cases found : unquote? (quoted quote inner) with
  | some text => rw [classify, found, Option.elim_some]
  | none =>
    have noFunction : splitFunction? (quoted quote inner).toList = none := by
      refine Option.eq_none_iff_forall_ne_some.mpr ?_
      rintro ⟨name, arguments⟩ found
      obtain ⟨shape, filled, chars⟩ := splitFunction?_eq_some found
      obtain ⟨c, rest, rfl⟩ := List.exists_cons_of_ne_nil filled
      rw [toList_quoted] at shape
      obtain ⟨rfl, -⟩ := List.cons.inj shape
      exact absurd (chars quote.char List.mem_cons_self) (by cases quote <;> decide)
    have noNumber : numeric? (quoted quote inner) = none := by
      refine Option.eq_none_iff_forall_ne_some.mpr fun value found => ?_
      obtain ⟨-, chars⟩ := numericChars_of_numeric? found
      exact absurd (chars quote.char head) (by cases quote <;> decide)
    have noName : (quoted quote inner).toList.all Ascii.isNameChar = false := by
      refine List.all_eq_false.mpr ⟨quote.char, head, ?_⟩
      cases quote <;> decide
    rw [classify, found]
    simp only [Option.elim_none]
    split
    · next hash =>
      rw [toList_quoted] at hash
      exact absurd (List.cons.inj hash).1 (by cases quote <;> decide)
    · rw [noFunction]
      simp only [ofPlain, noNumber, noName, Bool.and_false, Bool.false_eq_true, if_false]

theorem getLast?_escapeQuotes (chars : List Char) :
    (escapeQuotes chars).getLast? = chars.getLast? := by
  induction chars with
  | nil => rfl
  | cons c rest ih =>
    have shape : ∃ front, escapeQuotes (c :: rest) = front ++ (c :: escapeQuotes rest) := by
      by_cases quote : c = '"'
      · subst quote
        exact ⟨['\\'], escapeQuotes_quote rest⟩
      · exact ⟨[], escapeQuotes_cons quote rest⟩
    obtain ⟨front, written⟩ := shape
    rw [written, List.getLast?_append, List.getLast?_cons, List.getLast?_cons, ih, Option.some_or]

theorem not_escapesQuotes_concat (front : List Char) : ¬EscapesQuotes (front ++ ['\\']) := by
  induction front with
  | nil => simp [EscapesQuotes]
  | cons c rest ih => exact fun all => ih all.2

/-- A string is read from what is written for it with escaped quotes just if each of its backslashes
stands directly before a quote. -/
theorem unquote?_escaped_iff (text : String) :
    unquote? (quoted .double (escapeQuotes text.toList)) = some text ↔
      EscapesQuotes text.toList := by
  rw [← unescape_escapeQuotes_eq_iff, unquote?_quoted]
  have same : some (String.ofList (unescape (escapeQuotes text.toList))) = some text ↔
      unescape (escapeQuotes text.toList) = text.toList := by
    rw [Option.some.injEq, ← String.toList_inj, String.toList_ofList]
  split
  · next last =>
    obtain ⟨front, shape⟩ := List.getLast?_eq_some_iff.mp
      ((getLast?_escapeQuotes text.toList).symm.trans last.1)
    refine iff_of_false (by simp) fun read => not_escapesQuotes_concat front ?_
    rw [← shape]
    exact (unescape_escapeQuotes_eq_iff text.toList).mp read
  · exact same

/-- A string is read from its own characters in quotes just if there is no backslash. -/
theorem unquote?_plain_iff (quote : Quote) (text : String) :
    unquote? (quoted quote text.toList) = some text ↔ '\\' ∉ text.toList := by
  rw [← unescapeText_eq_iff, unquote?_quoted]
  split
  · next last =>
    refine iff_of_false (by simp) fun read => ?_
    exact (unescapeText_eq_iff text).mp read (List.mem_of_getLast? last.1)
  · rw [Option.some.injEq, unescapeText]

theorem bare_of_plain {chars : List Char} (plain : '\\' ∉ chars) : bare chars = chars := by
  induction chars with
  | nil => rfl
  | cons c rest ih =>
    have other : c ≠ '\\' := Ne.symm (List.ne_of_not_mem_cons plain)
    rw [bare.eq_def]
    simp only [other, if_false, ih (List.not_mem_of_not_mem_cons plain)]

/-- Escaped quotes are not bare. -/
theorem bare_escapeQuotes {chars : List Char} (plain : '\\' ∉ chars) :
    bare (escapeQuotes chars) = chars.filter (· ≠ '"') := by
  induction chars with
  | nil => rfl
  | cons c rest ih =>
    have other : c ≠ '\\' := Ne.symm (List.ne_of_not_mem_cons plain)
    have behind := ih (List.not_mem_of_not_mem_cons plain)
    by_cases quote : c = '"'
    · subst quote
      rw [escapeQuotes_quote, bare.eq_def]
      simpa using behind
    · rw [escapeQuotes_cons quote, bare.eq_def]
      simp [other, quote, behind]

end Quoted

end Component

namespace Value

open Component (Quote quoted split classify unquote?)

/-- A text with nothing to trim is a component as a whole, or it is kept as it is. -/
theorem ofText_of_trimmed {text : String} (trimmed : Text.trim text = text) :
    ofText text = if split text = [text] then classify text else .raw text := by
  rw [ofText, trimmed]
  split
  · next only alone =>
    by_cases same : only = text
    · rw [if_pos same, if_pos (by rw [alone, same])]
    · rw [if_neg same, if_neg (by rw [alone]; exact fun equal => same (List.cons.inj equal).1)]
  · next several => rw [if_neg (fun alone => several text alone)]

/-- A quoted text becomes a string when it is one component and its quotes come off, and stays as it
was written otherwise. -/
theorem ofText_quoted (quote : Quote) (inner : List Char) :
    ofText (quoted quote inner) =
      if split (quoted quote inner) = [quoted quote inner] then
        (unquote? (quoted quote inner)).elim (.raw (quoted quote inner)) .str
      else .raw (quoted quote inner) := by
  rw [ofText_of_trimmed (Component.kept_quoted quote inner).trim_eq, Component.classify_quoted]

/-- What it takes for a string to be read back as this text. -/
theorem ofText_quoted_eq_str_iff (quote : Quote) (inner : List Char) (text : String) :
    ofText (quoted quote inner) = .str text ↔
      split (quoted quote inner) = [quoted quote inner] ∧
        unquote? (quoted quote inner) = some text := by
  rw [ofText_quoted]
  split
  · next alone =>
    rw [and_iff_right alone]
    cases unquote? (quoted quote inner) <;> simp
  · next several => simp [several]

theorem text_str (text : String) : (str text).text = quoted .double (escapeQuotes text.toList) :=
  rfl

/-- A string is read back from its text just if each of its backslashes stands directly before a
quote, and the text is one component. -/
theorem ofText_text_str_iff (text : String) :
    ofText (str text).text = .str text ↔
      Component.EscapesQuotes text.toList ∧ split (str text).text = [(str text).text] := by
  rw [text_str, ofText_quoted_eq_str_iff, Component.unquote?_escaped_iff, and_comm]

/-- A string without a backslash is read back from its text. -/
theorem ofText_text_str {text : String} (plain : '\\' ∉ text.toList) :
    ofText (str text).text = .str text := by
  refine (ofText_text_str_iff text).mpr ⟨Component.escapesQuotes_of_plain plain, ?_⟩
  rw [text_str]
  refine Component.split_quoted ?_
  rw [Component.bare_escapeQuotes plain]
  exact ⟨by simp [Component.Quote.char], fun mem => plain (List.mem_filter.mp mem).1⟩

end Value

end StyleCascade
