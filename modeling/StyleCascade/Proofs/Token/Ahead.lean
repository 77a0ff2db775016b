import Mathlib.Data.List.Find
import StyleCascade.Proofs.Lists
import StyleCascade.Token.Scan

namespace StyleCascade

namespace Scan

/-- Bytes that go on with no identifier and no mark of several bytes, and that begin no arguments
of a function. -/
def breaks (b : UInt8) : Bool :=
  !(isIdentByte b || b = Ascii.byte '*' || b = Ascii.byte '!' || b = Ascii.byte '>' ||
    b = Ascii.byte '(')

/-- A byte and what may stand in its place behind a token: nothing, or bytes of which the first goes
on with no token either. That one is no white space, which would go on with white space in front of
it. -/
structure Swap (b : UInt8) (after : List UInt8) : Prop where
  one : breaks b = true
  other : ∀ c ∈ after.head?, breaks c = true
  solid : ∀ c ∈ after.head?, Ascii.isSpaceByte c = false

theorem Swap.of_nil {b : UInt8} (cut : breaks b = true) : Swap b [] :=
  ⟨cut, fun _ head => (by cases head), fun _ head => (by cases head)⟩

theorem Swap.of_cons {b c : UInt8} (one : breaks b = true) (other : breaks c = true)
    (solid : Ascii.isSpaceByte c = false) (rest : List UInt8) : Swap b (c :: rest) :=
  ⟨one, fun _ head => (by cases head; exact other), fun _ head => (by cases head; exact solid)⟩

section

variable {b : UInt8}

theorem not_ident_of_breaks (cut : breaks b = true) : isIdentByte b = false := by
  simp only [breaks, Bool.not_eq_true', Bool.or_eq_false_iff] at cut
  exact cut.1.1.1.1

theorem ne_paren_of_breaks (cut : breaks b = true) : b ≠ Ascii.byte '(' := by
  simp only [breaks, Bool.not_eq_true', Bool.or_eq_false_iff, decide_eq_false_iff_not] at cut
  exact cut.2

theorem not_mem_of_breaks {word : List UInt8} (going : word.all (fun c => !breaks c) = true)
    (cut : breaks b = true) : b ∉ word := fun mem => by
  simpa [cut] using List.all_eq_true.mp going b mem

theorem breaks_lowerByte (cut : breaks b = true) : breaks (Ascii.lowerByte b) = true := by
  unfold Ascii.lowerByte
  split
  · next letter =>
    have ident : isIdentByte b = true := by
      simp only [isIdentByte, Ascii.isAlphanumByte, letter, Bool.or_true, Bool.true_or]
    exact absurd ((not_ident_of_breaks cut).symm.trans ident) Bool.false_ne_true
  · exact cut

theorem breaks_of_space (space : Ascii.isSpaceByte b = true) : breaks b = true := by
  simp only [Ascii.isSpaceByte, Bool.or_eq_true, decide_eq_true_eq] at space
  obtain (((rfl | rfl) | rfl) | rfl) | rfl := space <;> decide

end

section

variable {front after : List UInt8}

/-- A mark is not found across a byte that is not in it. -/
theorem isPrefixOf_append {mark : List UInt8} (without : ∀ c ∈ after.head?, c ∉ mark) :
    mark.isPrefixOf (front ++ after) = mark.isPrefixOf front := by
  induction front generalizing mark with
  | nil =>
    cases mark with
    | nil => rfl
    | cons m mark =>
      cases after with
      | nil => rfl
      | cons c rest =>
        have other : (m == c) = false :=
          beq_eq_false_iff_ne.mpr (Ne.symm (List.ne_of_not_mem_cons (without c rfl)))
        rw [List.nil_append, List.isPrefixOf_cons_cons, other, Bool.false_and]
        rfl
  | cons a front ih =>
    cases mark with
    | nil => rfl
    | cons m mark =>
      rw [List.cons_append, List.isPrefixOf, List.isPrefixOf,
        ih (fun c head => List.not_mem_of_not_mem_cons (without c head))]

/-- The marks of several bytes are those in front of a byte that goes on with none of them. -/
theorem marks_append (a : UInt8) (front : List UInt8)
    (cut : ∀ c ∈ after.head?, breaks c = true) :
    (Ascii.bytes "/*").isPrefixOf (a :: (front ++ after)) =
        (Ascii.bytes "/*").isPrefixOf (a :: front) ∧
      (Ascii.bytes "<!--").isPrefixOf (a :: (front ++ after)) =
        (Ascii.bytes "<!--").isPrefixOf (a :: front) ∧
      (Ascii.bytes "-->").isPrefixOf (a :: (front ++ after)) =
        (Ascii.bytes "-->").isPrefixOf (a :: front) := by
  have marks {m : UInt8} {mark : List UInt8}
      (without : ∀ {c : UInt8}, breaks c = true → c ∉ mark) :
      (m :: mark).isPrefixOf (a :: (front ++ after)) = (m :: mark).isPrefixOf (a :: front) := by
    rw [List.isPrefixOf_cons_cons, List.isPrefixOf_cons_cons,
      isPrefixOf_append (fun c head => without (cut c head))]
  exact ⟨marks (not_mem_of_breaks (by decide)), marks (not_mem_of_breaks (by decide)),
    marks (not_mem_of_breaks (by decide))⟩

/-- The words behind `@` are made of bytes that go on with a token. -/
theorem going_of_atWords : ∀ entry ∈ atWords, entry.1.all (fun c => !breaks c) = true := by
  decide

/-- A word is not found across a byte that is not in it. -/
theorem beginsWith_append {word : List UInt8}
    (without : ∀ c ∈ after.head?, Ascii.lowerByte c ∉ word) :
    Ascii.beginsWith word (front ++ after) = Ascii.beginsWith word front := by
  induction front generalizing word with
  | nil =>
    cases word with
    | nil => rw [Ascii.beginsWith.eq_def, Ascii.beginsWith.eq_def]
    | cons w word =>
      cases after with
      | nil => rfl
      | cons c rest =>
        have other : w ≠ Ascii.lowerByte c := Ne.symm (List.ne_of_not_mem_cons (without c rfl))
        rw [List.nil_append, Ascii.beginsWith, Ascii.beginsWith, decide_eq_false other,
          Bool.false_and]
  | cons a front ih =>
    cases word with
    | nil => rfl
    | cons w word =>
      rw [List.cons_append, Ascii.beginsWith, Ascii.beginsWith,
        ih (fun c head => List.not_mem_of_not_mem_cons (without c head))]

theorem length_le_of_beginsWith {word : List UInt8}
    (begins : Ascii.beginsWith word front = true) : word.length ≤ front.length := by
  induction front generalizing word with
  | nil =>
    cases word with
    | nil => exact Nat.le_refl _
    | cons w word => cases begins
  | cons a front ih =>
    cases word with
    | nil => simp
    | cons w word =>
      rw [Ascii.beginsWith, Bool.and_eq_true] at begins
      exact Nat.succ_le_succ (ih begins.2)

end

theorem commentLength?_pos {source : List UInt8} {length : Nat}
    (found : commentLength? source = some length) : 0 < length := by
  cases source with
  | nil => cases found
  | cons b rest =>
    rw [commentLength?] at found
    split at found
    · cases found; omega
    · obtain ⟨inner, -, rfl⟩ := Option.map_eq_some_iff.mp found
      omega

theorem stringLength?_pos {quote : UInt8} {source : List UInt8} {length : Nat}
    (found : stringLength? quote source = some length) : 0 < length := by
  unfold stringLength? at found
  split at found
  · cases found
  split at found
  · split at found
    · cases found
    · obtain ⟨inner, -, rfl⟩ := Option.map_eq_some_iff.mp found
      omega
  split at found
  · cases found; omega
  · obtain ⟨inner, -, rfl⟩ := Option.map_eq_some_iff.mp found
    omega

section

variable {b quote : UInt8}

theorem stringLength?_of_quote (plain : quote ≠ Ascii.byte '\\') (rest : List UInt8) :
    stringLength? quote (quote :: rest) = some 1 := by
  rw [stringLength?.eq_def]
  simp only [plain, if_false, if_true]

theorem stringLength?_of_other (plain : b ≠ Ascii.byte '\\') (inner : b ≠ quote)
    (rest : List UInt8) :
    stringLength? quote (b :: rest) = (stringLength? quote rest).map (1 + ·) := by
  rw [stringLength?.eq_def]
  simp only [plain, inner, if_false]

theorem identLength_of_plain (ident : isIdentByte b = true) (plain : b ≠ Ascii.byte '\\')
    (rest : List UInt8) : identLength (b :: rest) = 1 + identLength rest := by
  rw [identLength.eq_def]
  simp only [ident, plain, if_true, if_false]

theorem identLength_of_other (other : isIdentByte b = false) (rest : List UInt8) :
    identLength (b :: rest) = 0 := by
  rw [identLength.eq_def]
  simp only [other, Bool.false_eq_true, if_false]

/-- Bytes that are neither the quote nor a backslash are passed one at a time. -/
theorem stringLength?_passed {front : List UInt8}
    (plain : ∀ b ∈ front, b ≠ Ascii.byte '\\' ∧ b ≠ quote) (behind : List UInt8) :
    stringLength? quote (front ++ behind) =
      (stringLength? quote behind).map (front.length + ·) := by
  induction front with
  | nil => simp
  | cons b rest ih =>
    obtain ⟨⟨noEscape, noQuote⟩, others⟩ := List.forall_mem_cons.mp plain
    rw [List.cons_append, stringLength?_of_other noEscape noQuote, ih others, Option.map_map,
      List.length_cons]
    congr 1
    funext length
    simp only [Function.comp_apply]
    omega

theorem identLength_passed {front : List UInt8}
    (plain : ∀ b ∈ front, isIdentByte b = true ∧ b ≠ Ascii.byte '\\') (behind : List UInt8) :
    identLength (front ++ behind) = front.length + identLength behind := by
  induction front with
  | nil => simp
  | cons b rest ih =>
    obtain ⟨⟨ident, noEscape⟩, others⟩ := List.forall_mem_cons.mp plain
    rw [List.cons_append, identLength_of_plain ident noEscape, ih others, List.length_cons]
    omega

end

section

variable {front one other : List UInt8} {length : Nat}

/-- A comment that is closed inside the front of a source is closed there whatever follows. -/
theorem commentLength?_swap (found : commentLength? (front ++ one) = some length)
    (inside : length ≤ front.length) : commentLength? (front ++ other) = some length := by
  induction front generalizing length with
  | nil => exact absurd (commentLength?_pos found) (by simpa using inside)
  | cons b front ih =>
    have more : front ≠ [] := by
      rintro rfl
      rw [List.cons_append, commentLength?] at found
      split at found
      · cases found; simp at inside
      · obtain ⟨inner, closed, rfl⟩ := Option.map_eq_some_iff.mp found
        have := commentLength?_pos closed
        simp only [List.length_cons, List.length_nil] at inside
        omega
    have next (behind : List UInt8) : (front ++ behind).head? = front.head? := by
      rw [List.head?_append, List.head?_eq_some_head more, Option.some_or]
    rw [List.cons_append, commentLength?, next] at found ⊢
    split at found
    · next closing => rw [if_pos closing]; exact found
    · next inner =>
      obtain ⟨length, closed, rfl⟩ := Option.map_eq_some_iff.mp found
      rw [if_neg inner, ih closed (by simp only [List.length_cons] at inside; omega)]
      rfl

/-- A string that is closed inside the front of a source is closed there whatever follows. -/
theorem stringLength?_swap {quote : UInt8}
    (found : stringLength? quote (front ++ one) = some length)
    (inside : length ≤ front.length) : stringLength? quote (front ++ other) = some length := by
  fun_induction stringLength? quote front generalizing length with
  | case1 => exact absurd (stringLength?_pos found) (by simpa using inside)
  | case2 =>
    rw [List.cons_append, stringLength?.eq_def] at found
    simp only [if_true] at found
    split at found
    · cases found
    · obtain ⟨inner, -, rfl⟩ := Option.map_eq_some_iff.mp found
      simp only [List.length_cons, List.length_nil] at inside
      omega
  | case3 kept more ih =>
    simp only [List.cons_append, stringLength?, if_true] at found ⊢
    obtain ⟨inner, closed, rfl⟩ := Option.map_eq_some_iff.mp found
    rw [ih closed (by simp only [List.length_cons] at inside; omega)]
    rfl
  | case4 rest plain =>
    rw [List.cons_append, stringLength?_of_quote plain] at found ⊢
    exact found
  | case5 b rest plain inner ih =>
    rw [List.cons_append, stringLength?_of_other plain inner] at found ⊢
    obtain ⟨inner, closed, rfl⟩ := Option.map_eq_some_iff.mp found
    rw [ih closed (by simp only [List.length_cons] at inside; omega)]
    rfl

/-- An identifier that ends inside the front of a source ends there if what follows does not go on
with it. -/
theorem identLength_swap {b : UInt8} (plain : ∀ c ∈ other.head?, isIdentByte c = false)
    (inside : identLength (front ++ b :: one) ≤ front.length) :
    identLength (front ++ other) = identLength (front ++ b :: one) := by
  fun_induction identLength front with
  | case1 =>
    have none : identLength ([] ++ b :: one) = 0 := Nat.le_zero.mp inside
    rw [none, List.nil_append]
    cases other with
    | nil => rfl
    | cons c rest => exact identLength_of_other (plain c rfl) rest
  | case2 ident =>
    simp only [List.cons_append, List.nil_append, identLength, ident, if_true, List.length_cons,
      List.length_nil] at inside
    omega
  | case3 kept more ident ih =>
    simp only [List.cons_append, identLength, ident, if_true, List.length_cons] at inside ⊢
    rw [ih (by omega)]
  | case4 a rest ident single ih =>
    rw [List.cons_append, identLength_of_plain ident single, List.length_cons] at inside
    rw [List.cons_append, List.cons_append, identLength_of_plain ident single,
      identLength_of_plain ident single, ih (by omega)]
  | case5 a rest ends =>
    have none := Bool.eq_false_of_not_eq_true ends
    rw [List.cons_append, List.cons_append, identLength_of_other none,
      identLength_of_other none]

end

/-- The number of bytes that a scan takes. -/
def extent : Scan → Nat
  | .token _ length => length
  | .invalid length => length
  | .done => 0

/-- A reader that goes on to the end of a source where it misses its mark has met the mark if it
stops before. -/
theorem exists_of_extent_le {found : Option Nat} {kind : TokenKind} {missed : Scan}
    {before bound : Nat}
    (inside : (match found with
      | some length => token kind (before + length)
      | none => missed).extent ≤ bound)
    (far : bound < missed.extent) : ∃ length, found = some length ∧ before + length ≤ bound := by
  cases found with
  | some length => exact ⟨length, rfl, inside⟩
  | none => exact absurd inside (Nat.not_le_of_lt far)

section

variable {front one other : List UInt8} {b : UInt8}

theorem Swap.self (swap : Swap b other) (one : List UInt8) :
    ∀ c ∈ (b :: one).head?, breaks c = true :=
  fun _ head => by cases head; exact swap.one

theorem atWord_swap (swap : Swap b other) :
    atWord (front ++ other) = atWord (front ++ b :: one) := by
  have noIdent {after : List UInt8} (cut : ∀ c ∈ after.head?, breaks c = true) :
      after.head?.any isIdentByte = false := by
    cases after with
    | nil => rfl
    | cons c rest => exact not_ident_of_breaks (cut c rfl)
  have same : ∀ entry ∈ atWords,
      (Ascii.beginsWith entry.1 (front ++ other) &&
          !((front ++ other).drop entry.1.length).head?.any isIdentByte) =
        (Ascii.beginsWith entry.1 (front ++ b :: one) &&
          !((front ++ b :: one).drop entry.1.length).head?.any isIdentByte) := by
    intro entry listed
    have without {after : List UInt8} (cut : ∀ c ∈ after.head?, breaks c = true) :
        ∀ c ∈ after.head?, Ascii.lowerByte c ∉ entry.1 :=
      fun c head => not_mem_of_breaks (going_of_atWords entry listed) (breaks_lowerByte (cut c head))
    rw [beginsWith_append (without (swap.self one)), beginsWith_append (without swap.other)]
    cases begins : Ascii.beginsWith entry.1 front with
    | false => rfl
    | true =>
      -- what stands behind the word is in the front, or it is what is swapped
      have reach := length_le_of_beginsWith begins
      rw [List.drop_append_of_le_length reach, List.drop_append_of_le_length reach]
      cases front.drop entry.1.length with
      | nil => rw [List.nil_append, List.nil_append, noIdent swap.other, noIdent (swap.self one)]
      | cons => rfl
  unfold atWord
  rw [show atWords.find? _ = atWords.find? _ from List.find?_congr same]

theorem importantMark_swap (swap : Swap b other)
    (inside : (importantMark (front ++ b :: one)).extent ≤ front.length + 1) :
    importantMark (front ++ other) = importantMark (front ++ b :: one) := by
  have without {after : List UInt8} (cut : ∀ c ∈ after.head?, breaks c = true) :
      ∀ c ∈ after.head?, Ascii.lowerByte c ∉ Ascii.bytes "important" :=
    fun c head => not_mem_of_breaks (by decide) (breaks_lowerByte (cut c head))
  have noOne := without (swap.self one)
  have noOther := without swap.other
  simp only [importantMark] at inside ⊢
  rcases Nat.lt_or_ge front.length
    ((front ++ b :: one).takeWhile Ascii.isSpaceByte).length with across | within
  · -- the white space goes on behind the front, so neither source has the word
    have none : Ascii.beginsWith (Ascii.bytes "important") ([] ++ other) = false :=
      beginsWith_append noOther
    have run : (front ++ other).takeWhile Ascii.isSpaceByte = front := by
      rw [List.takeWhile_append] at across ⊢
      split at across
      · next whole => rw [if_pos whole, takeWhile_of_stops swap.solid, List.append_nil]
      · exact absurd (List.takeWhile_prefix _).length_le (Nat.not_le_of_lt across)
    rw [List.nil_append] at none
    rw [run, List.drop_left, none]
    split at inside
    · simp only [extent] at inside; omega
    · next absent => rw [if_neg absent, if_neg Bool.false_ne_true]
  · rw [takeWhile_swap swap.solid within, List.drop_append_of_le_length within,
      List.drop_append_of_le_length within, beginsWith_append noOne, beginsWith_append noOther]

/-- What stands at the front of a source and ends in front of a byte stays if something else is put
in its place. -/
theorem flat_swap (swap : Swap b other) (filled : front ≠ [])
    (inside : (flat (front ++ b :: one)).extent ≤ front.length) :
    flat (front ++ other) = flat (front ++ b :: one) := by
  cases front with
  | nil => exact absurd rfl filled
  | cons a front =>
    -- the tests are made in the same order on both sides, and none is decided by what is swapped
    obtain ⟨commentOne, openingOne, closingOne⟩ := marks_append a front (swap.self one)
    obtain ⟨commentOther, openingOther, closingOther⟩ := marks_append a front swap.other
    rw [List.cons_append, List.length_cons] at inside
    rw [List.cons_append, List.cons_append]
    rw [flat, commentOne, openingOne, closingOne] at inside
    rw [flat, flat, commentOne, commentOther, openingOne, openingOther, closingOne, closingOther]
    split at inside
    · next space =>
      have run := takeWhile_swap swap.solid
        (show ((front ++ b :: one).takeWhile Ascii.isSpaceByte).length ≤ front.length by
          simp only [extent] at inside; omega)
      rw [if_pos space, if_pos space, run]
    next solid =>
    rw [if_neg solid, if_neg solid]
    split at inside
    · next start =>
      have reach : 1 ≤ front.length := by
        have inside := (List.isPrefixOf_iff_prefix.mp start).length_le
        have two : (Ascii.bytes "/*").length = 2 := by decide
        rw [two, List.length_cons] at inside
        omega
      rw [List.drop_append_of_le_length reach] at inside
      rw [if_pos start, if_pos start, List.drop_append_of_le_length reach,
        List.drop_append_of_le_length reach]
      obtain ⟨length, found, within⟩ := exists_of_extent_le inside (by
        rw [extent, List.length_append, List.length_cons]; omega)
      rw [found, commentLength?_swap found (by rw [List.length_drop]; omega)]
    next noComment =>
    rw [if_neg noComment, if_neg noComment]
    split at inside
    · next start => rw [if_pos start, if_pos start]
    next noOpening =>
    rw [if_neg noOpening, if_neg noOpening]
    split at inside
    · next start => rw [if_pos start, if_pos start]
    next noClosing =>
    rw [if_neg noClosing, if_neg noClosing]
    split at inside
    · next quote =>
      rw [if_pos quote, if_pos quote]
      obtain ⟨length, found, within⟩ := exists_of_extent_le inside (by
        rw [extent, List.length_append, List.length_cons]; omega)
      rw [found, stringLength?_swap found (by omega)]
    next noQuote =>
    rw [if_neg noQuote, if_neg noQuote]
    split at inside
    · next mark => rw [if_pos mark, if_pos mark, atWord_swap swap]
    next noMark =>
    rw [if_neg noMark, if_neg noMark]
    split at inside
    · next mark => rw [if_pos mark, if_pos mark, importantMark_swap swap inside]
    next noImportant =>
    rw [if_neg noImportant, if_neg noImportant]
    split at inside
    · next ident =>
      rw [← List.cons_append] at inside
      have same :=
        identLength_swap (fun c head => not_ident_of_breaks (swap.other c head)) inside
      rw [List.cons_append, List.cons_append] at same
      rw [if_pos ident, if_pos ident, same]
    · next plain => rw [if_neg plain, if_neg plain]

end

/-- The bytes of the single marks, each with its token. -/
def marks : List (UInt8 × TokenKind) :=
  [(Ascii.byte '#', .hash), (Ascii.byte '.', .dot), (Ascii.byte ',', .comma),
    (Ascii.byte ':', .colon), (Ascii.byte ';', .semicolon), (Ascii.byte '+', .plus),
    (Ascii.byte '>', .greater), (Ascii.byte '~', .tilde), (Ascii.byte '*', .star),
    (Ascii.byte '=', .equals), (Ascii.byte '|', .pipe), (Ascii.byte '/', .slash),
    (Ascii.byte '\x7b', .openBrace), (Ascii.byte '\x7d', .closeBrace),
    (Ascii.byte '[', .openBracket), (Ascii.byte ']', .closeBracket),
    (Ascii.byte '(', .openParen), (Ascii.byte ')', .closeParen)]

/-- Peels one byte off a chain of comparisons, so that the table of single-byte tokens is searched
once. -/
theorem mem_cons_of_ite {b mark : UInt8} {kind token : TokenKind} {others : Option TokenKind}
    {listed : List (UInt8 × TokenKind)}
    (found : (if b = mark then some token else others) = some kind)
    (behind : others = some kind → (b, kind) ∈ listed) : (b, kind) ∈ (mark, token) :: listed := by
  split at found
  · next same =>
    cases found
    exact List.mem_cons.mpr (.inl (congrArg (·, kind) same))
  · exact List.mem_cons_of_mem _ (behind found)

/-- What is true of each single mark is true of the byte and the token of every mark that is read. -/
theorem of_mark? {motive : UInt8 → TokenKind → Prop}
    (each : ∀ entry ∈ marks, motive entry.1 entry.2)
    {b : UInt8} {kind : TokenKind} (found : mark? b = some kind) : motive b kind := by
  refine each (b, kind) ?_
  unfold mark? at found
  unfold marks
  iterate 18 refine mem_cons_of_ite found fun found => ?_
  cases found

theorem mark?_closeBrace {b : UInt8} (found : mark? b = some .closeBrace) :
    b = Ascii.byte '\x7d' :=
  of_mark? (motive := fun b kind => kind = .closeBrace → b = Ascii.byte '\x7d') (by decide) found rfl

theorem mark?_closeParen {b : UInt8} (found : mark? b = some .closeParen) :
    b = Ascii.byte ')' :=
  of_mark? (motive := fun b kind => kind = .closeParen → b = Ascii.byte ')') (by decide) found rfl

theorem mark?_ne_ident (b : UInt8) : mark? b ≠ some .ident := fun found =>
  of_mark? (motive := fun _ kind => kind ≠ .ident) (by decide) found rfl

theorem kind_of_atWord {rest : List UInt8} {kind : TokenKind} {length : Nat}
    (read : atWord rest = .token kind length) : kind ∈ atWords.map Prod.snd := by
  unfold atWord at read
  split at read
  · next word kind found =>
    cases read
    exact List.mem_map_of_mem (List.mem_of_find?_eq_some found)
  · cases read

theorem kind_of_importantMark {rest : List UInt8} {kind : TokenKind} {length : Nat}
    (read : importantMark rest = .token kind length) : kind = .important := by
  simp only [importantMark] at read
  split at read <;> cases read
  rfl

/-- What the tokens at the front of a source are, and how long. -/
inductive Lead : List UInt8 → TokenKind → Nat → Prop
  | white {b : UInt8} {rest : List UInt8} (space : Ascii.isSpaceByte b = true) :
      Lead (b :: rest) .space (1 + (rest.takeWhile Ascii.isSpaceByte).length)
  | comment {rest : List UInt8} {length : Nat} (closed : commentLength? rest = some length) :
      Lead (Ascii.bytes "/*" ++ rest) .space (2 + length)
  | openComment {rest : List UInt8} (opened : commentLength? rest = none) :
      Lead (Ascii.bytes "/*" ++ rest) .space (2 + rest.length)
  | opening {rest : List UInt8} : Lead (Ascii.bytes "<!--" ++ rest) .space 4
  | closing {rest : List UInt8} : Lead (Ascii.bytes "-->" ++ rest) .space 3
  | str {quote : UInt8} {rest : List UInt8} {length : Nat}
      (quoted : quote = Ascii.byte '"' ∨ quote = Ascii.byte '\'')
      (closed : stringLength? quote rest = some length) : Lead (quote :: rest) .str (1 + length)
  | word {rest : List UInt8} {kind : TokenKind} {length : Nat}
      (found : atWord rest = .token kind length) : Lead (Ascii.byte '@' :: rest) kind length
  | important {rest : List UInt8} {length : Nat}
      (found : importantMark rest = .token .important length) :
      Lead (Ascii.byte '!' :: rest) .important length
  | ident {b : UInt8} {rest : List UInt8} (ident : isIdentByte b = true) :
      Lead (b :: rest) .ident (identLength (b :: rest))
  | mark {b : UInt8} {rest : List UInt8} {kind : TokenKind} (found : mark? b = some kind) :
      Lead (b :: rest) kind 1

/-- A comment is a space token, also when nothing closes it. -/
theorem lead_of_comment {b : UInt8} {rest : List UInt8} {kind : TokenKind} {length : Nat}
    (opens : (Ascii.bytes "/*").isPrefixOf (b :: rest))
    (read : (match commentLength? (rest.drop 1) with
      | some length => token .space (2 + length)
      | none => token .space (1 + rest.length)) = token kind length) :
    Lead (b :: rest) kind length := by
  obtain ⟨inner, shape⟩ := List.isPrefixOf_iff_prefix.mp opens
  have behind : rest.drop 1 = inner := by
    have marks : Ascii.bytes "/*" = [47, 42] := rfl
    rw [marks] at shape
    cases shape
    rfl
  rw [behind] at read
  rw [← shape]
  cases closed : commentLength? inner with
  | some length =>
    rw [closed] at read
    cases read
    exact .comment closed
  | none =>
    have size : 1 + rest.length = 2 + inner.length := by
      have same := congrArg List.length shape
      have two : (Ascii.bytes "/*").length = 2 := rfl
      rw [List.length_append, List.length_cons, two] at same
      omega
    rw [closed] at read
    cases read
    rw [size]
    exact .openComment closed

theorem lead_of_flat {source : List UInt8} {kind : TokenKind} {length : Nat}
    (read : flat source = .token kind length) : Lead source kind length := by
  unfold flat at read
  split at read
  · cases read
  · next b rest =>
    split at read
    · next space => cases read; exact .white space
    split at read
    · next opens => exact lead_of_comment opens read
    split at read
    · next opening =>
      obtain ⟨inner, shape⟩ := List.isPrefixOf_iff_prefix.mp opening
      cases read
      rw [← shape]
      exact .opening
    split at read
    · next closing =>
      obtain ⟨inner, shape⟩ := List.isPrefixOf_iff_prefix.mp closing
      cases read
      rw [← shape]
      exact .closing
    split at read
    · next quote =>
      simp only [Bool.or_eq_true, decide_eq_true_eq] at quote
      split at read <;> cases read
      next closed => exact .str quote closed
    split at read
    · next mark => rw [mark]; exact .word read
    split at read
    · next mark =>
      cases kind_of_importantMark read
      rw [mark]
      exact .important read
    split at read
    · next ident => cases read; exact .ident ident
    · split at read <;> cases read
      next found => exact .mark found

/-- The bytes of identifiers are none of white space, and none that a mark, a string or a word of
several bytes begins with, save the hyphen. -/
theorem solid_of_identByte {b : UInt8} (ident : isIdentByte b = true) :
    Ascii.isSpaceByte b = false ∧ b ≠ Ascii.byte '/' ∧ b ≠ Ascii.byte '<' ∧
      b ≠ Ascii.byte '"' ∧ b ≠ Ascii.byte '\'' ∧ b ≠ Ascii.byte '@' ∧ b ≠ Ascii.byte '!' := by
  have noSpace : Ascii.isSpaceByte b = false := Bool.eq_false_iff.mpr fun space =>
    Bool.false_ne_true ((not_ident_of_breaks (breaks_of_space space)).symm.trans ident)
  have apart {mark : UInt8} (other : isIdentByte mark = false) : b ≠ mark :=
    fun same => Bool.false_ne_true (other.symm.trans (same ▸ ident))
  exact ⟨noSpace, apart (by decide), apart (by decide), apart (by decide), apart (by decide),
    apart (by decide), apart (by decide)⟩

/-- Where the byte of an identifier starts no closing mark of a comment, it starts an identifier. -/
theorem flat_of_identByte {b : UInt8} {rest : List UInt8} (ident : isIdentByte b = true)
    (noClosing : (Ascii.bytes "-->").isPrefixOf (b :: rest) = false) :
    flat (b :: rest) = .token .ident (identLength (b :: rest)) := by
  obtain ⟨solid, noSlash, noAngle, noDouble, noSingle, noAt, noImportant⟩ := solid_of_identByte ident
  have noComment : (Ascii.bytes "/*").isPrefixOf (b :: rest) = false :=
    Bool.and_eq_false_imp.mpr fun same => absurd (beq_iff_eq.mp same).symm noSlash
  have noOpening : (Ascii.bytes "<!--").isPrefixOf (b :: rest) = false :=
    Bool.and_eq_false_imp.mpr fun same => absurd (beq_iff_eq.mp same).symm noAngle
  simp only [flat, solid, noComment, noOpening, noClosing, noDouble, noSingle, noAt, noImportant,
    ident, decide_false, Bool.or_self, Bool.false_eq_true, if_false, if_true]

/-- An identifier starts with a byte of identifiers. -/
theorem ident_of_flat {b : UInt8} {rest : List UInt8} {length : Nat}
    (read : flat (b :: rest) = .token .ident length) :
    isIdentByte b = true ∧ length = identLength (b :: rest) := by
  have lead := lead_of_flat read
  generalize shape : b :: rest = source at lead
  cases lead with
  | word found => exact absurd (kind_of_atWord found) (by decide)
  | ident ident => cases shape; exact ⟨ident, rfl⟩
  | mark found => exact absurd found (mark?_ne_ident _)

section

variable {front after : List UInt8}

/-- An identifier that ends with its source goes on with nothing that is no byte of identifiers,
unless a backslash at its end keeps it. -/
theorem identLength_append (whole : identLength front = front.length)
    (ends : front.getLast? ≠ some (Ascii.byte '\\'))
    (cut : ∀ c ∈ after.head?, isIdentByte c = false) :
    identLength (front ++ after) = front.length := by
  fun_induction identLength front with
  | case1 =>
    cases after with
    | nil => rfl
    | cons c rest => exact identLength_of_other (cut c rfl) rest
  | case2 => exact absurd rfl ends
  | case3 kept more ident ih =>
    have endsMore : more.getLast? ≠ some (Ascii.byte '\\') := by
      intro last
      have filled : more ≠ [] := by
        rintro rfl
        cases last
      rw [List.getLast?_cons_cons, List.getLast?_cons_of_ne_nil filled] at ends
      exact ends last
    have inner : identLength more = more.length := by
      simp only [List.length_cons] at whole
      omega
    simp only [List.cons_append, identLength, ident, if_true, ih inner endsMore, List.length_cons]
    omega
  | case4 b rest ident single ih =>
    have endsRest : rest.getLast? ≠ some (Ascii.byte '\\') := by
      intro last
      have filled : rest ≠ [] := by
        rintro rfl
        cases last
      rw [List.getLast?_cons_of_ne_nil filled] at ends
      exact ends last
    have inner : identLength rest = rest.length := by
      rw [List.length_cons] at whole
      omega
    rw [List.cons_append, identLength_of_plain ident single, ih inner endsRest, List.length_cons]
    omega
  | case5 => cases whole

theorem flat_append_ident (whole : flat front = .token .ident front.length)
    (ends : front.getLast? ≠ some (Ascii.byte '\\')) (cut : ∀ c ∈ after.head?, breaks c = true) :
    flat (front ++ after) = .token .ident front.length := by
  cases front with
  | nil => cases whole
  | cons a front =>
    obtain ⟨ident, length⟩ := ident_of_flat whole
    -- no closing mark begins in front of a byte that is in none
    have noClosing : (Ascii.bytes "-->").isPrefixOf (a :: (front ++ after)) = false := by
      rw [(marks_append a front cut).2.2, Bool.eq_false_iff]
      intro closing
      obtain ⟨inner, shape⟩ := List.isPrefixOf_iff_prefix.mp closing
      have space : flat (Ascii.bytes "-->" ++ inner) = .token .space 3 := rfl
      rw [← shape, space] at whole
      cases whole
    have same := identLength_append length.symm ends
      (fun c head => not_ident_of_breaks (cut c head))
    rw [List.cons_append] at same ⊢
    rw [flat_of_identByte ident noClosing, same]

end

/-- A token of a single mark is its byte. -/
theorem flat_mark {source : List UInt8} {kind : TokenKind} {length : Nat}
    (read : flat source = .token kind length)
    (single : kind ∉ [.space, .str, .ident, .important] ++ atWords.map Prod.snd) :
    (∃ b, source.head? = some b ∧ mark? b = some kind) ∧ length = 1 := by
  simp only [List.mem_append, List.mem_cons, List.not_mem_nil, or_false, not_or] at single
  obtain ⟨⟨noSpace, noStr, noIdent, noImportant⟩, noWord⟩ := single
  cases lead_of_flat read with
  | white | comment | openComment | opening | closing => exact absurd rfl noSpace
  | str => exact absurd rfl noStr
  | word found => exact absurd (kind_of_atWord found) noWord
  | important => exact absurd rfl noImportant
  | ident => exact absurd rfl noIdent
  | mark found => exact ⟨⟨_, rfl, found⟩, rfl⟩

theorem flat_closeBrace {source : List UInt8} {length : Nat}
    (read : flat source = .token .closeBrace length) :
    source.head? = some (Ascii.byte '\x7d') ∧ length = 1 := by
  obtain ⟨⟨b, head, found⟩, single⟩ := flat_mark read (by decide)
  exact ⟨head.trans (congrArg some (mark?_closeBrace found)), single⟩

theorem flat_closeParen {source : List UInt8} {length : Nat}
    (read : flat source = .token .closeParen length) :
    source.head? = some (Ascii.byte ')') ∧ length = 1 := by
  obtain ⟨⟨b, head, found⟩, single⟩ := flat_mark read (by decide)
  exact ⟨head.trans (congrArg some (mark?_closeParen found)), single⟩

/-- A byte that is a token by itself wherever a token starts at it, and that goes on with none. -/
structure Mark (b : UInt8) (kind : TokenKind) : Prop where
  cut : breaks b = true
  solid : Ascii.isSpaceByte b = false
  single : ∀ later, scan (b :: later) = .token kind 1

theorem mark_closeBrace : Mark (Ascii.byte '\x7d') .closeBrace :=
  ⟨by decide, by decide, fun _ => rfl⟩

theorem mark_openBrace : Mark (Ascii.byte '\x7b') .openBrace :=
  ⟨by decide, by decide, fun _ => rfl⟩

theorem mark_openBracket : Mark (Ascii.byte '[') .openBracket :=
  ⟨by decide, by decide, fun _ => rfl⟩

theorem mark_closeBracket : Mark (Ascii.byte ']') .closeBracket :=
  ⟨by decide, by decide, fun _ => rfl⟩

theorem mark_semicolon : Mark (Ascii.byte ';') .semicolon :=
  ⟨by decide, by decide, fun _ => rfl⟩

end Scan

end StyleCascade
