import StyleCascade.Proofs.Token.Whole

namespace StyleCascade

namespace Scan

theorem commentLength?_le {source : List UInt8} {length : Nat}
    (found : commentLength? source = some length) : length ≤ source.length := by
  induction source generalizing length with
  | nil => cases found
  | cons b rest ih =>
    rw [commentLength?] at found
    split at found
    · next closing =>
      cases found
      cases rest with
      | nil => simp at closing
      | cons => simp
    · obtain ⟨more, closed, rfl⟩ := Option.map_eq_some_iff.mp found
      have := ih closed
      rw [List.length_cons]; omega

theorem stringLength?_le {quote : UInt8} {source : List UInt8} {length : Nat}
    (found : stringLength? quote source = some length) : length ≤ source.length := by
  fun_induction stringLength? quote source generalizing length with
  | case1 => cases found
  | case2 => cases found
  | case3 kept more ih =>
    obtain ⟨more, closed, rfl⟩ := Option.map_eq_some_iff.mp found
    have := ih closed
    simp only [List.length_cons]; omega
  | case4 => cases found; simp
  | case5 b rest plain other ih =>
    obtain ⟨more, closed, rfl⟩ := Option.map_eq_some_iff.mp found
    have := ih closed
    rw [List.length_cons]; omega

theorem identLength_le (source : List UInt8) : identLength source ≤ source.length := by
  fun_induction identLength source <;> simp only [List.length_cons, List.length_nil] <;> omega

theorem length_of_atWord {rest : List UInt8} {kind : TokenKind} {length : Nat}
    (found : atWord rest = .token kind length) :
    ∃ word, Ascii.beginsWith word rest = true ∧ length = 1 + word.length := by
  unfold atWord at found
  split at found
  · next word _ entry =>
    cases found
    have begins := List.find?_some entry
    rw [Bool.and_eq_true] at begins
    exact ⟨word, begins.1, rfl⟩
  · cases found

/-- The mark is an exclamation mark, white space and nine letters. -/
theorem length_of_importantMark {rest : List UInt8} {kind : TokenKind} {length : Nat}
    (found : importantMark rest = .token kind length) :
    length = 1 + (rest.takeWhile Ascii.isSpaceByte).length + 9 ∧
      Ascii.beginsWith (Ascii.bytes "important")
        (rest.drop (rest.takeWhile Ascii.isSpaceByte).length) = true := by
  simp only [importantMark] at found
  split at found <;> cases found
  next begins => exact ⟨rfl, begins⟩

/-- A token is not longer than its source. -/
theorem flat_token_le {source : List UInt8} {kind : TokenKind} {length : Nat}
    (read : flat source = .token kind length) : length ≤ source.length := by
  have two : (Ascii.bytes "/*").length = 2 := rfl
  cases lead_of_flat read with
  | @white b rest =>
    have := (List.takeWhile_prefix (l := rest) Ascii.isSpaceByte).length_le
    rw [List.length_cons]; omega
  | comment closed =>
    have := commentLength?_le closed
    rw [List.length_append, two]; omega
  | openComment => rw [List.length_append, two]
  | opening =>
    have four : (Ascii.bytes "<!--").length = 4 := rfl
    rw [List.length_append, four]; omega
  | closing =>
    have three : (Ascii.bytes "-->").length = 3 := rfl
    rw [List.length_append, three]; omega
  | str _ closed =>
    have := stringLength?_le closed
    rw [List.length_cons]; omega
  | word found =>
    obtain ⟨word, begins, rfl⟩ := length_of_atWord found
    have := length_le_of_beginsWith begins
    rw [List.length_cons]; omega
  | important found =>
    obtain ⟨rfl, begins⟩ := length_of_importantMark found
    have nine : (Ascii.bytes "important").length = 9 := rfl
    have := length_le_of_beginsWith begins
    rw [List.length_drop, nine] at this
    rw [List.length_cons]; omega
  | ident => exact identLength_le _
  | mark => rw [List.length_cons]; omega

theorem beginsWith_iff {word source : List UInt8} :
    Ascii.beginsWith word source = true ↔ word <+: source.map Ascii.lowerByte := by
  induction word generalizing source with
  | nil => simp [Ascii.beginsWith]
  | cons w word ih =>
    cases source with
    | nil => simp [Ascii.beginsWith]
    | cons b rest => simp [Ascii.beginsWith, ih, List.cons_prefix_cons]

/-- A word that a source begins with is all that is left of a source cut to its length. -/
theorem map_take_of_beginsWith {word source : List UInt8}
    (begins : Ascii.beginsWith word source = true) :
    (source.take word.length).map Ascii.lowerByte = word := by
  obtain ⟨rest, shape⟩ := beginsWith_iff.mp begins
  rw [List.map_take, ← shape, List.take_left]

theorem beginsWith_take {word source : List UInt8}
    (begins : Ascii.beginsWith word source = true) :
    Ascii.beginsWith word (source.take word.length) = true := by
  have whole := map_take_of_beginsWith begins
  exact beginsWith_iff.mpr ⟨[], (List.append_nil word).trans whole.symm⟩

/-- None of the words behind `@` begins another one. -/
theorem atWords_apart :
    ∀ entry ∈ atWords, ∀ other ∈ atWords, other.1 <+: entry.1 → other = entry := by
  decide +kernel

theorem atWord_take {rest : List UInt8} {kind : TokenKind} {length : Nat}
    (found : atWord rest = .token kind length) :
    ∃ size, length = size + 1 ∧ atWord (rest.take size) = .token kind length := by
  unfold atWord at found
  split at found
  · next word kind entry =>
    cases found
    have listed := List.mem_of_find?_eq_some entry
    have begins := List.find?_some entry
    rw [Bool.and_eq_true] at begins
    have whole := map_take_of_beginsWith begins.1
    have holds : (Ascii.beginsWith word (rest.take word.length) &&
        !((rest.take word.length).drop word.length).head?.any isIdentByte) = true := by
      have nothing : (rest.take word.length).drop word.length = [] :=
        List.drop_eq_nil_of_le (List.length_take_le ..)
      rw [beginsWith_take begins.1, nothing]
      rfl
    refine ⟨word.length, Nat.add_comm .., ?_⟩
    unfold atWord
    split
    · next other _ same =>
      -- a word at the front of the cut source begins the word that it was cut to
      have found := List.find?_some same
      rw [Bool.and_eq_true, beginsWith_iff, whole] at found
      cases atWords_apart _ listed _ (List.mem_of_find?_eq_some same) found.1
      rfl
    · next none =>
      exact absurd holds (List.find?_eq_none.mp none _ listed)
  · cases found

theorem takeWhile_take {p : UInt8 → Bool} {source : List UInt8} {length : Nat}
    (reach : (source.takeWhile p).length ≤ length) :
    (source.take length).takeWhile p = source.takeWhile p := by
  have inside := (List.takeWhile_prefix (l := source) p).length_le
  have parts := List.take_append_drop length source
  have same : (source.take length ++ []).takeWhile p =
      (source.take length ++ source.drop length).takeWhile p :=
    takeWhile_swap (fun _ head => by cases head) (by rw [parts, List.length_take]; omega)
  rwa [List.append_nil, parts] at same

theorem importantMark_take {rest : List UInt8} {kind : TokenKind} {length : Nat}
    (found : importantMark rest = .token kind length) :
    ∃ size, length = size + 1 ∧ importantMark (rest.take size) = .token kind length := by
  obtain ⟨rfl, begins⟩ := length_of_importantMark found
  cases kind_of_importantMark found
  have nine : (Ascii.bytes "important").length = 9 := rfl
  have reach := length_le_of_beginsWith begins
  have word := beginsWith_take begins
  rw [nine] at word
  rw [List.length_drop, nine] at reach
  have gap := takeWhile_take (p := Ascii.isSpaceByte)
    (show (rest.takeWhile Ascii.isSpaceByte).length ≤
      (rest.takeWhile Ascii.isSpaceByte).length + 9 from Nat.le_add_right ..)
  refine ⟨(rest.takeWhile Ascii.isSpaceByte).length + 9, by omega, ?_⟩
  rw [importantMark, gap, List.drop_take, Nat.add_sub_cancel_left, word]
  rfl

theorem commentLength?_take {source : List UInt8} {length : Nat}
    (found : commentLength? source = some length) :
    commentLength? (source.take length) = some length := by
  have inside := commentLength?_le found
  rw [← List.take_append_drop length source] at found
  rw [← List.append_nil (source.take length)]
  exact commentLength?_swap found (by rw [List.length_take]; omega)

theorem stringLength?_take {quote : UInt8} {source : List UInt8} {length : Nat}
    (found : stringLength? quote source = some length) :
    stringLength? quote (source.take length) = some length := by
  have inside := stringLength?_le found
  rw [← List.take_append_drop length source] at found
  rw [← List.append_nil (source.take length)]
  exact stringLength?_swap found (by rw [List.length_take]; omega)

theorem identLength_take (source : List UInt8) :
    identLength (source.take (identLength source)) = identLength source := by
  have inside := identLength_le source
  have parts := List.take_append_drop (identLength source) source
  cases behind : source.drop (identLength source) with
  | nil =>
    rw [behind, List.append_nil] at parts
    rw [parts]
  | cons b rest =>
    rw [behind] at parts
    have same : identLength (source.take (identLength source) ++ []) =
        identLength (source.take (identLength source) ++ b :: rest) :=
      identLength_swap (fun _ head => by cases head) (by rw [parts, List.length_take]; omega)
    rwa [List.append_nil, parts] at same

theorem mark_alone {b : UInt8} {kind : TokenKind} (found : mark? b = some kind) :
    flat [b] = .token kind 1 :=
  of_mark? (motive := fun b kind => flat [b] = .token kind 1) (by decide) found

theorem flat_of_comment {rest : List UInt8} {length : Nat}
    (closed : commentLength? rest = some length) :
    flat (Ascii.bytes "/*" ++ rest) = .token .space (2 + length) := by
  have marks : Ascii.bytes "/*" = [47, 42] := rfl
  have comment : (Ascii.bytes "/*").isPrefixOf (47 :: 42 :: rest) = true := by
    rw [marks]
    rfl
  have noSpace : Ascii.isSpaceByte 47 = false := by decide
  have behind : (42 :: rest).drop 1 = rest := rfl
  rw [marks, List.cons_append, List.cons_append, List.nil_append, flat, noSpace, comment, behind,
    closed, if_neg Bool.false_ne_true, if_pos rfl]

/-- A string that closes is one token. -/
theorem flat_of_quote {quote : UInt8} {rest : List UInt8} {length : Nat}
    (quoted : quote = Ascii.byte '"' ∨ quote = Ascii.byte '\'')
    (closed : stringLength? quote rest = some length) :
    flat (quote :: rest) = .token .str (1 + length) := by
  obtain ⟨noSpace, noComment, noOpening, noClosing, mark⟩ :
      Ascii.isSpaceByte quote = false ∧ (Ascii.bytes "/*").isPrefixOf (quote :: rest) = false ∧
        (Ascii.bytes "<!--").isPrefixOf (quote :: rest) = false ∧
        (Ascii.bytes "-->").isPrefixOf (quote :: rest) = false ∧
        (quote = Ascii.byte '"' || quote = Ascii.byte '\'') = true := by
    rcases quoted with rfl | rfl <;> exact ⟨rfl, rfl, rfl, rfl, rfl⟩
  simp only [flat, noSpace, noComment, noOpening, noClosing, mark, closed, Bool.false_eq_true,
    if_false, if_true]

/-- What is read at the front of a source is read of its bytes alone. -/
theorem flat_take {source : List UInt8} {kind : TokenKind} {length : Nat}
    (read : flat source = .token kind length) :
    flat (source.take length) = .token kind length := by
  have two : (Ascii.bytes "/*").length = 2 := rfl
  cases lead_of_flat read with
  | @white b rest space =>
    have run : (rest.take (rest.takeWhile Ascii.isSpaceByte).length).takeWhile Ascii.isSpaceByte =
        rest.takeWhile Ascii.isSpaceByte := takeWhile_take (Nat.le_refl _)
    have cut (size : Nat) : (b :: rest).take (1 + size) = b :: rest.take size := by
      rw [Nat.add_comm, List.take_succ_cons]
    rw [cut, flat, if_pos space, run]
  | @comment rest more closed =>
    have cut : (Ascii.bytes "/*" ++ rest).take (2 + more) = Ascii.bytes "/*" ++ rest.take more := by
      rw [← two, List.take_length_add_append]
    rw [cut, flat_of_comment (commentLength?_take closed)]
  | @openComment rest =>
    have whole : (Ascii.bytes "/*" ++ rest).take (2 + rest.length) = Ascii.bytes "/*" ++ rest := by
      rw [← two, List.take_length_add_append, List.take_length]
    rw [whole, read]
  | opening => rfl
  | closing => rfl
  | @str quote rest more quoted closed =>
    have cut : (quote :: rest).take (1 + more) = quote :: rest.take more := by
      rw [Nat.add_comm, List.take_succ_cons]
    rw [cut, flat_of_quote quoted (stringLength?_take closed)]
  | word found =>
    obtain ⟨size, rfl, alone⟩ := atWord_take found
    rw [List.take_succ_cons]
    exact alone
  | important found =>
    obtain ⟨size, rfl, alone⟩ := importantMark_take found
    rw [List.take_succ_cons]
    exact alone
  | @ident b rest ident =>
    have same := identLength_take (b :: rest)
    obtain ⟨size, length⟩ := Nat.exists_eq_succ_of_ne_zero (identLength_pos ident).ne'
    rw [length, List.take_succ_cons] at same
    have noClosing : (Ascii.bytes "-->").isPrefixOf (b :: rest.take size) = false := by
      rw [Bool.eq_false_iff]
      intro closing
      obtain ⟨inner, shape⟩ := List.isPrefixOf_iff_prefix.mp closing
      have space : flat (Ascii.bytes "-->" ++ (inner ++ rest.drop size)) = .token .space 3 := rfl
      rw [← List.append_assoc, shape, List.cons_append, List.take_append_drop, read] at space
      cases space
    rw [length, List.take_succ_cons, flat_of_identByte ident noClosing, same]
  | mark found => exact mark_alone found

theorem swap_closeParen : Swap (Ascii.byte ')') [Ascii.byte ')'] :=
  Swap.of_cons (by decide) (by decide) (by decide) []

/-- The bytes of a function alone are closed where the function is. -/
theorem Closes.take {depth length : Nat} {source : List UInt8}
    (closes : Closes depth source length) : Closes depth (source.take length) length := by
  induction closes with
  | last front => exact .last (flat_take front)
  | @pass source depth next taken more passes rest ih =>
    have some := rest.pos
    obtain ⟨inner, behind, rfl, size⟩ := (Closes.pass passes rest).shape
    have cut : (inner ++ Ascii.byte ')' :: behind).take (taken + more) =
        inner ++ [Ascii.byte ')'] := by
      rw [size, List.take_length_add_append]
      rfl
    have further : taken < (inner ++ [Ascii.byte ')']).length := by
      rw [List.length_append, List.length_singleton]
      omega
    have front : Passes ((inner ++ Ascii.byte ')' :: behind).take (taken + more)) depth taken next := by
      rw [cut]
      exact passes.swap swap_closeParen (by omega) further
    refine .pass front ?_
    rw [List.drop_take, Nat.add_sub_cancel_left]
    exact ih

end Scan

theorem scan_token_le {source : List UInt8} {kind : TokenKind} {length : Nat}
    (read : scan source = .token kind length) : length ≤ source.length := by
  rcases scan_token_cases read with ⟨-, size, more, first, opened, closed, rfl⟩ | ⟨first, -⟩
  · have inside := closed.le_length
    have some := closed.pos
    rw [List.length_drop] at inside
    omega
  · exact Scan.flat_token_le first

/-- The bytes of a token alone are read as that token. -/
theorem scan_take {source : List UInt8} {kind : TokenKind} {length : Nat}
    (read : scan source = .token kind length) :
    scan (source.take length) = .token kind length := by
  rcases scan_token_cases read with ⟨rfl, size, more, first, opened, closed, rfl⟩ | ⟨first, noParen⟩
  · have filled := Scan.flat_token_pos first
    obtain ⟨inner, rest, shape, rfl⟩ := closed.shape
    have within : size + 1 ≤ source.length := by
      have length := congrArg List.length shape
      rw [List.length_drop, List.length_append, List.length_cons] at length
      omega
    have front : (source.take (size + 1) ++ inner).length = size + 1 + inner.length := by
      rw [List.length_append, List.length_take, Nat.min_eq_left within]
    have parts : (source.take (size + 1) ++ inner) ++ Ascii.byte ')' :: rest = source := by
      rw [List.append_assoc, ← shape, List.take_append_drop]
    have cut : source.take (size + 1 + (inner.length + 1)) =
        (source.take (size + 1) ++ inner) ++ [Ascii.byte ')'] := by
      rw [List.take_add, shape, List.take_length_add_append, List.append_assoc]
      rfl
    have same : Scan.flat (source.take (size + 1 + (inner.length + 1))) = .token .ident size := by
      have swapped : Scan.flat (source.take (size + 1) ++ inner ++ [Ascii.byte ')']) =
          Scan.flat (source.take (size + 1) ++ inner ++ Ascii.byte ')' :: rest) :=
        Scan.flat_swap Scan.swap_closeParen (List.ne_nil_of_length_pos (by omega))
          (by rw [parts, first, Scan.extent, front]; omega)
      rw [cut, swapped, parts, first]
    have opens : ((source.take (size + 1 + (inner.length + 1))).drop size).head? =
        some (Ascii.byte '(') := by
      rw [List.drop_take, List.head?_take, opened, if_neg (by omega)]
    have arguments : (source.take (size + 1 + (inner.length + 1))).drop (size + 1) =
        (source.drop (size + 1)).take (inner.length + 1) := by
      rw [List.drop_take, Nat.add_sub_cancel_left]
    rw [scan_of_ident same, if_pos opens, arguments,
      Scan.functionLength?_eq_some_iff.mpr closed.take]
  · have alone := Scan.flat_take first
    by_cases named : kind = .ident
    · subst named
      have nothing : (source.take length).drop length = [] :=
        List.drop_eq_nil_of_le (List.length_take_le ..)
      rw [scan_of_ident alone, nothing, if_neg (by decide)]
    · rw [scan_of_not_ident, alone]
      intro size same
      rw [alone] at same
      cases same
      exact named rfl

namespace Token

/-- The bytes of a token alone are read as that token. -/
def Alone (token : Token) : Prop :=
  scan token.bytes = .token token.kind token.bytes.length

theorem alone_of_mem {source : List UInt8} {token : Token} (mem : token ∈ tokensOf source) :
    token.Alone := by
  obtain ⟨rest, length, front, bytes⟩ := scan_of_mem_tokensOf mem
  have inside := scan_token_le front
  have size : token.bytes.length = length := by
    rw [bytes, List.length_take]
    omega
  rw [Alone, size, bytes, scan_take front]

end Token

end StyleCascade
