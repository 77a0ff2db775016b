import StyleCascade.Proofs.Token.Append

namespace StyleCascade

/-- A comment with nothing in it. -/
def emptyComment : List UInt8 :=
  Ascii.bytes "/**/"

namespace Token

/-- A source with a comment in the place of a token. -/
def commented (gap : Token) (source : List UInt8) : List UInt8 :=
  source.take gap.offset ++ emptyComment ++ source.drop gap.stop

/-- A token with a comment in the place of white space in front of it, behind it, or in its own
place. -/
def beside (gap token : Token) : Token :=
  { kind := token.kind
    offset :=
      if token.offset ≤ gap.offset then token.offset
      else token.offset + emptyComment.length - gap.bytes.length
    bytes :=
      if token.kind = .space ∧ token.offset = gap.offset then emptyComment else token.bytes }

/-- A token of white space, none of it in a comment. -/
structure Blank (source : List UInt8) (gap : Token) : Prop where
  mem : gap ∈ tokensOf source
  kind : gap.kind = .space
  white : ∀ byte ∈ gap.bytes, Ascii.isSpaceByte byte = true

section

variable {gap token : Token}

theorem beside_of_lt (before : token.offset < gap.offset) : gap.beside token = token := by
  have other : ¬(token.kind = .space ∧ token.offset = gap.offset) := by omega
  rw [beside, if_pos (Nat.le_of_lt before), if_neg other]

theorem beside_shift (some : gap.bytes ≠ []) :
    gap.beside (token.shift gap.stop) = token.shift (gap.offset + emptyComment.length) := by
  have size := List.length_pos_iff.mpr some
  have further : ¬(token.shift gap.stop).offset ≤ gap.offset := by
    rw [shift_offset, stop]; omega
  have other : ¬((token.shift gap.stop).kind = .space ∧
      (token.shift gap.stop).offset = gap.offset) := by omega
  rw [beside, if_neg further, if_neg other, shift, shift, stop, Token.mk.injEq]
  exact ⟨rfl, by simp only; omega, rfl⟩

theorem Blank.beside_self {source : List UInt8} (blank : gap.Blank source) :
    gap.beside gap = ⟨.space, gap.offset, emptyComment⟩ := by
  rw [beside, if_pos (Nat.le_refl _), if_pos ⟨blank.kind, rfl⟩, blank.kind]

end

end Token

theorem scan_emptyComment (later : List UInt8) :
    scan (emptyComment ++ later) = .token .space emptyComment.length := by
  rfl

namespace Lexeme

/-- The lexemes in front of the white space stay, and those behind it follow either way. -/
theorem read_commented {source : List UInt8} {gap : Token} (blank : gap.Blank source) :
    ∃ lexemes,
      read source =
        lexemes ++ .token gap :: (read (source.drop gap.stop)).map (shift gap.stop) ∧
      read (gap.commented source) =
        lexemes ++ .token (gap.beside gap) ::
          (read (source.drop gap.stop)).map (shift (gap.offset + emptyComment.length)) ∧
      ∀ found ∈ tokens lexemes, found.offset < gap.offset ∧ found.stop ≤ gap.offset := by
  obtain ⟨front, rest, length, rfl, place, first, bytes⟩ := scan_of_mem_readFrom blank.mem
  rw [blank.kind] at first
  rw [Nat.zero_add] at place
  obtain ⟨some, filled⟩ := scan_token_pos first
  cases rest with
  | nil => cases filled
  | cons b rest =>
  have space : Ascii.isSpaceByte b = true := by
    refine blank.white b ?_
    rw [bytes]
    cases length with
    | zero => cases some
    | succ less => exact List.mem_cons_self
  have self : gap = ⟨.space, front.length, (b :: rest).take length⟩ := by
    cases gap
    simp only [Token.mk.injEq]
    exact ⟨blank.kind, place, bytes⟩
  let behind := (b :: rest).drop length
  have swap : Scan.Swap b (Ascii.byte '/' :: (Ascii.bytes "**/" ++ behind)) :=
    .of_cons (Scan.breaks_of_space space) (by decide) (by decide) _
  have parts : b :: rest = gap.bytes ++ behind := by
    rw [bytes, List.take_append_drop]
  have back : (front ++ b :: rest).drop gap.stop = behind := by
    rw [Token.stop, place, List.drop_length_add_append, parts, List.drop_left]
  have stops : readFrom (front.length + length) behind = readFrom gap.stop behind := by
    rcases Nat.le_total length (b :: rest).length with within | beyond
    · rw [Token.stop, place, bytes, List.length_take, Nat.min_eq_left within]
    · rw [show behind = [] from List.drop_eq_nil_of_le beyond, readFrom_nil, readFrom_nil]
  have far : gap.commented (front ++ b :: rest) =
      front ++ Ascii.byte '/' :: (Ascii.bytes "**/" ++ behind) := by
    rw [Token.commented, back, place, List.take_left, List.append_assoc]
    rfl
  have comment : readFrom front.length (emptyComment ++ behind) =
      .token (gap.beside gap) :: readFrom (gap.offset + emptyComment.length) behind := by
    rw [readFrom_of_token (scan_emptyComment behind), List.take_left, List.drop_left,
      blank.beside_self, place]
  obtain ⟨lexemes, readOne, readOther, before⟩ := readFrom_swap swap blank.mem
    (by rw [place, Nat.zero_add])
  rw [Nat.zero_add] at readOne readOther before
  rw [readFrom_of_token first, ← self, stops, readFrom_eq_shift gap.stop] at readOne
  rw [back]
  refine ⟨lexemes, readOne, ?_, by rwa [place]⟩
  rw [far, read, readOther, ← readFrom_eq_shift]
  exact congrArg (lexemes ++ ·) comment

end Lexeme

namespace Token.Blank

variable {source : List UInt8} {gap : Token}

/-- The source with the white space between what is in front of it and what is behind it. -/
theorem parts (blank : gap.Blank source) :
    source = source.take gap.offset ++ gap.bytes ++ source.drop gap.stop := by
  obtain ⟨front, rest, length, rfl, place, -, bytes⟩ := Lexeme.scan_of_mem_readFrom blank.mem
  rw [Nat.zero_add] at place
  have split : rest = gap.bytes ++ rest.drop length := by rw [bytes, List.take_append_drop]
  rw [Token.stop, place, List.take_left, List.drop_length_add_append, List.append_assoc]
  rw [split, List.drop_left, ← split]

theorem length_take (blank : gap.Blank source) :
    (source.take gap.offset).length = gap.offset := by
  have inside := stop_le_of_mem_tokensOf blank.mem
  rw [List.length_take]
  simp only [Token.stop] at inside
  omega

theorem bytes_ne_nil (blank : gap.Blank source) : gap.bytes ≠ [] :=
  Lexeme.bytes_ne_nil_of_mem_readFrom blank.mem

/-- A token stands in front of the white space, is the white space, or stands behind it. -/
theorem sides (blank : gap.Blank source) {token : Token} (mem : token ∈ tokensOf source) :
    token.offset < gap.offset ∧ token.stop ≤ gap.offset ∨ token = gap ∨
      ∃ other ∈ tokensOf (source.drop gap.stop), token = other.shift gap.stop := by
  obtain ⟨lexemes, readOne, -, before⟩ := Lexeme.read_commented blank
  rw [tokensOf, readOne, Lexeme.tokens_append, Lexeme.tokens_token, Lexeme.tokens_shift,
    List.mem_append, List.mem_cons, List.mem_map] at mem
  obtain mem | same | ⟨other, mem, same⟩ := mem
  · exact Or.inl (before token mem)
  · exact Or.inr (Or.inl same)
  · exact Or.inr (Or.inr ⟨other, mem, same.symm⟩)

/-- With a comment in the place of the white space the other tokens are the same. -/
theorem tokensOf_commented (blank : gap.Blank source) :
    tokensOf (gap.commented source) = (tokensOf source).map gap.beside := by
  obtain ⟨lexemes, readOne, readOther, before⟩ := Lexeme.read_commented blank
  have front : (Lexeme.tokens lexemes).map gap.beside = Lexeme.tokens lexemes := by
    rw [List.map_congr_left fun token mem => beside_of_lt (before token mem).1, List.map_id']
  rw [tokensOf, tokensOf, readOne, readOther, Lexeme.tokens_append, Lexeme.tokens_append,
    Lexeme.tokens_token, Lexeme.tokens_token, Lexeme.tokens_shift, Lexeme.tokens_shift,
    List.map_append, List.map_cons, List.map_map, front]
  simp only [Function.comp_def, beside_shift blank.bytes_ne_nil]

theorem invalidCount_commented (blank : gap.Blank source) :
    Lexeme.invalidCount (Lexeme.read (gap.commented source)) =
      Lexeme.invalidCount (Lexeme.read source) := by
  obtain ⟨lexemes, readOne, readOther, -⟩ := Lexeme.read_commented blank
  rw [readOne, readOther, Lexeme.invalidCount_append, Lexeme.invalidCount_append,
    Lexeme.invalidCount_token, Lexeme.invalidCount_token, Lexeme.invalidCount_shift,
    Lexeme.invalidCount_shift]

end Token.Blank

end StyleCascade
