import StyleCascade.Proofs.Token.Closing
import StyleCascade.Token.Lexeme

namespace StyleCascade

namespace Token

/-- A token of a source with some bytes put in front. -/
def shift (move : Nat) (token : Token) : Token :=
  { token with offset := move + token.offset }

@[simp] theorem shift_offset (move : Nat) (token : Token) :
    (token.shift move).offset = move + token.offset :=
  rfl

theorem shift_stop (move : Nat) (token : Token) : (token.shift move).stop = move + token.stop :=
  Nat.add_assoc _ _ _

/-- The last token is a closing brace, and it ends at some place. -/
def EndAt (stop : Nat) (tokens : List Token) : Prop :=
  ∃ last, tokens.getLast? = some last ∧ last.kind = .closeBrace ∧ last.stop = stop

instance (stop : Nat) (tokens : List Token) : Decidable (EndAt stop tokens) :=
  decidable_of_iff (∃ last ∈ tokens.getLast?, last.kind = .closeBrace ∧ last.stop = stop) Iff.rfl

end Token

namespace Lexeme

/-- A lexeme of a source with some bytes put in front. -/
def shift (move : Nat) : Lexeme → Lexeme
  | .token found => .token (found.shift move)
  | .invalid offset bytes => .invalid (move + offset) bytes

@[simp] theorem tokens_token (found : Token) (rest : List Lexeme) :
    tokens (.token found :: rest) = found :: tokens rest :=
  rfl

@[simp] theorem tokens_invalid (offset : Nat) (bytes : List UInt8) (rest : List Lexeme) :
    tokens (.invalid offset bytes :: rest) = tokens rest :=
  rfl

theorem tokens_append (lexemes more : List Lexeme) :
    tokens (lexemes ++ more) = tokens lexemes ++ tokens more :=
  List.filterMap_append

theorem tokens_shift (move : Nat) (lexemes : List Lexeme) :
    tokens (lexemes.map (shift move)) = (tokens lexemes).map (Token.shift move) := by
  rw [tokens, tokens, List.filterMap_map, List.map_filterMap]
  congr 1
  funext lexeme
  cases lexeme <;> rfl

theorem invalidCount_token (found : Token) (rest : List Lexeme) :
    invalidCount (.token found :: rest) = invalidCount rest :=
  List.countP_cons_of_neg Bool.false_ne_true

theorem invalidCount_append (lexemes more : List Lexeme) :
    invalidCount (lexemes ++ more) = invalidCount lexemes + invalidCount more :=
  List.countP_append

theorem invalidCount_shift (move : Nat) (lexemes : List Lexeme) :
    invalidCount (lexemes.map (shift move)) = invalidCount lexemes := by
  rw [invalidCount, invalidCount, List.countP_map]
  congr 1
  funext lexeme
  cases lexeme <;> rfl

theorem readFrom_of_done {offset : Nat} {source : List UInt8} (front : scan source = .done) :
    readFrom offset source = [] := by
  rw [readFrom, front]

theorem readFrom_nil (offset : Nat) : readFrom offset [] = [] :=
  readFrom_of_done rfl

/-- One round of the scanner that finds a token. -/
theorem readFrom_of_token {offset length : Nat} {source : List UInt8} {kind : TokenKind}
    (front : scan source = .token kind length) :
    readFrom offset source =
      .token ⟨kind, offset, source.take length⟩ ::
        readFrom (offset + length) (source.drop length) := by
  rw [readFrom]
  split
  · next empty => rw [front] at empty; cases empty
  · next same => rw [front] at same; cases same; rfl
  · next wrong => rw [front] at wrong; cases wrong

/-- One round that finds none: the bytes are kept as invalid ones. -/
theorem readFrom_of_invalid {offset length : Nat} {source : List UInt8}
    (front : scan source = .invalid length) :
    readFrom offset source =
      .invalid offset (source.take length) ::
        readFrom (offset + length) (source.drop length) := by
  rw [readFrom]
  split
  · next empty => rw [front] at empty; cases empty
  · next wrong => rw [front] at wrong; cases wrong
  · next same => rw [front] at same; cases same; rfl

/-- The bytes in front of a source move its lexemes. -/
theorem readFrom_add (move offset : Nat) (source : List UInt8) :
    readFrom (move + offset) source = (readFrom offset source).map (shift move) := by
  fun_induction readFrom offset source with
  | case1 offset source front => rw [readFrom_of_done front]; rfl
  | case2 offset source kind length front ih =>
    rw [readFrom_of_token front, Nat.add_assoc, ih]
    rfl
  | case3 offset source length front ih =>
    rw [readFrom_of_invalid front, Nat.add_assoc, ih]
    rfl

theorem readFrom_eq_shift (move : Nat) (source : List UInt8) :
    readFrom move source = (read source).map (shift move) :=
  readFrom_add move 0 source

theorem length_lt_of_mem_readFrom {offset length : Nat} {source : List UInt8} {token : Token}
    (mem : token ∈ tokens (readFrom offset (source.drop length))) : length < source.length := by
  rcases Nat.lt_or_ge length source.length with inside | beyond
  · exact inside
  · rw [List.drop_eq_nil_of_le beyond, readFrom_nil] at mem
    cases mem

/-- A token is what stands at the front of the source from its place on. -/
theorem scan_of_mem_readFrom {offset : Nat} {source : List UInt8} {token : Token}
    (mem : token ∈ tokens (readFrom offset source)) :
    ∃ before rest length, source = before ++ rest ∧ token.offset = offset + before.length ∧
      scan rest = .token token.kind length ∧ token.bytes = rest.take length := by
  -- behind a lexeme the bytes before are those of the lexeme and those before in the rest
  have behind {source : List UInt8} {offset length : Nat}
      (inside : length < source.length)
      (found : ∃ before rest size, source.drop length = before ++ rest ∧
        token.offset = offset + length + before.length ∧
        scan rest = .token token.kind size ∧ token.bytes = rest.take size) :
      ∃ before rest size, source = before ++ rest ∧ token.offset = offset + before.length ∧
        scan rest = .token token.kind size ∧ token.bytes = rest.take size := by
    obtain ⟨before, rest, size, split, place, front, bytes⟩ := found
    refine ⟨source.take length ++ before, rest, size, ?_, ?_, front, bytes⟩
    · rw [List.append_assoc, ← split, List.take_append_drop]
    · rw [List.length_append, List.length_take, place]; omega
  fun_induction readFrom offset source with
  | case1 => cases mem
  | case2 offset source kind length front ih =>
    rw [tokens_token, List.mem_cons] at mem
    obtain rfl | mem := mem
    · exact ⟨[], source, length, rfl, rfl, front, rfl⟩
    · exact behind (length_lt_of_mem_readFrom mem) (ih mem)
  | case3 offset source length front ih =>
    rw [tokens_invalid] at mem
    exact behind (length_lt_of_mem_readFrom mem) (ih mem)

/-- Tokens do not reach over the end of their source. -/
theorem stop_le_of_mem_readFrom {offset : Nat} {source : List UInt8} {token : Token}
    (mem : token ∈ tokens (readFrom offset source)) : token.stop ≤ offset + source.length := by
  obtain ⟨before, rest, length, rfl, place, -, bytes⟩ := scan_of_mem_readFrom mem
  rw [Token.stop, place, bytes, List.length_append, List.length_take]
  omega

theorem bytes_ne_nil_of_mem_readFrom {offset : Nat} {source : List UInt8} {token : Token}
    (mem : token ∈ tokens (readFrom offset source)) : token.bytes ≠ [] := by
  obtain ⟨before, rest, length, -, -, front, bytes⟩ := scan_of_mem_readFrom mem
  obtain ⟨some, filled⟩ := scan_token_pos front
  refine List.ne_nil_of_length_pos ?_
  rw [bytes, List.length_take]
  omega

theorem offset_le_of_mem_readFrom {offset : Nat} {source : List UInt8} {token : Token}
    (mem : token ∈ tokens (readFrom offset source)) : offset ≤ token.offset := by
  obtain ⟨before, rest, length, -, place, -⟩ := scan_of_mem_readFrom mem
  omega

/-- The front of a source has the same lexemes in front of two rests, and they end where it ends. -/
structure Parts (offset : Nat) (front one other : List UInt8) (lexemes : List Lexeme) : Prop where
  one : readFrom offset (front ++ one) = lexemes ++ readFrom (offset + front.length) one
  other : readFrom offset (front ++ other) = lexemes ++ readFrom (offset + front.length) other
  before : ∀ found ∈ tokens lexemes,
    found.offset < offset + front.length ∧ found.stop ≤ offset + front.length

/-- A lexeme that is read in front of both rests is one of the front. -/
theorem Parts.cons {offset length : Nat} {front one other : List UInt8} {lexemes : List Lexeme}
    (first : Lexeme) (reach : length ≤ front.length)
    (rest : Parts (offset + length) (front.drop length) one other lexemes)
    (firstBefore : ∀ found ∈ first.token?,
      found.offset < offset + front.length ∧ found.stop ≤ offset + front.length)
    (firstOne : readFrom offset (front ++ one) =
      first :: readFrom (offset + length) ((front ++ one).drop length))
    (firstOther : readFrom offset (front ++ other) =
      first :: readFrom (offset + length) ((front ++ other).drop length)) :
    Parts offset front one other (first :: lexemes) := by
  have stop : offset + length + (front.drop length).length = offset + front.length := by
    rw [List.length_drop]
    omega
  obtain ⟨readOne, readOther, before⟩ := rest
  rw [stop] at readOne readOther before
  refine ⟨?_, ?_, ?_⟩
  · rw [firstOne, List.drop_append_of_le_length reach, readOne, List.cons_append]
  · rw [firstOther, List.drop_append_of_le_length reach, readOther, List.cons_append]
  · cases first with
    | token found =>
      rw [tokens_token]
      exact List.forall_mem_cons.mpr ⟨firstBefore found rfl, before⟩
    | invalid => exact before

section

variable {b : UInt8} {front one other : List UInt8}

/-- If a token starts behind the front of a source, the lexemes of the front end there, and they
are the same if something else is put in its place. -/
theorem readFrom_swap {offset : Nat} {token : Token} (swap : Scan.Swap b other)
    (mem : token ∈ tokens (readFrom offset (front ++ b :: one)))
    (place : token.offset = offset + front.length) :
    ∃ lexemes, Parts offset front (b :: one) other lexemes := by
  induction size : front.length using Nat.strong_induction_on generalizing offset front with
  | _ _ ih =>
  subst size
  by_cases empty : front = []
  · subst empty
    exact ⟨[], rfl, rfl, fun _ found => by cases found⟩
  have filled := List.length_pos_iff.mpr empty
  -- the first lexeme ends in front of the token, and the rest is read the same by induction
  have behind {length : Nat} (some : 0 < length)
      (mem : token ∈ tokens (readFrom (offset + length) ((front ++ b :: one).drop length))) :
      length ≤ front.length ∧
        ∃ lexemes, Parts (offset + length) (front.drop length) (b :: one) other lexemes := by
    have later := offset_le_of_mem_readFrom mem
    have reach : length ≤ front.length := by omega
    rw [List.drop_append_of_le_length reach] at mem
    refine ⟨reach, ih _ (by rw [List.length_drop]; omega) mem ?_ rfl⟩
    rw [List.length_drop]
    omega
  cases first : scan (front ++ b :: one) with
  | done => rw [readFrom_of_done first] at mem; cases mem
  | token kind length =>
    have some := (scan_token_pos first).1
    rw [readFrom_of_token first, tokens_token, List.mem_cons] at mem
    obtain rfl | mem := mem
    · simp only at place
      omega
    obtain ⟨reach, lexemes, rest⟩ := behind some mem
    have same := scan_swap swap empty (by rwa [first, Scan.extent])
    refine ⟨_, rest.cons (.token ⟨kind, offset, front.take length⟩) reach ?_ ?_ ?_⟩
    · rintro found ⟨⟩
      simp only [Token.stop, List.length_take]
      omega
    · rw [readFrom_of_token first, List.take_append_of_le_length reach]
    · rw [readFrom_of_token (same.trans first), List.take_append_of_le_length reach]
  | invalid length =>
    have some : 0 < length := by
      have := scan_invalid first
      omega
    rw [readFrom_of_invalid first, tokens_invalid] at mem
    obtain ⟨reach, lexemes, rest⟩ := behind some mem
    have same := scan_swap swap empty (by rwa [first, Scan.extent])
    refine ⟨_, rest.cons (.invalid offset (front.take length)) reach ?_ ?_ ?_⟩
    · rintro found ⟨⟩
    · rw [readFrom_of_invalid first, List.take_append_of_le_length reach]
    · rw [readFrom_of_invalid (same.trans first), List.take_append_of_le_length reach]

theorem readFrom_mark {kind : TokenKind} (mark : Scan.Mark b kind) (offset : Nat)
    (later : List UInt8) :
    readFrom offset (b :: later) = .token ⟨kind, offset, [b]⟩ :: readFrom (offset + 1) later := by
  rw [readFrom_of_token (mark.single later)]
  rfl

/-- A mark behind the front of a source parts it: the front is read as if it stood alone. -/
theorem readFrom_append_mark {kind : TokenKind} {offset : Nat} (mark : Scan.Mark b kind)
    (mem : ⟨kind, offset + front.length, [b]⟩ ∈ tokens (readFrom offset (front ++ [b])))
    (later : List UInt8) :
    readFrom offset (front ++ b :: later) =
      readFrom offset front ++ .token ⟨kind, offset + front.length, [b]⟩ ::
        readFrom (offset + front.length + 1) later := by
  have more := Scan.Swap.of_cons mark.cut mark.cut mark.solid later
  obtain ⟨lexemes, readOne, readMore, -⟩ := readFrom_swap more mem rfl
  obtain ⟨alone, readSame, readFront, -⟩ := readFrom_swap (Scan.Swap.of_nil mark.cut) mem rfl
  have same : lexemes = alone := List.append_cancel_right (readOne.symm.trans readSame)
  rw [readFrom_nil, List.append_nil, List.append_nil] at readFront
  rw [readMore, readFront, readFrom_mark mark, same]

end

/-- A source whose last token is a closing brace at its end is read the same whatever follows, and
what follows is read as if it stood alone. -/
theorem readFrom_append {offset : Nat} {source : List UInt8}
    (closed : Token.EndAt (offset + source.length) (tokens (readFrom offset source)))
    (later : List UInt8) :
    readFrom offset (source ++ later) =
      readFrom offset source ++ readFrom (offset + source.length) later := by
  obtain ⟨last, found, brace, stop⟩ := closed
  have mem := List.mem_of_getLast? found
  obtain ⟨front, rest, length, rfl, place, first, bytes⟩ := scan_of_mem_readFrom mem
  rw [brace] at first
  obtain ⟨head, rfl⟩ := scan_closeBrace first
  obtain ⟨rest, rfl⟩ := List.head?_eq_some_iff.mp head
  have only : rest = [] := by
    simp only [Token.stop, bytes, place, List.length_take, List.length_append,
      List.length_cons] at stop
    exact List.eq_nil_of_length_eq_zero (by omega)
  subst only
  have self : last = ⟨.closeBrace, offset + front.length, [Ascii.byte '\x7d']⟩ := by
    cases last
    rw [Token.mk.injEq]
    exact ⟨brace, place, bytes⟩
  rw [self] at mem
  have parted := readFrom_append_mark Scan.mark_closeBrace mem
  have stop : offset + (front ++ [Ascii.byte '\x7d']).length = offset + front.length + 1 := by
    rw [List.length_append]; rfl
  calc readFrom offset (front ++ [Ascii.byte '\x7d'] ++ later)
      = readFrom offset (front ++ Ascii.byte '\x7d' :: later) := by rw [List.append_assoc]; rfl
    _ = readFrom offset front ++ .token ⟨.closeBrace, offset + front.length, [Ascii.byte '\x7d']⟩ ::
          readFrom (offset + front.length + 1) later := parted later
    _ = _ := by
        rw [parted [], readFrom_nil, stop, List.append_assoc]
        rfl

/-- Reading a source after a closed one gives the lexemes of both, each at its place. -/
theorem read_append {source : List UInt8}
    (closed : Token.EndAt source.length (tokensOf source)) (later : List UInt8) :
    read (source ++ later) = read source ++ (read later).map (shift source.length) := by
  rw [read, readFrom_append (by rw [Nat.zero_add]; exact closed), Nat.zero_add, ← read,
    readFrom_eq_shift]

end Lexeme

/-- The tokens of a source after a closed one. -/
theorem tokensOf_append {source : List UInt8}
    (closed : Token.EndAt source.length (tokensOf source)) (later : List UInt8) :
    tokensOf (source ++ later) =
      tokensOf source ++ (tokensOf later).map (Token.shift source.length) := by
  rw [tokensOf, Lexeme.read_append closed, Lexeme.tokens_append, Lexeme.tokens_shift]
  rfl

/-- The tokens of a source around a mark are those in front of it and, moved, those behind it. -/
theorem tokensOf_append_mark {b : UInt8} {kind : TokenKind} {source : List UInt8}
    (mark : Scan.Mark b kind)
    (last : (tokensOf (source ++ [b])).getLast? = some ⟨kind, source.length, [b]⟩)
    (later : List UInt8) :
    tokensOf (source ++ b :: later) =
      tokensOf source ++ ⟨kind, source.length, [b]⟩ ::
        (tokensOf later).map (Token.shift (source.length + 1)) := by
  have mem :
      ⟨kind, 0 + source.length, [b]⟩ ∈ Lexeme.tokens (Lexeme.readFrom 0 (source ++ [b])) := by
    rw [Nat.zero_add]
    exact List.mem_of_getLast? last
  rw [tokensOf, Lexeme.read, Lexeme.readFrom_append_mark mark mem, Lexeme.tokens_append,
    Lexeme.tokens_token, Nat.zero_add, Lexeme.readFrom_eq_shift (source.length + 1),
    Lexeme.tokens_shift]
  rfl

theorem tokensOf_nil : tokensOf [] = [] := by
  rw [tokensOf, Lexeme.read, Lexeme.readFrom_nil]
  rfl

theorem stop_le_of_mem_tokensOf {source : List UInt8} {token : Token}
    (mem : token ∈ tokensOf source) : token.stop ≤ source.length := by
  have inside := Lexeme.stop_le_of_mem_readFrom mem
  rwa [Nat.zero_add] at inside

end StyleCascade
