import StyleCascade.Proofs.Token.Alone
import StyleCascade.Proofs.Token.Append
import StyleCascade.Proofs.Token.Nested

namespace StyleCascade

namespace Scan

/-- A source begins with a string or with a function that nothing closes. -/
def Unclosed (source : List UInt8) : Prop :=
  opensString source = true ∨
    0 < identLength source ∧ (source.drop (identLength source)).head? = some (Ascii.byte '(') ∧
      groupLength? source = none

end Scan

/-- Bytes that form no token go to the end of the source if they begin with what nothing closes, and
else they are a single byte. -/
theorem scan_invalid_cases {source : List UInt8} {length : Nat}
    (read : scan source = .invalid length) :
    (Scan.Unclosed source ∧ length = source.length) ∨ (¬Scan.Unclosed source ∧ length = 1) := by
  by_cases call : 0 < Scan.identLength source ∧
      (source.drop (Scan.identLength source)).head? = some (Ascii.byte '(')
  · rw [Scan.scan_of_call call.1 call.2] at read
    split at read <;> cases read
    next failed => exact Or.inl ⟨Or.inr ⟨call.1, call.2, failed⟩, rfl⟩
  · have plain : ∀ size, Scan.flat source ≠ .token .ident size := by
      intro size front
      cases source with
      | nil => cases front
      | cons b rest =>
        obtain ⟨ident, rfl⟩ := Scan.ident_of_flat front
        rw [scan_of_ident front, if_neg fun opened => call ⟨Scan.identLength_pos ident, opened⟩]
          at read
        cases read
    rw [scan_of_not_ident plain] at read
    rcases Scan.flat_invalid_cases read with ⟨string, whole⟩ | ⟨noString, single⟩
    · exact Or.inl ⟨Or.inl string, whole⟩
    · refine Or.inr ⟨?_, single⟩
      rintro (string | ⟨named, called, -⟩)
      · rw [noString] at string
        cases string
      · exact call ⟨named, called⟩

theorem eq_nil_of_scan_done {source : List UInt8} (read : scan source = .done) : source = [] := by
  by_cases named : ∃ size, Scan.flat source = .token .ident size
  · obtain ⟨size, front⟩ := named
    rw [scan_of_ident front] at read
    split at read
    · split at read <;> cases read
    · cases read
  · rw [scan_of_not_ident fun size front => named ⟨size, front⟩] at read
    exact Scan.flat_eq_done_iff.mp read

namespace Lexeme

/-- The bytes of a lexeme. -/
def bytes : Lexeme → List UInt8
  | .token found => found.bytes
  | .invalid _ bytes => bytes

end Lexeme

namespace Token

/-- A place is in none of the tokens. -/
def Outside (tokens : List Token) (place : Nat) : Prop :=
  ∀ token ∈ tokens, ¬(token.offset ≤ place ∧ place < token.stop)

instance (tokens : List Token) (place : Nat) : Decidable (Outside tokens place) :=
  inferInstanceAs (Decidable (∀ token ∈ tokens, _))

theorem outside_of_lt {tokens : List Token} {place bound : Nat}
    (behind : ∀ token ∈ tokens, bound ≤ token.offset) (before : place < bound) :
    Outside tokens place := by
  intro token mem inside
  have := behind token mem
  omega

theorem outside_append_iff {front tokens : List Token} {place : Nat}
    (behind : ∀ token ∈ front, token.stop ≤ place) :
    Outside (front ++ tokens) place ↔ Outside tokens place := by
  constructor
  · exact fun outside token mem => outside token (List.mem_append_right _ mem)
  · intro outside token mem
    rcases List.mem_append.mp mem with mem | mem
    · have := behind token mem
      omega
    · exact outside token mem

end Token

namespace Lexeme

variable {offset : Nat} {source : List UInt8}

/-- Nothing of a source is lost, and nothing is read twice. -/
theorem flatMap_bytes_readFrom (offset : Nat) (source : List UInt8) :
    (readFrom offset source).flatMap bytes = source := by
  fun_induction readFrom offset source with
  | case1 offset source front =>
    cases eq_nil_of_scan_done front
    rfl
  | case2 offset source kind length front ih =>
    rw [List.flatMap_cons, ih]
    exact List.take_append_drop length source
  | case3 offset source length front ih =>
    rw [List.flatMap_cons, ih]
    exact List.take_append_drop length source

/-- Tokens are in the order of the source, and do not overlap. -/
theorem pairwise_readFrom (offset : Nat) (source : List UInt8) :
    (tokens (readFrom offset source)).Pairwise fun one next => one.stop ≤ next.offset := by
  fun_induction readFrom offset source with
  | case1 => exact .nil
  | case2 offset source kind length front ih =>
    have inside := scan_token_le front
    refine .cons (fun next mem => ?_) ih
    have := offset_le_of_mem_readFrom mem
    simp only [Token.stop, List.length_take]
    omega
  | case3 offset source length front ih => exact ih

/-- How the bytes of a source that are in no token are counted: one by one up to some place, and
once from there on. -/
structure Counted (offset : Nat) (source : List UInt8) (lexemes : List Lexeme) (length : Nat) :
    Prop where
  inside : length ≤ source.length
  rest : length = source.length ∨ Scan.Unclosed (source.drop length)
  stop : ∀ token ∈ tokens lexemes, token.stop ≤ offset + length
  first : ∀ place < length, Token.Outside (tokens lexemes) (offset + place) →
    ¬Scan.Unclosed (source.drop place)
  count : invalidCount lexemes =
    (List.range length).countP (fun place => Token.Outside (tokens lexemes) (offset + place)) +
      if length < source.length then 1 else 0

/-- A lexeme in front of counted ones, if its own bytes are counted. -/
theorem Counted.cons {step length : Nat} {lexeme : Lexeme} {lexemes : List Lexeme}
    (inside : step ≤ source.length)
    (counted : Counted (offset + step) (source.drop step) lexemes length)
    (stop : ∀ token ∈ tokens [lexeme], token.stop ≤ offset + step)
    (first : ∀ place < step, Token.Outside (tokens (lexeme :: lexemes)) (offset + place) →
      ¬Scan.Unclosed (source.drop place))
    (count : invalidCount [lexeme] =
      (List.range step).countP
        (fun place => Token.Outside (tokens (lexeme :: lexemes)) (offset + place))) :
    Counted offset source (lexeme :: lexemes) (step + length) := by
  have split : tokens (lexeme :: lexemes) = tokens [lexeme] ++ tokens lexemes :=
    tokens_append [lexeme] lexemes
  have behind (place : Nat) : Token.Outside (tokens (lexeme :: lexemes)) (offset + (step + place)) ↔
      Token.Outside (tokens lexemes) (offset + step + place) := by
    rw [split, ← Nat.add_assoc, Token.outside_append_iff]
    intro token mem
    have := stop token mem
    omega
  have size := counted.inside
  rw [List.length_drop] at size
  constructor
  case inside => omega
  case rest =>
    rcases counted.rest with whole | opens
    · rw [List.length_drop] at whole
      exact Or.inl (by omega)
    · rw [List.drop_drop] at opens
      exact Or.inr opens
  case stop =>
    intro token mem
    rw [split, List.mem_append] at mem
    rcases mem with mem | mem
    · have := stop token mem
      omega
    · have := counted.stop token mem
      omega
  case first =>
    intro place before outside
    rcases Nat.lt_or_ge place step with own | later
    · exact first place own outside
    · obtain ⟨more, rfl⟩ := Nat.exists_eq_add_of_le later
      rw [← List.drop_drop]
      exact counted.first more (by omega) ((behind more).mp outside)
  case count =>
    have last : (if length < (source.drop step).length then 1 else 0) =
        if step + length < source.length then 1 else 0 := by
      rw [List.length_drop]
      exact if_congr (by omega) rfl rfl
    calc invalidCount (lexeme :: lexemes)
        = invalidCount [lexeme] + invalidCount lexemes := invalidCount_append [lexeme] lexemes
      _ = _ := by
        rw [count, counted.count, last, List.range_add, List.countP_append, List.countP_map,
          Nat.add_assoc]
        simp only [Function.comp_def, behind]

theorem counted_readFrom (offset : Nat) (source : List UInt8) :
    ∃ length, Counted offset source (readFrom offset source) length := by
  fun_induction readFrom offset source with
  | case1 offset source front =>
    cases eq_nil_of_scan_done front
    exact ⟨0, Nat.le_refl _, Or.inl rfl, fun _ mem => (by cases mem), fun _ lt => (by cases lt), rfl⟩
  | case2 offset source kind length front ih =>
    obtain ⟨more, counted⟩ := ih
    have inside := scan_token_le front
    have stop : (⟨kind, offset, source.take length⟩ : Token).stop = offset + length := by
      simp only [Token.stop, List.length_take]
      omega
    have within {place : Nat} (before : place < length) :
        ¬Token.Outside (tokens (.token ⟨kind, offset, source.take length⟩ ::
          readFrom (offset + length) (source.drop length))) (offset + place) := fun outside =>
      outside _ (List.mem_cons_self ..) ⟨Nat.le_add_right .., by omega⟩
    refine ⟨length + more, counted.cons inside ?_ ?_ ?_⟩
    · intro token mem
      cases List.mem_singleton.mp mem
      exact stop.le
    · exact fun place before outside => absurd outside (within before)
    · refine (List.countP_eq_zero.mpr fun place mem => ?_).symm
      rw [decide_eq_true_eq]
      exact within (List.mem_range.mp mem)
  | case3 offset source length front ih =>
    rcases scan_invalid_cases front with ⟨opens, rfl⟩ | ⟨closed, rfl⟩
    · -- the rest of the source is lost, and no token is behind it
      have some := (scan_invalid front).1
      rw [List.drop_length, readFrom_nil]
      refine ⟨0, Nat.zero_le _, Or.inr opens, fun _ mem => (by cases mem),
        fun _ lt => (by cases lt), ?_⟩
      rw [if_pos some]
      rfl
    · obtain ⟨more, counted⟩ := ih
      have some := (scan_invalid front).1
      refine ⟨1 + more, counted.cons some ?_ ?_ ?_⟩
      · intro token mem
        cases mem
      · intro place before outside
        cases Nat.lt_one_iff.mp before
        exact closed
      · have outside : Token.Outside
            (tokens (readFrom (offset + 1) (source.drop 1))) (offset + 0) :=
          Token.outside_of_lt (fun token mem => offset_le_of_mem_readFrom mem)
            (Nat.lt_succ_self offset)
        rw [List.range_one, List.countP_singleton, tokens_invalid, decide_eq_true outside]
        rfl

end Lexeme

/-- The lexemes of a source make it up. Its tokens are pieces of it, in order and apart, and each is
read at its place, and of its bytes alone, with its kind and its whole length. What is in no token
is counted byte by byte up to the first place outside all tokens where an unclosed string or
function begins; that takes the rest of the source, and counts once. -/
theorem read_tiles (source : List UInt8) :
    (Lexeme.read source).flatMap Lexeme.bytes = source ∧
    (∀ token ∈ tokensOf source,
      token.bytes ≠ [] ∧ token.bytes = (source.drop token.offset).take token.bytes.length ∧
        scan (source.drop token.offset) = .token token.kind token.bytes.length ∧
          scan token.bytes = .token token.kind token.bytes.length) ∧
    (tokensOf source).Pairwise (fun one next => one.stop ≤ next.offset) ∧
    ∃ stop ≤ source.length,
      (stop = source.length ∨ Scan.Unclosed (source.drop stop)) ∧
      (∀ token ∈ tokensOf source, token.stop ≤ stop) ∧
      (∀ place < stop, Token.Outside (tokensOf source) place →
        ¬Scan.Unclosed (source.drop place)) ∧
      Lexeme.invalidCount (Lexeme.read source) =
        (List.range stop).countP (fun place => Token.Outside (tokensOf source) place) +
          if stop < source.length then 1 else 0 := by
  refine ⟨Lexeme.flatMap_bytes_readFrom 0 source, ?_, Lexeme.pairwise_readFrom 0 source, ?_⟩
  · intro token mem
    obtain ⟨before, rest, length, rfl, place, front, bytes⟩ := Lexeme.scan_of_mem_readFrom mem
    have size : token.bytes.length = length := by
      have inside := scan_token_le front
      rw [bytes, List.length_take]
      omega
    have behind : (before ++ rest).drop token.offset = rest := by
      rw [place, Nat.zero_add, List.drop_left]
    refine ⟨Lexeme.bytes_ne_nil_of_mem_readFrom mem, ?_, ?_, ?_⟩
    · rw [behind, size, bytes]
    · rw [behind, size, front]
    · exact Token.alone_of_mem mem
  · obtain ⟨stop, counted⟩ := Lexeme.counted_readFrom 0 source
    have places := counted.stop
    have first := counted.first
    have count := counted.count
    simp only [Nat.zero_add] at places first count
    exact ⟨stop, counted.inside, counted.rest, places, first, count⟩

end StyleCascade
