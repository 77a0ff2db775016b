import StyleCascade.Proofs.Text.Plain
import StyleCascade.Proofs.Token.Append
import StyleCascade.Proofs.Token.Alone

namespace StyleCascade

/-- In front of `behind`, a source is read as tokens alone, and something holds of them. -/
def WrittenBefore (behind source : List UInt8) (holds : List Token → Prop) : Prop :=
  ∀ offset, ∃ tokens : List Token,
    Lexeme.readFrom offset (source ++ behind) =
      tokens.map .token ++ Lexeme.readFrom (offset + source.length) behind ∧ holds tokens

/-- What may stand behind a name: nothing, or bytes that do not go on with it. -/
def Cut (behind : List UInt8) : Prop :=
  ∀ c ∈ behind.head?, Scan.breaks c = true

theorem Cut.nil : Cut [] :=
  fun _ none => by cases none

theorem Cut.cons {b : UInt8} (cut : Scan.breaks b = true) (behind : List UInt8) :
    Cut (b :: behind) :=
  fun _ head => by cases head; exact cut

namespace WrittenBefore

variable {behind source other : List UInt8} {holds more whole : List Token → Prop}

theorem nil (empty : holds []) : WrittenBefore behind [] holds :=
  fun _ => ⟨[], rfl, empty⟩

/-- Two texts that are read back, one behind the other, are read back together. -/
theorem append (first : WrittenBefore (other ++ behind) source holds)
    (second : WrittenBefore behind other more)
    (join : ∀ front rest, holds front → more rest → whole (front ++ rest)) :
    WrittenBefore behind (source ++ other) whole := by
  intro offset
  obtain ⟨front, read, held⟩ := first offset
  obtain ⟨rest, readRest, heldRest⟩ := second (offset + source.length)
  refine ⟨front ++ rest, ?_, join front rest held heldRest⟩
  rw [List.append_assoc, read, readRest, List.map_append, List.append_assoc, List.length_append,
    Nat.add_assoc]

theorem imp (written : WrittenBefore behind source holds)
    (weaken : ∀ tokens, holds tokens → more tokens) : WrittenBefore behind source more := by
  intro offset
  obtain ⟨tokens, read, held⟩ := written offset
  exact ⟨tokens, read, weaken tokens held⟩

theorem of_scan {kind : TokenKind} (front : scan (source ++ behind) = .token kind source.length)
    (held : ∀ offset, holds [⟨kind, offset, source⟩]) : WrittenBefore behind source holds := by
  intro offset
  refine ⟨[⟨kind, offset, source⟩], ?_, held offset⟩
  rw [Lexeme.readFrom_of_token front, List.take_left, List.drop_left]
  rfl

/-- A whole source is read as the tokens that it is written for. -/
theorem tokensOf (written : WrittenBefore [] source holds) : holds (tokensOf source) := by
  obtain ⟨tokens, read, held⟩ := written 0
  rw [List.append_nil, Lexeme.readFrom_nil, List.append_nil] at read
  have same : StyleCascade.tokensOf source = tokens := by
    rw [StyleCascade.tokensOf, Lexeme.read, read, Lexeme.tokens, List.filterMap_map]
    exact List.filterMap_some
  rwa [same]

/-- The first token is what stands at the front. -/
theorem first (written : WrittenBefore behind source holds) (filled : ¬holds []) :
    ∃ token rest length, holds (token :: rest) ∧
      scan (source ++ behind) = .token token.kind length := by
  obtain ⟨tokens, read, held⟩ := written 0
  cases tokens with
  | nil => exact absurd held filled
  | cons token rest =>
    rw [List.map_cons, List.cons_append] at read
    refine ⟨token, rest, ?_⟩
    cases front : scan (source ++ behind) with
    | done => rw [Lexeme.readFrom_of_done front] at read; cases read
    | invalid length => rw [Lexeme.readFrom_of_invalid front] at read; cases read
    | token kind length =>
      rw [Lexeme.readFrom_of_token front] at read
      obtain ⟨same, -⟩ := List.cons.inj read
      cases same
      exact ⟨length, held, rfl⟩

end WrittenBefore

theorem scan_of_space {b : UInt8} (space : Ascii.isSpaceByte b = true) (rest : List UInt8) :
    scan (b :: rest) = .token .space (1 + (rest.takeWhile Ascii.isSpaceByte).length) := by
  have white : Scan.flat (b :: rest) =
      .token .space (1 + (rest.takeWhile Ascii.isSpaceByte).length) := by
    rw [Scan.flat, if_pos space]
  rw [scan_of_not_ident (fun length same => by rw [white] at same; cases same), white]

/-- White space is in front of none but tokens of white space. -/
theorem solid_of_scan {source : List UInt8} {kind : TokenKind} {length : Nat}
    (read : scan source = .token kind length) (solid : kind ≠ .space) :
    ∀ c ∈ source.head?, Ascii.isSpaceByte c = false := by
  intro c head
  obtain ⟨rest, rfl⟩ := List.head?_eq_some_iff.mp head
  refine Bool.eq_false_iff.mpr fun space => ?_
  rw [scan_of_space space] at read
  cases read
  exact solid rfl

/-- A mark that begins a condition goes on with no name in front of it. -/
theorem cut_of_scan {source : List UInt8} {kind : TokenKind} {length : Nat}
    (read : scan source = .token kind length)
    (mark : kind ∈ [TokenKind.hash, .dot, .openBracket, .colon]) : Cut source := by
  have others : ∀ kind ∈ [TokenKind.hash, .dot, .openBracket, .colon],
      kind ≠ .function ∧ kind ∉ [.space, .str, .ident, .important] ++ Scan.atWords.map Prod.snd := by
    decide
  obtain ⟨noFunction, single⟩ := others kind mark
  obtain ⟨function, -⟩ | ⟨front, -⟩ := scan_token_cases read
  · exact absurd function noFunction
  obtain ⟨⟨b, head, found⟩, -⟩ := Scan.flat_mark front single
  intro c same
  rw [head] at same
  cases same
  exact Scan.of_mark? (motive := fun b kind =>
    kind ∈ [TokenKind.hash, .dot, .openBracket, .colon] → Scan.breaks b = true) (by decide) found mark

namespace Scan

variable {front after : List UInt8}

theorem identLength_of_all (plain : ∀ b ∈ front, isIdentByte b = true ∧ b ≠ Ascii.byte '\\') :
    identLength front = front.length := by
  have passed := identLength_passed plain []
  rwa [List.append_nil] at passed

/-- Bytes of identifiers without a backslash are one, unless `>` closes a comment behind them. -/
theorem flat_of_all (filled : front ≠ [])
    (plain : ∀ b ∈ front, isIdentByte b = true ∧ b ≠ Ascii.byte '\\')
    (cut : ∀ c ∈ after.head?, isIdentByte c = false ∧ c ≠ Ascii.byte '>') :
    flat (front ++ after) = .token .ident front.length := by
  have whole : identLength (front ++ after) = front.length := by
    refine identLength_append (identLength_of_all plain) ?_ (fun c head => (cut c head).1)
    exact fun last => (plain _ (List.mem_of_getLast? last)).2 rfl
  have noClosing : (Ascii.bytes "-->").isPrefixOf (front ++ after) = false := by
    have marks : Ascii.bytes "-->" = [Ascii.byte '-', Ascii.byte '-', Ascii.byte '>'] := rfl
    have without : ∀ c ∈ after.head?, c ∉ Ascii.bytes "-->" := by
      intro c head mem
      obtain ⟨other, noAngle⟩ := cut c head
      rw [marks] at mem
      simp only [List.mem_cons, List.not_mem_nil, or_false] at mem
      rcases mem with rfl | rfl | rfl
      · exact absurd other (by decide)
      · exact absurd other (by decide)
      · exact noAngle rfl
    rw [isPrefixOf_append without, Bool.eq_false_iff]
    intro closing
    obtain ⟨inner, shape⟩ := List.isPrefixOf_iff_prefix.mp closing
    have angle : Ascii.byte '>' ∈ front := by
      rw [← shape, marks]
      simp
    exact absurd (plain _ angle).1 (by decide)
  cases front with
  | nil => exact absurd rfl filled
  | cons b rest =>
    rw [List.cons_append] at whole noClosing ⊢
    rw [flat_of_identByte (plain b List.mem_cons_self).1 noClosing, whole]

/-- A function of two names. -/
theorem closes_of_all {inner : List UInt8} (filled : inner ≠ [])
    (plain : ∀ b ∈ inner, isIdentByte b = true ∧ b ≠ Ascii.byte '\\') (behind : List UInt8) :
    Closes 0 (inner ++ Ascii.byte ')' :: behind) (inner.length + 1) := by
  have first : flat (inner ++ Ascii.byte ')' :: behind) = .token .ident inner.length :=
    flat_of_all filled plain (fun c head => by cases head; decide)
  refine .pass (.other first (by decide) (by decide)) ?_
  rw [List.drop_left]
  exact .last rfl

/-- A string of plain bytes ends at its quote. -/
theorem stringLength?_of_all {quote : UInt8} {inner : List UInt8}
    (plain : ∀ b ∈ inner, b ≠ Ascii.byte '\\' ∧ b ≠ quote) (single : quote ≠ Ascii.byte '\\')
    (behind : List UInt8) :
    stringLength? quote (inner ++ quote :: behind) = some (inner.length + 1) := by
  rw [stringLength?_passed plain, stringLength?_of_quote single, Option.map_some]

end Scan

namespace Text.IsPlain

variable {name : String}

theorem bytes (plain : IsPlain name) :
    Utf8.encode name ≠ [] ∧
      ∀ b ∈ Utf8.encode name, Scan.isIdentByte b = true ∧ b ≠ Ascii.byte '\\' := by
  rw [Utf8.encode_of_ascii plain.ascii]
  refine ⟨fun empty => plain.1 (List.map_eq_nil_iff.mp empty), fun b mem => ?_⟩
  obtain ⟨c, listed, rfl⟩ := List.mem_map.mp mem
  exact isIdentByte_of_isPlainChar (plain.2 c listed)

theorem scan_encode (plain : IsPlain name) :
    scan (Utf8.encode name) = .token .ident (Utf8.encode name).length := by
  obtain ⟨filled, all⟩ := plain.bytes
  have first : Scan.flat (Utf8.encode name ++ []) = .token .ident (Utf8.encode name).length :=
    Scan.flat_of_all filled all (fun _ none => by cases none)
  rw [List.append_nil] at first
  rw [scan_of_ident first, List.drop_length, if_neg (by decide)]

theorem getLast?_encode (plain : IsPlain name) :
    (Utf8.encode name).getLast? ≠ some (Ascii.byte '\\') :=
  fun last => (plain.bytes.2 _ (List.mem_of_getLast? last)).2 rfl

end Text.IsPlain

/-- Plain characters in front of what is read are their bytes in front. -/
theorem Utf8.eq_append_of_decode {bytes : List UInt8} {name rest : List Char}
    (plain : ∀ c ∈ name, Text.isPlainChar c = true) (read : decode bytes = name ++ rest) :
    ∃ more, bytes = name.map Ascii.byte ++ more ∧ decode more = rest := by
  induction name generalizing bytes with
  | nil => exact ⟨bytes, rfl, read⟩
  | cons c name ih =>
    obtain ⟨first, others⟩ := List.forall_mem_cons.mp plain
    have some : 0 < c.toNat :=
      Text.of_isPlainChar (motive := fun c => 0 < c.toNat) (by decide) first
    obtain ⟨more, rfl, behind⟩ := eq_cons_of_decode read some (Text.toNat_of_isPlainChar first)
    obtain ⟨last, rfl, readLast⟩ := ih others behind
    exact ⟨last, rfl, readLast⟩

/-- In the text of an identifier, no parenthesis stands right behind a plain name. -/
theorem Token.text_ne_of_ident {token : Token} {name rest : List Char} (alone : token.Alone)
    (ident : token.kind = .ident) (plain : ∀ c ∈ name, Text.isPlainChar c = true) :
    token.text.toList ≠ name ++ '(' :: rest := by
  intro same
  rw [Token.text, Utf8.text, String.toList_ofList] at same
  obtain ⟨behind, shape, read⟩ := Utf8.eq_append_of_decode plain same
  obtain ⟨more, rfl, -⟩ := Utf8.eq_cons_of_decode read (by decide) (by decide)
  have bytes : ∀ b ∈ name.map Ascii.byte,
      Scan.isIdentByte b = true ∧ b ≠ Ascii.byte '\\' := by
    intro b mem
    obtain ⟨c, listed, rfl⟩ := List.mem_map.mp mem
    exact Text.isIdentByte_of_isPlainChar (plain c listed)
  have stops : Scan.identLength token.bytes = (name.map Ascii.byte).length := by
    rw [shape]
    exact Scan.identLength_append (Scan.identLength_of_all bytes)
      (fun last => (bytes _ (List.mem_of_getLast? last)).2 rfl)
      (fun _ head => by cases head; decide)
  rw [Token.Alone, ident] at alone
  obtain ⟨wrong, -⟩ | ⟨first, -⟩ := scan_token_cases alone
  · cases wrong
  have whole : token.bytes.length = Scan.identLength token.bytes := by
    cases front : token.bytes with
    | nil => rfl
    | cons b rest =>
      rw [front] at first
      exact (Scan.ident_of_flat first).2
  have size := congrArg List.length shape
  rw [List.length_append, List.length_cons] at size
  omega

/-- No letter case makes the text of an identifier that of a function. -/
theorem Token.lower_text_ne_of_ident {token : Token} {function argument : String}
    (alone : token.Alone) (ident : token.kind = .ident) (plain : Text.IsPlain function) :
    Ascii.lower token.text ≠ function ++ "(" ++ argument ++ ")" := by
  intro same
  rw [← String.toList_inj, Ascii.toList_lower, Text.toList_call] at same
  obtain ⟨front, behind, split, named, rest⟩ := List.map_eq_append_iff.mp same
  obtain ⟨c, later, rfl, paren, -⟩ := List.map_eq_cons_iff.mp rest
  obtain rfl := Text.eq_paren_of_toLower paren
  refine Token.text_ne_of_ident alone ident (fun c mem => ?_) split
  have listed : c.toLower ∈ function.toList := by
    rw [← named]
    exact List.mem_map_of_mem mem
  exact Text.isPlainChar_of_toLower (plain.2 _ listed)

namespace WrittenBefore

variable {behind : List UInt8} {name : String}

/-- A single token of a kind. -/
def One (kind : TokenKind) (tokens : List Token) : Prop :=
  ∃ token, tokens = [token] ∧ token.kind = kind

/-- A single token of a kind and a text. -/
def Word (kind : TokenKind) (text : String) (tokens : List Token) : Prop :=
  ∃ token, tokens = [token] ∧ token.kind = kind ∧ token.text = text

theorem mark {b : UInt8} {kind : TokenKind} (front : scan (b :: behind) = .token kind 1) :
    WrittenBefore behind [b] (One kind) :=
  of_scan front fun offset => ⟨⟨kind, offset, [b]⟩, rfl, rfl⟩

/-- A space in front of what is none is a token of its own. -/
theorem gap (solid : ∀ c ∈ behind.head?, Ascii.isSpaceByte c = false) :
    WrittenBefore behind [Ascii.byte ' '] (One .space) := by
  refine mark ?_
  rw [scan_of_space (by decide), takeWhile_of_stops solid]
  rfl

theorem text {kind : TokenKind} {source : String}
    (front : scan (Utf8.encode source ++ behind) = .token kind (Utf8.encode source).length) :
    WrittenBefore behind (Utf8.encode source) (Word kind source) :=
  of_scan front fun offset => ⟨⟨kind, offset, Utf8.encode source⟩, rfl, rfl, Utf8.text_encode _⟩

theorem ident (whole : scan (Utf8.encode name) = .token .ident (Utf8.encode name).length)
    (ends : (Utf8.encode name).getLast? ≠ some (Ascii.byte '\\')) (cut : Cut behind) :
    WrittenBefore behind (Utf8.encode name) (Word .ident name) :=
  text (scan_append_ident whole ends cut)

theorem plain (plain : Text.IsPlain name) (cut : Cut behind) :
    WrittenBefore behind (Utf8.encode name) (Word .ident name) :=
  ident plain.scan_encode plain.getLast?_encode cut

theorem quoted (plain : Text.IsPlain name) :
    WrittenBefore behind (Utf8.encode ("\"" ++ name ++ "\"")) (Word .str ("\"" ++ name ++ "\"")) := by
  have mark : Utf8.encode "\"" = [Ascii.byte '"'] := rfl
  have inner : ∀ b ∈ Utf8.encode name, b ≠ Ascii.byte '\\' ∧ b ≠ Ascii.byte '"' := by
    intro b mem
    obtain ⟨ident, noEscape⟩ := plain.bytes.2 b mem
    exact ⟨noEscape, (Scan.solid_of_identByte ident).2.2.2.1⟩
  have closed := Scan.stringLength?_of_all inner (by decide) behind
  have first := Scan.flat_of_quote (Or.inl rfl) closed
  refine text ?_
  rw [Utf8.encode_append, Utf8.encode_append, mark, List.append_assoc, List.append_assoc,
    List.singleton_append, List.singleton_append, List.cons_append,
    scan_of_not_ident (fun length same => by rw [first] at same; cases same), first]
  simp only [List.length_cons, List.length_append, List.length_nil]
  congr 1
  omega

/-- A plain name with a plain argument in parentheses is one token. -/
theorem called {argument : String} (plain : Text.IsPlain name)
    (plainArgument : Text.IsPlain argument) :
    WrittenBefore behind (Utf8.encode (name ++ "(" ++ argument ++ ")"))
      (Word .function (name ++ "(" ++ argument ++ ")")) := by
  have opening : Utf8.encode "(" = [Ascii.byte '('] := rfl
  have closing : Utf8.encode ")" = [Ascii.byte ')'] := rfl
  obtain ⟨filled, all⟩ := plain.bytes
  obtain ⟨filledArgument, allArgument⟩ := plainArgument.bytes
  have first : Scan.flat (Utf8.encode name ++
      Ascii.byte '(' :: (Utf8.encode argument ++ Ascii.byte ')' :: behind)) =
        .token .ident (Utf8.encode name).length :=
    Scan.flat_of_all filled all (fun _ head => by cases head; decide)
  have arguments := Scan.functionLength?_eq_some_iff.mpr
    (Scan.closes_of_all filledArgument allArgument behind)
  refine text ?_
  simp only [Utf8.encode_append, opening, closing, List.append_assoc, List.cons_append,
    List.nil_append]
  rw [scan_of_ident first, List.drop_left, if_pos List.head?_cons, ← List.drop_drop,
    List.drop_left, List.drop_one, List.tail_cons, arguments]
  simp only [List.length_cons, List.length_append, List.length_nil]
  congr 1
  omega

end WrittenBefore

end StyleCascade
