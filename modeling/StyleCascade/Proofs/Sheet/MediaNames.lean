import StyleCascade.Proofs.Selector.Case
import StyleCascade.Proofs.Token.Comment
import StyleCascade.Sheet.Reader

namespace StyleCascade

/-- A name that is an identifier of ASCII characters without escapes. -/
structure PlainName (name : String) : Prop where
  ascii : ∀ c ∈ name.toList, c.toNat < 128
  noEscape : '\\' ∉ name.toList
  ident : scan (Utf8.encode name) = .token .ident (Utf8.encode name).length

instance (name : String) : Decidable (PlainName name) :=
  decidable_of_iff (name.toList.all (fun c => c.toNat < 128) = true ∧ '\\' ∉ name.toList ∧
      scan (Utf8.encode name) = .token .ident (Utf8.encode name).length)
    ⟨fun ⟨ascii, noEscape, ident⟩ => ⟨by simpa using ascii, noEscape, ident⟩,
      fun plain => ⟨by simpa using plain.ascii, plain.noEscape, plain.ident⟩⟩

/-- Bytes of white space, or none. -/
def White (gap : List UInt8) : Prop :=
  ∀ b ∈ gap, Ascii.isSpaceByte b = true

instance (gap : List UInt8) : Decidable (White gap) :=
  decidable_of_iff (gap.all Ascii.isSpaceByte = true) List.all_eq_true

/-- The source of a list of names, which commas separate. -/
inductive MediaList : List UInt8 → List String → Prop
  | none {gap : List UInt8} (white : White gap) : MediaList gap []
  | last {before after : List UInt8} {name : String} (white : White before)
      (plain : PlainName name) (whiteAfter : White after) :
      MediaList (before ++ (Utf8.encode name ++ after)) [name]
  | more {before after rest : List UInt8} {name next : String} {names : List String}
      (white : White before) (plain : PlainName name) (whiteAfter : White after)
      (others : MediaList rest (next :: names)) :
      MediaList (before ++ (Utf8.encode name ++ (after ++ Ascii.byte ',' :: rest)))
        (name :: next :: names)

namespace PlainName

variable {name : String}

theorem lowercase_eq (plain : PlainName name) : Text.lowercase name = Ascii.lower name := by
  refine (Text.lowercase_eq_lower_iff name).mpr (fun c mem beyond => ?_)
  have small := plain.ascii c mem
  omega

/-- The first byte of a name is no white space. -/
theorem front (plain : PlainName name) :
    ∃ b rest, Utf8.encode name = b :: rest ∧ Ascii.isSpaceByte b = false := by
  have ident := plain.ident
  cases shape : Utf8.encode name with
  | nil => rw [shape] at ident; cases ident
  | cons b rest =>
    refine ⟨b, rest, rfl, Bool.eq_false_iff.mpr (fun space => ?_)⟩
    rw [shape, scan_of_not_ident, Scan.flat, if_pos space] at ident
    · cases ident
    · intro length read
      rw [Scan.flat, if_pos space] at read
      cases read

end PlainName

theorem Scan.mark_comma : Scan.Mark (Ascii.byte ',') .comma :=
  ⟨by decide, by decide, fun _ => rfl⟩

/-- White space ends in front of what is none. -/
theorem scan_white {b : UInt8} {gap behind : List UInt8} (white : White (b :: gap))
    (solid : ∀ c ∈ behind.head?, Ascii.isSpaceByte c = false) :
    scan (b :: (gap ++ behind)) = .token .space (b :: gap).length := by
  obtain ⟨space, others⟩ := List.forall_mem_cons.mp white
  have run : (gap ++ behind).takeWhile Ascii.isSpaceByte = gap := by
    rw [List.takeWhile_append_of_pos others, takeWhile_of_stops solid, List.append_nil]
  have first : Scan.flat (b :: (gap ++ behind)) = .token .space (b :: gap).length := by
    rw [Scan.flat, if_pos space, run, List.length_cons, Nat.add_comm]
  rw [scan_of_not_ident (fun length read => by rw [first] at read; cases read), first]

/-- In front of `behind`, a source has lexemes of its own. None of them is invalid, and their tokens
give the names of media that `names` are. -/
def NamesBefore (behind source : List UInt8) (names : List String) : Prop :=
  ∀ offset, ∃ lexemes,
    Lexeme.readFrom offset (source ++ behind) =
      lexemes ++ Lexeme.readFrom (offset + source.length) behind ∧
    Lexeme.invalidCount lexemes = 0 ∧
    ∀ rest, Statement.takeMediaNames (Lexeme.tokens lexemes ++ rest) =
      (Statement.takeMediaNames rest).map
        (fun (more, last) => (names.map Ascii.lower ++ more, last))

namespace NamesBefore

variable {behind source other : List UInt8} {names others : List String}

theorem map_nil {reading : Reading (List String)} :
    reading.map (fun (more, last) => (([] : List String).map Ascii.lower ++ more, last)) =
      reading := by
  cases reading <;> rfl

theorem nil : NamesBefore behind [] [] :=
  fun _ => ⟨[], rfl, rfl, fun _ => map_nil.symm⟩

/-- Two lists of names are read one behind the other. -/
theorem append (first : NamesBefore (other ++ behind) source names)
    (second : NamesBefore behind other others) :
    NamesBefore behind (source ++ other) (names ++ others) := by
  intro offset
  obtain ⟨lexemes, read, valid, named⟩ := first offset
  obtain ⟨more, readMore, validMore, namedMore⟩ := second (offset + source.length)
  refine ⟨lexemes ++ more, ?_, ?_, fun rest => ?_⟩
  · rw [List.append_assoc, read, readMore, List.append_assoc, List.length_append, Nat.add_assoc]
  · rw [Lexeme.invalidCount_append, valid, validMore]
  · rw [Lexeme.tokens_append, List.append_assoc, named, namedMore]
    cases Statement.takeMediaNames rest with
    | error halt => rfl
    | ok found =>
      simp only [Except.map, List.map_append, List.append_assoc]

/-- A single token. -/
theorem of_scan {kind : TokenKind} (front : scan (source ++ behind) = .token kind source.length)
    (named : ∀ offset rest, Statement.takeMediaNames (⟨kind, offset, source⟩ :: rest) =
      (Statement.takeMediaNames rest).map
        (fun (more, last) => (names.map Ascii.lower ++ more, last))) :
    NamesBefore behind source names := by
  intro offset
  refine ⟨[.token ⟨kind, offset, source⟩], ?_, rfl, named offset⟩
  rw [Lexeme.readFrom_of_token front, List.take_left, List.drop_left]
  rfl

theorem white (gap : White source) (solid : ∀ c ∈ behind.head?, Ascii.isSpaceByte c = false) :
    NamesBefore behind source [] := by
  cases source with
  | nil => exact nil
  | cons b gap =>
    exact of_scan (scan_white ‹_› solid) (fun _ _ => map_nil.symm)

theorem comma : NamesBefore behind [Ascii.byte ','] [] :=
  of_scan (Scan.mark_comma.single behind) (fun _ _ => map_nil.symm)

theorem name {name : String} (plain : PlainName name)
    (cut : ∀ c ∈ behind.head?, Scan.breaks c = true) :
    NamesBefore behind (Utf8.encode name) [name] := by
  have noEscape := Utf8.byte_not_mem_encode (by decide) plain.noEscape
  have ends (last : (Utf8.encode name).getLast? = some (Ascii.byte '\\')) : False :=
    noEscape (List.mem_of_getLast? last)
  refine of_scan (scan_append_ident plain.ident ends cut) (fun offset rest => ?_)
  have written := Token.identifier_encode plain.noEscape .ident offset
  simp only [Statement.takeMediaNames, written, plain.lowercase_eq]
  rfl

/-- A name with white space around it. -/
theorem entry {before after : List UInt8} {name : String} (white : White before)
    (plain : PlainName name) (whiteAfter : White after)
    (cut : ∀ c ∈ behind.head?, Scan.breaks c = true)
    (solid : ∀ c ∈ behind.head?, Ascii.isSpaceByte c = false) :
    NamesBefore behind (before ++ (Utf8.encode name ++ after)) [name] := by
  have cutAfter : ∀ c ∈ (after ++ behind).head?, Scan.breaks c = true := by
    cases after with
    | nil => exact cut
    | cons c after =>
      rintro _ ⟨⟩
      exact Scan.breaks_of_space (whiteAfter c List.mem_cons_self)
  have solidName : ∀ c ∈ ((Utf8.encode name ++ after) ++ behind).head?,
      Ascii.isSpaceByte c = false := by
    obtain ⟨b, rest, shape, solid⟩ := plain.front
    rw [shape]
    rintro _ ⟨⟩
    exact solid
  exact append (.white white solidName) (append (.name plain cutAfter) (.white whiteAfter solid))

/-- The induction over a list of media names: each is cut off by the comma or the end behind it. -/
theorem list (listed : MediaList source names)
    (cut : ∀ c ∈ behind.head?, Scan.breaks c = true)
    (solid : ∀ c ∈ behind.head?, Ascii.isSpaceByte c = false) :
    NamesBefore behind source names := by
  induction listed with
  | none white => exact .white white solid
  | last white plain whiteAfter => exact .entry white plain whiteAfter cut solid
  | @more before after rest name next names white plain whiteAfter _ ih =>
    have first : NamesBefore ((Ascii.byte ',' :: rest) ++ behind)
        (before ++ (Utf8.encode name ++ after)) [name] := by
      refine .entry white plain whiteAfter ?_ ?_ <;> (rintro _ ⟨⟩; decide)
    have whole := first.append (append comma ih)
    rwa [List.append_assoc, List.append_assoc] at whole

end NamesBefore

end StyleCascade
