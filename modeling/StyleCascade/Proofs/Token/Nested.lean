import StyleCascade.Proofs.Token.Closing

namespace StyleCascade

namespace Scan

/-- A source begins with a string that nothing closes. -/
def opensString : List UInt8 → Bool
  | [] => false
  | b :: rest =>
    (b = Ascii.byte '"' || b = Ascii.byte '\'') && (stringLength? b rest).isNone

/-- The length of what opens a group at the front of a source: a parenthesis, or a name and a
parenthesis behind it. -/
def opening? (source : List UInt8) : Option Nat :=
  match flat source with
  | .token .openParen length => some length
  | .token .ident length =>
    if (source.drop length).head? = some (Ascii.byte '(') then some (length + 1) else none
  | _ => none

theorem opening?_pos {source : List UInt8} {opening : Nat}
    (opens : opening? source = some opening) :
    0 < opening ∧ 0 < source.length := by
  unfold opening? at opens
  split at opens
  · next front =>
    cases opens
    exact ⟨flat_token_pos front, length_pos_of_flat_token front⟩
  · next front =>
    have filled := length_pos_of_flat_token front
    split at opens <;> cases opens
    exact ⟨Nat.succ_pos _, filled⟩
  · cases opens

/-- The length of the rest of a group, through the parenthesis that closes it. A group inside is
read as a whole, by recursion; any other token is passed over, and so is a single byte that forms
none. Fails if the source ends first or a string is met that nothing closes. -/
def bodyLength? (source : List UInt8) : Option Nat :=
  match _group : opening? source with
  | some opening =>
    (bodyLength? (source.drop opening)).bind fun inner =>
      (bodyLength? (source.drop (opening + inner))).map (opening + inner + ·)
  | none =>
    match _front : flat source with
    | .done => none
    | .token kind length =>
      if kind = .closeParen then some length
      else (bodyLength? (source.drop length)).map (length + ·)
    | .invalid _ =>
      if opensString source then none else (bodyLength? (source.drop 1)).map (1 + ·)
  termination_by source.length
  decreasing_by
    · have := opening?_pos _group
      simp only [List.length_drop]; omega
    · have := opening?_pos _group
      simp only [List.length_drop]; omega
    · have := flat_token_pos _front; have := length_pos_of_flat_token _front
      simp only [List.length_drop]; omega
    · have := flat_invalid _front
      simp only [List.length_drop]; omega

/-- The length of a function or a group at the front of a source. -/
def groupLength? (source : List UInt8) : Option Nat :=
  (opening? source).bind fun opening =>
    (bodyLength? (source.drop opening)).map (opening + ·)

section

variable {source : List UInt8}

/-- A nested group is measured first, and what stands behind it after that. -/
theorem bodyLength?_of_opening {opening : Nat} (opens : opening? source = some opening) :
    bodyLength? source =
      (bodyLength? (source.drop opening)).bind fun inner =>
        (bodyLength? (source.drop (opening + inner))).map (opening + inner + ·) := by
  rw [bodyLength?]
  split
  · next same => rw [opens] at same; cases same; rfl
  · next none => rw [opens] at none; cases none

/-- A token that opens nothing either closes the group or is passed. -/
theorem bodyLength?_of_token {kind : TokenKind} {length : Nat} (plain : opening? source = none)
    (front : flat source = .token kind length) :
    bodyLength? source =
      if kind = .closeParen then some length
      else (bodyLength? (source.drop length)).map (length + ·) := by
  rw [bodyLength?]
  split
  · next opens => rw [plain] at opens; cases opens
  · split
    · next done => rw [front] at done; cases done
    · next same => rw [front] at same; cases same; rfl
    · next invalid => rw [front] at invalid; cases invalid

/-- A group is opened by a parenthesis alone or by a name with one right behind it. -/
theorem opening?_of_token {kind : TokenKind} {length : Nat}
    (front : flat source = .token kind length) :
    opening? source =
      if kind = .openParen then some length
      else if kind = .ident ∧ (source.drop length).head? = some (Ascii.byte '(') then
        some (length + 1)
      else none := by
  rw [opening?, front]
  cases kind <;> simp

theorem opening?_of_invalid {length : Nat} (front : flat source = .invalid length) :
    opening? source = none := by
  rw [opening?, front]

theorem bodyLength?_of_invalid {length : Nat} (front : flat source = .invalid length) :
    bodyLength? source =
      if opensString source then none else (bodyLength? (source.drop 1)).map (1 + ·) := by
  rw [bodyLength?]
  split
  · next opens => rw [opening?_of_invalid front] at opens; cases opens
  · split
    · next done => rw [front] at done; cases done
    · next token => rw [front] at token; cases token
    · rfl

theorem bodyLength?_nil : bodyLength? [] = none := by
  rw [bodyLength?]
  rfl

/-- Bytes that form no token are an open string through the end, or a single byte. -/
theorem flat_invalid_cases {length : Nat} (front : flat source = .invalid length) :
    (opensString source = true ∧ length = source.length) ∨
      (opensString source = false ∧ length = 1) := by
  unfold flat at front
  split at front
  · cases front
  · next b rest =>
    split at front
    · cases front
    split at front
    · split at front <;> cases front
    split at front
    · cases front
    split at front
    · cases front
    split at front
    · next quote =>
      split at front
      · cases front
      · next open' =>
        cases front
        left
        rw [opensString, quote, open', List.length_cons]
        exact ⟨rfl, Nat.add_comm 1 rest.length⟩
    next noQuote =>
    have closed : opensString (b :: rest) = false := by
      rw [opensString, Bool.eq_false_of_not_eq_true noQuote, Bool.false_and]
    refine Or.inr ⟨closed, ?_⟩
    split at front
    · exact atWord_invalid front
    split at front
    · exact importantMark_invalid front
    split at front
    · cases front
    · split at front <;> cases front
      rfl

end

/-- The length of the rest of `depth` groups, one inside the other, and of the group around them. -/
def bodiesLength? : Nat → List UInt8 → Option Nat
  | 0, source => bodyLength? source
  | depth + 1, source =>
    (bodyLength? source).bind fun inner =>
      (bodiesLength? depth (source.drop inner)).map (inner + ·)

section

variable {source : List UInt8}

/-- What is passed over belongs to the innermost group. -/
theorem bodiesLength?_of_passed {depth step : Nat}
    (passed : bodyLength? source = (bodyLength? (source.drop step)).map (step + ·)) :
    bodiesLength? depth source = (bodiesLength? depth (source.drop step)).map (step + ·) := by
  cases depth with
  | zero => exact passed
  | succ depth =>
    rw [bodiesLength?, bodiesLength?, passed]
    cases bodyLength? (source.drop step) with
    | none => rfl
    | some inner =>
      simp only [Option.map_some, Option.bind_some, List.drop_drop, Option.map_map]
      congr 1
      funext more
      exact Nat.add_assoc step inner more

/-- A group that opens is one more that is open. -/
theorem bodiesLength?_of_opening {depth opening : Nat} (opens : opening? source = some opening) :
    bodiesLength? depth source =
      (bodiesLength? (depth + 1) (source.drop opening)).map (opening + ·) := by
  rw [bodiesLength?]
  cases depth with
  | zero =>
    rw [bodiesLength?, bodyLength?_of_opening opens]
    cases bodyLength? (source.drop opening) with
    | none => rfl
    | some inner => simp [bodiesLength?, Function.comp_def, Nat.add_assoc]
  | succ depth =>
    rw [bodiesLength?, bodyLength?_of_opening opens]
    cases bodyLength? (source.drop opening) with
    | none => rfl
    | some inner =>
      simp only [Option.bind_some, bodiesLength?, List.drop_drop]
      cases bodyLength? (source.drop (opening + inner)) with
      | none => rfl
      | some outer => simp [Function.comp_def, Nat.add_assoc]

/-- What a function passes over, reading group by group passes over as well. -/
theorem bodiesLength?_of_passes {depth next taken : Nat}
    (passes : Passes source depth taken next) :
    bodiesLength? depth source = (bodiesLength? next (source.drop taken)).map (taken + ·) := by
  cases passes with
  | opening front =>
    have opens : opening? source = some taken := by rw [opening?_of_token front, if_pos rfl]
    exact bodiesLength?_of_opening opens
  | closing front =>
    have plain : opening? source = none := by rw [opening?_of_token front]; rfl
    have read := bodyLength?_of_token plain front
    rw [if_pos rfl] at read
    rw [bodiesLength?, read, Option.bind_some]
  | @other _ _ kind front noOpening noClosing =>
    have opens := opening?_of_token front
    rw [if_neg noOpening] at opens
    by_cases named : kind = .ident ∧ (source.drop taken).head? = some (Ascii.byte '(')
    · -- the group opens behind its name, which is passed over first
      rw [if_pos named] at opens
      have paren : opening? (source.drop taken) = some 1 := by
        obtain ⟨rest, shape⟩ := List.head?_eq_some_iff.mp named.2
        rw [shape]
        rfl
      rw [bodiesLength?_of_opening opens, bodiesLength?_of_opening paren, List.drop_drop]
      simp [Function.comp_def, Nat.add_assoc]
    · rw [if_neg named] at opens
      have read := bodyLength?_of_token opens front
      rw [if_neg noClosing] at read
      exact bodiesLength?_of_passed read
  | invalid front inside =>
    have read := bodyLength?_of_invalid front
    rcases flat_invalid_cases front with ⟨-, whole⟩ | ⟨noString, -⟩
    · omega
    · rw [noString, if_neg Bool.false_ne_true] at read
      exact bodiesLength?_of_passed read

theorem bodiesLength?_of_none {depth : Nat} (noneCloses : bodyLength? source = none) :
    bodiesLength? depth source = none := by
  cases depth with
  | zero => exact noneCloses
  | succ depth => rw [bodiesLength?, noneCloses, Option.bind_none]

theorem bodyLength?_of_whole {length : Nat} (front : flat source = .invalid length)
    (whole : source.length ≤ length) : bodyLength? source = none := by
  have read := bodyLength?_of_invalid front
  rcases flat_invalid_cases front with ⟨string, -⟩ | ⟨noString, rfl⟩
  · rw [read, string, if_pos rfl]
  · rw [read, noString, if_neg Bool.false_ne_true, List.drop_eq_nil_of_le whole, bodyLength?_nil,
      Option.map_none]

end

/-- Counting the open parentheses ends where reading each group as a whole ends. -/
theorem functionLength?_eq_bodies (depth : Nat) (source : List UInt8) :
    functionLength? depth source = bodiesLength? depth source := by
  induction size : source.length using Nat.strong_induction_on generalizing depth source with
  | _ _ ih =>
  subst size
  rcases passes_or_stops depth source with
    ⟨taken, next, passes⟩ | ⟨rfl, size, front⟩ | rfl | ⟨size, front, whole⟩
  · obtain ⟨some, filled⟩ := passes.pos
    rw [functionLength?_of_passes passes, bodiesLength?_of_passes passes,
      ih _ (by rw [List.length_drop]; omega) next _ rfl]
  · have plain : opening? source = none := by rw [opening?_of_token front]; rfl
    have read := bodyLength?_of_token plain front
    rw [if_pos rfl] at read
    rw [functionLength?_of_closeParen front, bodiesLength?, read]
  · rw [functionLength?_nil, bodiesLength?_of_none bodyLength?_nil]
  · rw [functionLength?_of_whole front whole,
      bodiesLength?_of_none (bodyLength?_of_whole front whole)]

theorem flat_of_call {source : List UInt8} (named : 0 < identLength source)
    (called : (source.drop (identLength source)).head? = some (Ascii.byte '(')) :
    flat source = .token .ident (identLength source) := by
  cases source with
  | nil => cases called
  | cons b rest =>
    have ident : isIdentByte b = true := by
      by_contra other
      rw [identLength_of_other (Bool.eq_false_of_not_eq_true other)] at named
      exact Nat.lt_irrefl 0 named
    refine flat_of_identByte ident (Bool.eq_false_iff.mpr fun closing => ?_)
    -- two hyphens would be the whole name, and no parenthesis stands behind them
    obtain ⟨later, shape⟩ := List.isPrefixOf_iff_prefix.mp closing
    have marks : Ascii.bytes "-->" = [45, 45, 62] := rfl
    have hyphens : identLength (45 :: 45 :: 62 :: later) = 2 := by
      rw [identLength_of_plain (by decide) (by decide),
        identLength_of_plain (by decide) (by decide), identLength_of_other (by decide)]
    rw [← shape, marks] at called
    simp only [List.cons_append, List.nil_append, hyphens] at called
    exact absurd (Option.some.inj called) (by decide)

/-- What begins with a name and a parenthesis is read as a group. -/
theorem scan_of_call {source : List UInt8} (named : 0 < identLength source)
    (called : (source.drop (identLength source)).head? = some (Ascii.byte '(')) :
    scan source =
      match groupLength? source with
      | some length => .token .function length
      | none => .invalid source.length := by
  have front := flat_of_call named called
  have opens : opening? source = some (identLength source + 1) := by
    rw [opening?_of_token front, if_neg (by decide), if_pos ⟨rfl, called⟩]
  rw [scan_of_ident front, if_pos called, functionLength?_eq_bodies, bodiesLength?, groupLength?,
    opens, Option.bind_some]
  cases bodyLength? (source.drop (identLength source + 1)) <;> rfl

/-- What begins with a name and a parenthesis is a function of the length that reading group by
group gives, and it is none, to the end of the source, just if that fails. -/
theorem scan_call_iff {source : List UInt8} (named : 0 < identLength source)
    (called : (source.drop (identLength source)).head? = some (Ascii.byte '(')) :
    (∀ length, scan source = .token .function length ↔ groupLength? source = some length) ∧
      (scan source = .invalid source.length ↔ groupLength? source = none) := by
  rw [scan_of_call named called]
  cases groupLength? source with
  | none => simp
  | some length => simp

/-- Strings, comments and bytes that form no token hide parentheses or pass between them. -/
theorem scan_call_iff_hidden :
    let closed := Ascii.bytes "f(g(')') ? (a) /*)*/) x"
    let unclosed := Ascii.bytes "f(g(')' ? (a) /*)*/) x"
    (0 < identLength closed ∧
      (closed.drop (identLength closed)).head? = some (Ascii.byte '(') ∧
        scan closed = .token .function 21) ∧
      (0 < identLength unclosed ∧
        (unclosed.drop (identLength unclosed)).head? = some (Ascii.byte '(') ∧
          scan unclosed = .invalid unclosed.length) := by
  intro closed unclosed
  have named : 0 < identLength closed := by decide +kernel
  have called : (closed.drop (identLength closed)).head? = some (Ascii.byte '(') := by
    decide +kernel
  have read : groupLength? closed = some 21 := by decide +kernel
  have namedOther : 0 < identLength unclosed := by decide +kernel
  have calledOther : (unclosed.drop (identLength unclosed)).head? = some (Ascii.byte '(') := by
    decide +kernel
  have failed : groupLength? unclosed = none := by decide +kernel
  exact ⟨⟨named, called, ((scan_call_iff named called).1 21).mpr read⟩,
    namedOther, calledOther, (scan_call_iff namedOther calledOther).2.mpr failed⟩

end Scan

end StyleCascade
