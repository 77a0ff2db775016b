import StyleCascade.Proofs.Token.Ahead

namespace StyleCascade

namespace Scan

/-- How a function goes over the lexeme at the front of a source: the number of groups that are open
in front of it, its bytes, and the number of groups that are open behind it. -/
inductive Passes (source : List UInt8) : Nat → Nat → Nat → Prop
  | opening {depth size : Nat} (front : flat source = .token .openParen size) :
      Passes source depth size (depth + 1)
  | closing {depth size : Nat} (front : flat source = .token .closeParen size) :
      Passes source (depth + 1) size depth
  | other {depth size : Nat} {kind : TokenKind} (front : flat source = .token kind size)
      (noOpening : kind ≠ .openParen) (noClosing : kind ≠ .closeParen) :
      Passes source depth size depth
  | invalid {depth size : Nat} (front : flat source = .invalid size)
      (inside : size < source.length) : Passes source depth 1 depth

/-- A function inside some open groups ends with a number of bytes, those of the parenthesis that
closes it included. -/
inductive Closes : Nat → List UInt8 → Nat → Prop
  | last {source : List UInt8} {size : Nat} (front : flat source = .token .closeParen size) :
      Closes 0 source size
  | pass {source : List UInt8} {depth next taken more : Nat}
      (front : Passes source depth taken next) (rest : Closes next (source.drop taken) more) :
      Closes depth source (taken + more)

section

variable {source : List UInt8} {depth next taken length : Nat}

theorem Passes.pos (passes : Passes source depth taken next) :
    0 < taken ∧ 0 < source.length := by
  cases passes with
  | opening front | closing front | other front =>
    exact ⟨flat_token_pos front, length_pos_of_flat_token front⟩
  | invalid front => exact ⟨Nat.one_pos, (flat_invalid front).1⟩

/-- The lexeme in front is passed over, unless it closes the function, or nothing is left behind
it. -/
theorem passes_or_stops (depth : Nat) (source : List UInt8) :
    (∃ taken next, Passes source depth taken next) ∨
      (depth = 0 ∧ ∃ size, flat source = .token .closeParen size) ∨
      source = [] ∨ ∃ size, flat source = .invalid size ∧ source.length ≤ size := by
  cases front : flat source with
  | done => exact .inr (.inr (.inl (flat_eq_done_iff.mp front)))
  | token kind size =>
    by_cases close : kind = .closeParen
    · subst close
      cases depth with
      | zero => exact .inr (.inl ⟨rfl, size, rfl⟩)
      | succ depth => exact .inl ⟨size, depth, .closing front⟩
    by_cases opens : kind = .openParen
    · subst opens
      exact .inl ⟨size, depth + 1, .opening front⟩
    · exact .inl ⟨size, depth, .other front opens close⟩
  | invalid size =>
    rcases Nat.lt_or_ge size source.length with inside | whole
    · exact .inl ⟨1, depth, .invalid front inside⟩
    · exact .inr (.inr (.inr ⟨size, rfl, whole⟩))

theorem functionLength?_nil (depth : Nat) : functionLength? depth [] = none := by
  rw [functionLength?]
  rfl

/-- How a function goes on behind a token in it. -/
theorem functionLength?_of_token {depth : Nat} {source : List UInt8} {kind : TokenKind}
    {size : Nat} (front : flat source = .token kind size) :
    functionLength? depth source =
      if kind = .closeParen then
        if depth = 0 then some size
        else (functionLength? (depth - 1) (source.drop size)).map (size + ·)
      else
        (functionLength? (if kind = .openParen then depth + 1 else depth) (source.drop size)).map
          (size + ·) := by
  rw [functionLength?]
  split
  · next empty => rw [front] at empty; cases empty
  · next close => rw [front] at close; cases close; rw [if_pos rfl]
  · next opening =>
    rw [front] at opening; cases opening
    rw [if_neg (by decide), if_pos rfl]
  · next noClose noOpening other =>
    rw [front] at other; cases other
    rw [if_neg (fun close => noClose close), if_neg (fun opening => noOpening opening)]
  · next wrong => rw [front] at wrong; cases wrong

/-- How a function goes on behind bytes that form no token. -/
theorem functionLength?_of_invalid {depth : Nat} {source : List UInt8} {size : Nat}
    (front : flat source = .invalid size) :
    functionLength? depth source =
      if source.length ≤ size then none
      else (functionLength? depth (source.drop 1)).map (1 + ·) := by
  rw [functionLength?]
  split
  · next empty => rw [front] at empty; cases empty
  · next close => rw [front] at close; cases close
  · next opening => rw [front] at opening; cases opening
  · next other => rw [front] at other; cases other
  · next same =>
    rw [front] at same; cases same
    simp only [List.isEmpty_iff, List.drop_eq_nil_iff]

theorem functionLength?_of_closeParen (front : flat source = .token .closeParen length) :
    functionLength? 0 source = some length := by
  rw [functionLength?_of_token front, if_pos rfl, if_pos rfl]

/-- An open string takes what is left, and the last byte of a source closes nothing if it forms no
token. -/
theorem functionLength?_of_whole (front : flat source = .invalid length)
    (whole : source.length ≤ length) : functionLength? depth source = none := by
  rw [functionLength?_of_invalid front, if_pos whole]

theorem functionLength?_of_passes (passes : Passes source depth taken next) :
    functionLength? depth source =
      (functionLength? next (source.drop taken)).map (taken + ·) := by
  cases passes with
  | opening front => rw [functionLength?_of_token front, if_neg (by decide), if_pos rfl]
  | closing front =>
    rw [functionLength?_of_token front, if_pos rfl, if_neg (Nat.succ_ne_zero _),
      Nat.add_sub_cancel]
  | other front noOpening noClosing =>
    rw [functionLength?_of_token front, if_neg noClosing, if_neg noOpening]
  | invalid front inside => rw [functionLength?_of_invalid front, if_neg (Nat.not_le.mpr inside)]

/-- The length of a function is that of a run over its lexemes. -/
theorem functionLength?_eq_some_iff :
    functionLength? depth source = some length ↔ Closes depth source length := by
  constructor
  · intro found
    induction size : source.length using Nat.strong_induction_on
      generalizing depth source length with
    | _ _ ih =>
    subst size
    rcases passes_or_stops depth source with
      ⟨taken, next, passes⟩ | ⟨rfl, size, front⟩ | rfl | ⟨size, front, whole⟩
    · rw [functionLength?_of_passes passes] at found
      obtain ⟨more, rest, rfl⟩ := Option.map_eq_some_iff.mp found
      obtain ⟨some, filled⟩ := passes.pos
      exact .pass passes (ih _ (by rw [List.length_drop]; omega) rest rfl)
    · rw [functionLength?_of_closeParen front] at found
      cases found
      exact .last front
    · rw [functionLength?_nil] at found
      cases found
    · rw [functionLength?_of_whole front whole] at found
      cases found
  · intro closes
    induction closes with
    | last front => exact functionLength?_of_closeParen front
    | pass front _ ih => rw [functionLength?_of_passes front, ih, Option.map_some]

theorem Closes.pos (closes : Closes depth source length) : 0 < length := by
  cases closes with
  | last front => exact flat_token_pos front
  | pass front => exact Nat.add_pos_left front.pos.1 _

/-- A function ends in a parenthesis. -/
theorem Closes.shape (closes : Closes depth source length) :
    ∃ inner rest, source = inner ++ Ascii.byte ')' :: rest ∧ length = inner.length + 1 := by
  induction closes with
  | last front =>
    obtain ⟨head, rfl⟩ := flat_closeParen front
    obtain ⟨rest, rfl⟩ := List.head?_eq_some_iff.mp head
    exact ⟨[], rest, rfl, rfl⟩
  | @pass source _ _ taken _ front _ ih =>
    obtain ⟨inner, rest, behind, rfl⟩ := ih
    have within : taken ≤ source.length := by
      have size := congrArg List.length behind
      rw [List.length_drop, List.length_append, List.length_cons] at size
      omega
    refine ⟨source.take taken ++ inner, rest, ?_, ?_⟩
    · rw [List.append_assoc, ← behind, List.take_append_drop]
    · rw [List.length_append, List.length_take, Nat.min_eq_left within]
      omega

theorem Closes.le_length (closes : Closes depth source length) : length ≤ source.length := by
  obtain ⟨inner, rest, rfl, rfl⟩ := closes.shape
  rw [List.length_append, List.length_cons]
  omega

end

section

variable {front one other : List UInt8} {b : UInt8} {depth next taken length : Nat}

/-- What is passed over in front of a byte is passed over if something else is put in its place. -/
theorem Passes.swap (swap : Swap b other) (passes : Passes (front ++ b :: one) depth taken next)
    (reach : taken ≤ front.length) (more : taken < (front ++ other).length) :
    Passes (front ++ other) depth taken next := by
  have filled : front ≠ [] := List.ne_nil_of_length_pos (Nat.lt_of_lt_of_le passes.pos.1 reach)
  have same {first : Scan} (read : flat (front ++ b :: one) = first)
      (inside : first.extent ≤ front.length) : flat (front ++ other) = first := by
    rw [flat_swap swap filled (by rwa [read]), read]
  cases passes with
  | opening read => exact .opening (same read reach)
  | closing read => exact .closing (same read reach)
  | other read noOpening noClosing => exact .other (same read reach) noOpening noClosing
  | @invalid _ size read inside =>
    have single : size = 1 := (flat_invalid read).2.resolve_right (Nat.ne_of_lt inside)
    subst single
    exact .invalid (same read reach) more

/-- A function that is closed inside the front of a source is closed there whatever follows. -/
theorem Closes.swap (swap : Swap b other) (closes : Closes depth (front ++ b :: one) length)
    (inside : length ≤ front.length) : Closes depth (front ++ other) length := by
  generalize shape : front ++ b :: one = source at closes
  induction closes generalizing front with
  | @last source size read =>
    subst shape
    have filled : front ≠ [] :=
      List.ne_nil_of_length_pos (Nat.lt_of_lt_of_le (flat_token_pos read) inside)
    exact .last ((flat_swap swap filled (by rwa [read])).trans read)
  | @pass source _ _ taken more passes rest ih =>
    subst shape
    have some := rest.pos
    have reach : taken ≤ front.length := by omega
    have further : taken < (front ++ other).length := by rw [List.length_append]; omega
    refine .pass (passes.swap swap reach further) ?_
    rw [List.drop_append_of_le_length reach]
    exact ih (by rw [List.length_drop]; omega) (List.drop_append_of_le_length reach).symm

end

end Scan

theorem scan_of_not_ident {source : List UInt8}
    (plain : ∀ length, Scan.flat source ≠ .token .ident length) :
    scan source = Scan.flat source := by
  unfold scan
  split
  · next length front => exact absurd front (plain length)
  · rfl

/-- An identifier is the start of a function if a parenthesis stands behind it. -/
theorem scan_of_ident {source : List UInt8} {length : Nat}
    (front : Scan.flat source = .token .ident length) :
    scan source =
      if (source.drop length).head? = some (Ascii.byte '(') then
        match Scan.functionLength? 0 (source.drop (length + 1)) with
        | some more => .token .function (length + 1 + more)
        | none => .invalid source.length
      else .token .ident length := by
  rw [scan, front]
  simp only
  rw [← List.drop_drop]
  cases source.drop length with
  | nil => rfl
  | cons b arguments =>
    simp only
    rw [List.head?_cons]
    by_cases opened : b = Ascii.byte '('
    · rw [if_pos opened, if_pos (congrArg some opened)]
      rfl
    · rw [if_neg opened, if_neg (fun same => opened (Option.some.inj same))]

/-- The tokens of a source are functions, and what is read without them. -/
theorem scan_token_cases {source : List UInt8} {kind : TokenKind} {length : Nat}
    (read : scan source = .token kind length) :
    (kind = .function ∧ ∃ size more, Scan.flat source = .token .ident size ∧
      (source.drop size).head? = some (Ascii.byte '(') ∧
        Scan.Closes 0 (source.drop (size + 1)) more ∧ length = size + 1 + more) ∨
    (Scan.flat source = .token kind length ∧
      (kind = .ident → (source.drop length).head? ≠ some (Ascii.byte '('))) := by
  by_cases named : ∃ size, Scan.flat source = .token .ident size
  · obtain ⟨size, first⟩ := named
    rw [scan_of_ident first] at read
    split at read
    · next opened =>
      split at read <;> cases read
      next more closed =>
        have closes := Scan.functionLength?_eq_some_iff.mp closed
        exact Or.inl ⟨rfl, size, more, first, opened, closes, rfl⟩
    · next plain =>
      cases read
      exact Or.inr ⟨first, fun _ => plain⟩
  · have plain : ∀ size, Scan.flat source ≠ .token .ident size :=
      fun size first => named ⟨size, first⟩
    rw [scan_of_not_ident plain] at read
    refine Or.inr ⟨read, ?_⟩
    rintro rfl
    exact absurd read (plain length)

theorem scan_closeBrace {source : List UInt8} {length : Nat}
    (read : scan source = .token .closeBrace length) :
    source.head? = some (Ascii.byte '\x7d') ∧ length = 1 := by
  obtain ⟨wrong, -⟩ | ⟨first, -⟩ := scan_token_cases read
  · cases wrong
  · exact Scan.flat_closeBrace first

section

variable {front one other : List UInt8} {b : UInt8}

/-- What stands at the front of a source and ends in front of a byte stays if something else is put
in its place. -/
theorem scan_swap (swap : Scan.Swap b other) (filled : front ≠ [])
    (inside : (scan (front ++ b :: one)).extent ≤ front.length) :
    scan (front ++ other) = scan (front ++ b :: one) := by
  by_cases named : ∃ length, Scan.flat (front ++ b :: one) = .token .ident length
  · obtain ⟨length, first⟩ := named
    rw [scan_of_ident first] at inside
    have reach : length ≤ front.length := by
      split at inside
      · split at inside
        · simp only [Scan.extent] at inside; omega
        · simp only [Scan.extent, List.length_append, List.length_cons] at inside; omega
      · exact inside
    have same := Scan.flat_swap swap filled (by rwa [first, Scan.extent])
    rw [scan_of_ident first, scan_of_ident (same.trans first)]
    rcases Nat.lt_or_eq_of_le reach with further | rfl
    · have next (rest : List UInt8) : ((front ++ rest).drop length).head? =
          (front.drop length).head? := by
        have more : front.drop length ≠ [] := List.ne_nil_of_length_pos (by
          rw [List.length_drop]; omega)
        rw [List.drop_append_of_le_length reach, List.head?_append,
          List.head?_eq_some_head more, Option.some_or]
      rw [next] at inside
      rw [next, next]
      split at inside
      · next opened =>
        rw [if_pos opened, if_pos opened]
        rw [List.drop_append_of_le_length further] at inside
        rw [List.drop_append_of_le_length further, List.drop_append_of_le_length further]
        obtain ⟨more, found, within⟩ := Scan.exists_of_extent_le inside (by
          rw [Scan.extent, List.length_append, List.length_cons]; omega)
        have closes := (Scan.functionLength?_eq_some_iff.mp found).swap swap
          (by rw [List.length_drop]; omega)
        rw [found, Scan.functionLength?_eq_some_iff.mpr closes]
      · next plain => rw [if_neg plain, if_neg plain]
    · -- behind the identifier stands what is swapped, and no parenthesis
      have noParen {after : List UInt8} (cut : ∀ c ∈ after.head?, Scan.breaks c = true) :
          after.head? ≠ some (Ascii.byte '(') :=
        fun opened => Scan.ne_paren_of_breaks (cut _ opened) rfl
      rw [List.drop_left, List.drop_left, if_neg (noParen (swap.self one)),
        if_neg (noParen swap.other)]
  · have plain : ∀ length, Scan.flat (front ++ b :: one) ≠ .token .ident length :=
      fun length first => named ⟨length, first⟩
    rw [scan_of_not_ident plain] at inside
    have same := Scan.flat_swap swap filled inside
    rw [scan_of_not_ident plain, scan_of_not_ident (by rwa [same]), same]

end

section

variable {front after : List UInt8}

/-- An identifier that is a whole source, with no backslash at its end, is one in front of a byte
that cuts. -/
theorem scan_append_ident (whole : scan front = .token .ident front.length)
    (ends : front.getLast? ≠ some (Ascii.byte '\\'))
    (cut : ∀ c ∈ after.head?, Scan.breaks c = true) :
    scan (front ++ after) = .token .ident front.length := by
  obtain ⟨wrong, -⟩ | ⟨first, -⟩ := scan_token_cases whole
  · cases wrong
  have flat := Scan.flat_append_ident first ends cut
  have noParen : after.head? ≠ some (Ascii.byte '(') :=
    fun opened => Scan.ne_paren_of_breaks (cut _ opened) rfl
  rw [scan_of_ident flat, List.drop_left, if_neg noParen]

end

end StyleCascade
