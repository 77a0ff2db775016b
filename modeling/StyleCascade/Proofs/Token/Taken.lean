import StyleCascade.Token.Reader

namespace StyleCascade

namespace Token

section

variable {kind : TokenKind} {fault : SyntaxFault} {tokens rest : List Token} {token : Token}
  {name : String}

theorem expect_ok (read : expect kind fault tokens = .ok (token, rest)) :
    tokens = token :: rest ∧ token.kind = kind := by
  cases tokens with
  | nil => cases read
  | cons first more =>
    rw [expect] at read
    split at read <;> cases read
    next right => exact ⟨rfl, right⟩

theorem expect_of_kind (right : token.kind = kind) :
    expect kind fault (token :: rest) = .ok (token, rest) := by
  rw [expect, if_pos right]

theorem takeName_ok (read : takeName tokens = .ok (name, rest)) :
    ∃ token, tokens = token :: rest ∧ token.kind = .ident ∧ token.identifier = name := by
  obtain ⟨⟨token, last⟩, taken, same⟩ := Reading.map_eq_ok.mp read
  cases same
  obtain ⟨front, ident⟩ := expect_ok taken
  exact ⟨token, front, ident, rfl⟩

theorem takeName_of_ident (ident : token.kind = .ident) :
    takeName (token :: rest) = .ok (token.identifier, rest) := by
  rw [takeName, expect_of_kind ident]
  rfl

theorem takeWord_ok (read : takeWord tokens = .ok (name, rest)) :
    ∃ token, tokens = token :: rest ∧ token.kind = .ident ∧
      Text.lowercase token.identifier = name := by
  obtain ⟨_, taken, same⟩ := Reading.map_eq_ok.mp read
  cases same
  obtain ⟨token, front, ident, named⟩ := takeName_ok taken
  exact ⟨token, front, ident, congrArg Text.lowercase named⟩

theorem takeWord_of_ident (ident : token.kind = .ident) :
    takeWord (token :: rest) = .ok (Text.lowercase token.identifier, rest) := by
  rw [takeWord, takeName_of_ident ident]
  rfl

end

/-- Tokens without a brace. -/
def Braceless (tokens : List Token) : Prop :=
  ∀ token ∈ tokens, token.kind ≠ .openBrace ∧ token.kind ≠ .closeBrace

theorem Braceless.nil : Braceless [] :=
  fun _ mem => by cases mem

theorem Braceless.cons {token : Token} {rest : List Token} (noOpen : token.kind ≠ .openBrace)
    (noClose : token.kind ≠ .closeBrace) (others : Braceless rest) : Braceless (token :: rest) :=
  List.forall_mem_cons.mpr ⟨⟨noOpen, noClose⟩, others⟩

theorem Braceless.append {front rest : List Token} (first : Braceless front)
    (others : Braceless rest) : Braceless (front ++ rest) :=
  List.forall_mem_append.mpr ⟨first, others⟩

theorem Braceless.of_kind {token : Token} {rest : List Token} {kind : TokenKind}
    (same : token.kind = kind) (others : Braceless rest)
    (plain : kind ≠ .openBrace ∧ kind ≠ .closeBrace) : Braceless (token :: rest) :=
  .cons (same ▸ plain.1) (same ▸ plain.2) others

/-- White space, or nothing. -/
def Spaces (gap : List Token) : Prop :=
  ∀ token ∈ gap, token.kind = .space

section

variable {gap tokens rest : List Token} {token : Token}

theorem Spaces.nil : Spaces [] :=
  fun _ mem => by cases mem

theorem Spaces.of_cons (spaces : Spaces (token :: gap)) : token.kind = .space ∧ Spaces gap :=
  ⟨spaces token List.mem_cons_self, fun other mem => spaces other (List.mem_cons_of_mem token mem)⟩

theorem Spaces.braceless (spaces : Spaces gap) : Braceless gap := by
  intro token mem
  rw [spaces token mem]
  decide

theorem skipSpace_of_solid (solid : token.kind ≠ .space) :
    skipSpace (token :: rest) = token :: rest :=
  List.dropWhile_cons_of_neg (by simpa using solid)

theorem skipSpace_append (spaces : Spaces gap) (rest : List Token) :
    skipSpace (gap ++ rest) = skipSpace rest := by
  induction gap with
  | nil => rfl
  | cons token gap ih =>
    obtain ⟨space, more⟩ := spaces.of_cons
    have passed : skipSpace (token :: (gap ++ rest)) = skipSpace (gap ++ rest) :=
      List.dropWhile_cons_of_pos (by simpa using space)
    rw [List.cons_append, passed, ih more]

theorem skipSpace_of_spaces (spaces : Spaces gap) : skipSpace gap = [] := by
  have same := skipSpace_append spaces []
  rwa [List.append_nil] at same

/-- Tokens are white space and what is left when it is dropped. -/
theorem exists_spaces (tokens : List Token) :
    ∃ gap, Spaces gap ∧ tokens = gap ++ skipSpace tokens :=
  ⟨tokens.takeWhile (fun token => token.kind = .space),
    fun token mem => of_decide_eq_true (List.all_eq_true.mp List.all_takeWhile token mem),
    List.takeWhile_append_dropWhile.symm⟩

end

end Token

end StyleCascade
