import StyleCascade.Token.Reader

namespace StyleCascade

namespace Token

/-- Passes over tokens up to the first semicolon, and over that. -/
def skipPastSemicolon : List Token → List Token
  | [] => []
  | token :: rest => if token.kind = .semicolon then rest else skipPastSemicolon rest

/-- Passes over the rest of a block, and over the brace that closes it. Inside, `depth` more
blocks are open. -/
def skipBlock (depth : Nat) : List Token → List Token
  | [] => []
  | token :: rest =>
    match token.kind, depth with
    | .openBrace, _ => skipBlock (depth + 1) rest
    | .closeBrace, 0 => rest
    | .closeBrace, less + 1 => skipBlock less rest
    | _, _ => skipBlock depth rest

/-- Passes over a statement, of which `depth` blocks are open: to behind its semicolon or its
balanced block, or to a brace that closes a block around it. -/
def skipStatement (depth : Nat) : List Token → List Token
  | [] => []
  | token :: rest =>
    match token.kind, depth with
    | .semicolon, 0 => rest
    | .openBrace, _ => skipStatement (depth + 1) rest
    | .closeBrace, 0 => token :: rest
    | .closeBrace, 1 => rest
    | .closeBrace, less + 2 => skipStatement (less + 1) rest
    | _, _ => skipStatement depth rest

/-- Passes over a statement that could not be read. A brace in front that closes nothing is a
statement of its own. Passing over something never goes back. -/
def recover : List Token → List Token
  | [] => []
  | token :: rest => if token.kind = .closeBrace then rest else skipStatement 0 (token :: rest)

/-- One token of a block, which is passed or closes it. -/
theorem skipBlock_cons (depth : Nat) (token : Token) (rest : List Token) :
    skipBlock depth (token :: rest) =
      match token.kind, depth with
      | .openBrace, _ => skipBlock (depth + 1) rest
      | .closeBrace, 0 => rest
      | .closeBrace, less + 1 => skipBlock less rest
      | _, _ => skipBlock depth rest :=
  rfl

/-- One token of a statement, which is passed or ends it. -/
theorem skipStatement_cons (depth : Nat) (token : Token) (rest : List Token) :
    skipStatement depth (token :: rest) =
      match token.kind, depth with
      | .semicolon, 0 => rest
      | .openBrace, _ => skipStatement (depth + 1) rest
      | .closeBrace, 0 => token :: rest
      | .closeBrace, 1 => rest
      | .closeBrace, less + 2 => skipStatement (less + 1) rest
      | _, _ => skipStatement depth rest :=
  rfl

theorem length_skipPastSemicolon_le (tokens : List Token) :
    (skipPastSemicolon tokens).length ≤ tokens.length - 1 := by
  induction tokens with
  | nil => simp [skipPastSemicolon]
  | cons token rest ih =>
    rw [skipPastSemicolon]
    split
    · simp
    · simp only [List.length_cons]; omega

theorem length_skipBlock_le (depth : Nat) (tokens : List Token) :
    (skipBlock depth tokens).length ≤ tokens.length := by
  fun_induction skipBlock depth tokens <;> simp only [List.length_cons, List.length_nil] <;> omega

theorem length_skipStatement_le (depth : Nat) (tokens : List Token) :
    (skipStatement depth tokens).length ≤ tokens.length := by
  fun_induction skipStatement depth tokens <;> simp only [List.length_cons, List.length_nil] <;>
    omega

theorem length_recover_lt (token : Token) (rest : List Token) :
    (recover (token :: rest)).length < (token :: rest).length := by
  rw [recover]
  split
  · simp
  · next other =>
    have deeper := length_skipStatement_le (0 + 1) rest
    have level := length_skipStatement_le 0 rest
    rw [skipStatement_cons]
    split
    · simp
    · simp only [List.length_cons]; omega
    · next close _ => exact absurd close other
    · simp
    · next close _ => exact absurd close other
    · simp only [List.length_cons]; omega

end Token

end StyleCascade
