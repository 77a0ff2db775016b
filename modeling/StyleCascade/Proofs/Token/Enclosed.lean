import Mathlib.Data.List.Infix
import Mathlib.Data.List.TakeWhile
import StyleCascade.Proofs.Token.Frame
import StyleCascade.Proofs.Token.Taken

namespace StyleCascade

namespace Token

/-- Tokens of a block that `brace` closes, in front of `after`. Inside, `depth` more blocks are
open. -/
inductive Enclosed (brace : Token) (after : List Token) : Nat → List Token → Prop
  | here (closes : brace.kind = .closeBrace) : Enclosed brace after 0 (brace :: after)
  | closing {depth : Nat} {token : Token} {rest : List Token} (closes : token.kind = .closeBrace)
      (behind : Enclosed brace after depth rest) : Enclosed brace after (depth + 1) (token :: rest)
  | opening {depth : Nat} {token : Token} {rest : List Token} (opens : token.kind = .openBrace)
      (behind : Enclosed brace after (depth + 1) rest) : Enclosed brace after depth (token :: rest)
  | other {depth : Nat} {token : Token} {rest : List Token} (noOpen : token.kind ≠ .openBrace)
      (noClose : token.kind ≠ .closeBrace) (behind : Enclosed brace after depth rest) :
      Enclosed brace after depth (token :: rest)

/-- Tokens of which the level falls to nowhere below the start, and ends at it. -/
structure Balanced (tokens : List Token) : Prop where
  inner : ∀ front, front <+: tokens → 0 ≤ level front
  whole : level tokens = 0

/-- Tokens with a semicolon, and no block begun and not ended, nor ended and not begun, in front of
the first one. -/
structure Terminated (tokens : List Token) : Prop where
  ends : ∃ token ∈ tokens, token.kind = .semicolon
  balanced : Balanced (tokens.takeWhile (fun token => token.kind ≠ .semicolon))

instance (tokens : List Token) : Decidable (Balanced tokens) :=
  decidable_of_iff ((∀ front ∈ tokens.inits, 0 ≤ level front) ∧ level tokens = 0)
    ⟨fun held =>
        ⟨fun front before => held.1 front ((List.mem_inits front tokens).mpr before), held.2⟩,
      fun held => ⟨fun front mem => held.inner front ((List.mem_inits front tokens).mp mem),
        held.whole⟩⟩

instance (tokens : List Token) : Decidable (Terminated tokens) :=
  decidable_of_iff ((∃ token ∈ tokens, token.kind = .semicolon) ∧
      Balanced (tokens.takeWhile (fun token => token.kind ≠ .semicolon)))
    ⟨fun held => ⟨held.1, held.2⟩, fun held => ⟨held.ends, held.balanced⟩⟩

section

variable {brace token : Token} {after tokens rest front : List Token} {depth : Nat}

theorem skipPastSemicolon_eq (tokens : List Token) :
    skipPastSemicolon tokens = (tokens.dropWhile (fun token => token.kind ≠ .semicolon)).tail := by
  induction tokens with
  | nil => rfl
  | cons token rest ih =>
    rw [skipPastSemicolon, List.dropWhile_cons]
    by_cases semicolon : token.kind = .semicolon
    · simp [semicolon]
    · simp [semicolon, ih]

theorem skipPastSemicolon_append {front : List Token}
    (noEnd : ∀ token ∈ front, token.kind ≠ .semicolon) (rest : List Token) :
    skipPastSemicolon (front ++ rest) = skipPastSemicolon rest := by
  induction front with
  | nil => rfl
  | cons token front ih =>
    obtain ⟨first, others⟩ := List.forall_mem_cons.mp noEnd
    rw [List.cons_append, skipPastSemicolon, if_neg first, ih others]

/-- The closing brace of a block is the first one with which more are closed than opened. -/
theorem enclosed_of_level {inside : List Token}
    (inner : ∀ front, front <+: inside → 0 ≤ depth + level front)
    (falls : depth + level (inside ++ [brace]) < 0) :
    Enclosed brace after depth (inside ++ brace :: after) := by
  induction inside generalizing depth with
  | nil =>
    rw [List.nil_append] at falls
    by_cases opens : brace.kind = .openBrace
    · rw [level_cons_open opens, level_nil] at falls
      omega
    by_cases closes : brace.kind = .closeBrace
    · rw [level_cons_close closes, level_nil] at falls
      have none : depth = 0 := by omega
      rw [none]
      exact .here closes
    · rw [level_cons_other opens closes, level_nil] at falls
      omega
  | cons token inside ih =>
    rw [List.cons_append] at falls ⊢
    by_cases opens : token.kind = .openBrace
    · rw [level_cons_open opens] at falls
      exact .opening opens (ih (levels_of_open opens inner) (by omega))
    by_cases closes : token.kind = .closeBrace
    · rw [level_cons_close closes] at falls
      obtain ⟨less, rfl, behind⟩ := levels_of_close closes inner
      exact .closing closes (ih behind (by omega))
    · rw [level_cons_other opens closes] at falls
      exact .other opens closes (ih (levels_of_other opens closes inner) falls)

namespace Enclosed

theorem closes (enclosed : Enclosed brace after depth tokens) : brace.kind = .closeBrace := by
  induction enclosed with
  | here closes => exact closes
  | closing _ _ ih => exact ih
  | opening _ _ ih => exact ih
  | other _ _ _ ih => exact ih

theorem ne_nil (enclosed : Enclosed brace after depth tokens) : tokens ≠ [] := by
  rintro rfl
  cases enclosed

theorem of_close_zero (enclosed : Enclosed brace after 0 (token :: rest))
    (close : token.kind = .closeBrace) : token :: rest = brace :: after := by
  cases enclosed with
  | here => rfl
  | opening opens => rw [close] at opens; cases opens
  | other _ noClose => exact absurd close noClose

theorem of_close (enclosed : Enclosed brace after (depth + 1) (token :: rest))
    (close : token.kind = .closeBrace) : Enclosed brace after depth rest := by
  cases enclosed with
  | closing _ behind => exact behind
  | opening opens => rw [close] at opens; cases opens
  | other _ noClose => exact absurd close noClose

theorem of_open (enclosed : Enclosed brace after depth (token :: rest))
    (opens : token.kind = .openBrace) : Enclosed brace after (depth + 1) rest := by
  cases enclosed with
  | here closes => rw [opens] at closes; cases closes
  | closing closes => rw [opens] at closes; cases closes
  | opening _ behind => exact behind
  | other noOpen => exact absurd opens noOpen

theorem of_other (enclosed : Enclosed brace after depth (token :: rest))
    (noOpen : token.kind ≠ .openBrace) (noClose : token.kind ≠ .closeBrace) :
    Enclosed brace after depth rest := by
  cases enclosed with
  | here closes => exact absurd closes noClose
  | closing closes => exact absurd closes noClose
  | opening opens => exact absurd opens noOpen
  | other _ _ behind => exact behind

theorem of_kind {kind : TokenKind} (enclosed : Enclosed brace after depth (token :: rest))
    (same : token.kind = kind) (plain : kind ≠ .openBrace ∧ kind ≠ .closeBrace) :
    Enclosed brace after depth rest :=
  enclosed.of_other (same ▸ plain.1) (same ▸ plain.2)

theorem of_braceless (enclosed : Enclosed brace after depth (front ++ rest))
    (plain : Braceless front) : Enclosed brace after depth rest := by
  induction front with
  | nil => exact enclosed
  | cons token front ih =>
    obtain ⟨⟨noOpen, noClose⟩, others⟩ := List.forall_mem_cons.mp plain
    exact ih (enclosed.of_other noOpen noClose) others

/-- Where the level never falls below the start, the block goes on behind with as many more open
blocks as the level tells. -/
theorem of_level {final : Nat} (enclosed : Enclosed brace after depth (front ++ rest))
    (inner : ∀ before, before <+: front → 0 ≤ depth + level before)
    (ends : depth + level front = final) : Enclosed brace after final rest := by
  induction front generalizing depth with
  | nil =>
    have same : depth = final := by rw [level_nil] at ends; omega
    rwa [← same]
  | cons token front ih =>
    by_cases opens : token.kind = .openBrace
    · rw [level_cons_open opens] at ends
      exact ih (enclosed.of_open opens) (levels_of_open opens inner) (by omega)
    by_cases close : token.kind = .closeBrace
    · rw [level_cons_close close] at ends
      obtain ⟨less, rfl, behind⟩ := levels_of_close close inner
      exact ih (enclosed.of_close close) behind (by omega)
    · rw [level_cons_other opens close] at ends
      exact ih (enclosed.of_other opens close) (levels_of_other opens close inner) ends

theorem of_balanced (enclosed : Enclosed brace after 0 (front ++ rest))
    (balanced : Balanced front) : Enclosed brace after 0 rest :=
  enclosed.of_level (fun before inside => by simpa using balanced.inner before inside)
    (by simpa using balanced.whole)

theorem skipPastSemicolon (enclosed : Enclosed brace after 0 tokens)
    (terminated : Terminated tokens) : Enclosed brace after 0 (Token.skipPastSemicolon tokens) := by
  obtain ⟨⟨token, mem, semicolon⟩, balanced⟩ := terminated
  rw [← List.takeWhile_append_dropWhile (p := fun token => token.kind ≠ .semicolon) (l := tokens)]
    at enclosed
  have behind := enclosed.of_balanced balanced
  rw [skipPastSemicolon_eq]
  cases shape : tokens.dropWhile (fun token => token.kind ≠ .semicolon) with
  | nil =>
    have others := List.dropWhile_eq_nil_iff.mp shape token mem
    exact absurd semicolon (by simpa using others)
  | cons first rest =>
    have stops := List.head?_dropWhile_not (fun token : Token => token.kind ≠ .semicolon) tokens
    rw [shape] at stops behind
    exact behind.of_kind (by simpa using stops) (by decide)

theorem skipSpace (enclosed : Enclosed brace after depth tokens) :
    Enclosed brace after depth (Token.skipSpace tokens) := by
  obtain ⟨gap, spaced, split⟩ := exists_spaces tokens
  rw [split] at enclosed
  exact enclosed.of_braceless spaced.braceless

/-- Passing over the rest of a block stops behind it. -/
theorem skipBlock (enclosed : Enclosed brace after (depth + 1) tokens) :
    Enclosed brace after 0 (Token.skipBlock depth tokens) := by
  induction tokens generalizing depth with
  | nil => exact absurd rfl enclosed.ne_nil
  | cons token rest ih =>
    by_cases opens : token.kind = .openBrace
    · rw [skipBlock_open opens]
      exact ih (enclosed.of_open opens)
    by_cases close : token.kind = .closeBrace
    · cases depth with
      | zero => rw [skipBlock_close_zero close]; exact enclosed.of_close close
      | succ depth => rw [skipBlock_close_succ close]; exact ih (enclosed.of_close close)
    · rw [skipBlock_other opens close]
      exact ih (enclosed.of_other opens close)

/-- Passing over a statement stops in the block that it stands in. -/
theorem skipStatement (enclosed : Enclosed brace after depth tokens) :
    Enclosed brace after 0 (Token.skipStatement depth tokens) := by
  induction tokens generalizing depth with
  | nil => exact absurd rfl enclosed.ne_nil
  | cons token rest ih =>
    by_cases opens : token.kind = .openBrace
    · rw [skipStatement_open opens]
      exact ih (enclosed.of_open opens)
    by_cases close : token.kind = .closeBrace
    · match depth with
      | 0 => rw [skipStatement_close_zero close]; exact enclosed
      | 1 => rw [skipStatement_close_one close]; exact enclosed.of_close close
      | depth + 2 => rw [skipStatement_close_succ close]; exact ih (enclosed.of_close close)
    by_cases mark : token.kind = .semicolon ∧ depth = 0
    · obtain ⟨semicolon, rfl⟩ := mark
      rw [skipStatement_semicolon semicolon]
      exact enclosed.of_other opens close
    · rw [skipStatement_other opens close mark]
      exact ih (enclosed.of_other opens close)

theorem recover (enclosed : Enclosed brace after 0 (token :: rest))
    (noClose : token.kind ≠ .closeBrace) :
    Enclosed brace after 0 (Token.recover (token :: rest)) := by
  rw [Token.recover, if_neg noClose]
  exact enclosed.skipStatement

end Enclosed

end

end Token

end StyleCascade
