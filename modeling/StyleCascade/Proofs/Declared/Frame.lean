import Mathlib.Data.List.Forall2
import StyleCascade.Declared.Reader
import StyleCascade.Proofs.Token.Frame
import StyleCascade.Proofs.Token.Taken

namespace StyleCascade

namespace Declaration

/-- The tokens of a value are among those it is taken from. -/
theorem mem_of_takeValue {tokens rest value : List Token} {important : Bool} {token : Token}
    (read : takeValue tokens = .ok ((value, important), rest)) (mem : token ∈ value) :
    token ∈ tokens := by
  induction tokens generalizing value with
  | nil => cases read; cases mem
  | cons first more ih =>
    rw [takeValue] at read
    split at read
    · cases read; cases mem
    split at read
    · simp only at read
      split at read <;> cases read
      cases mem
    split at read
    · cases read
    · obtain ⟨_, taken, same⟩ := Reading.map_eq_ok.mp read
      cases same
      obtain rfl | mem := List.mem_cons.mp mem
      · exact List.mem_cons_self
      · exact List.mem_cons_of_mem first (ih taken mem)

/-- The tokens of the value, if a declaration stands in front. -/
def valueTokens? : List Token → Option (List Token)
  | [] => none
  | word :: behind =>
    match Token.skipSpace behind with
    | [] => none
    | colon :: middle =>
      if word.kind = .ident ∧ colon.kind = .colon then
        match takeValue (Token.skipSpace middle) with
        | .ok ((value, _), _) => some value
        | .error _ => none
      else none

/-- The value of a declaration is what stands between its colon and its end, with the space around
it taken away. -/
theorem valueTokens?_eq_some {start value : List Token} (cut : valueTokens? start = some value) :
    ∃ word behind colon middle important rest, start = word :: behind ∧
      Token.skipSpace behind = colon :: middle ∧
      takeValue (Token.skipSpace middle) = .ok ((value, important), rest) := by
  cases start with
  | nil => cases cut
  | cons word behind =>
    rw [valueTokens?] at cut
    split at cut
    · cases cut
    next colon middle shape =>
    split at cut
    · split at cut
      · next important rest read =>
        cases cut
        exact ⟨word, behind, colon, middle, important, rest, rfl, shape, read⟩
      · cases cut
    · cases cut

theorem mem_of_valueTokens? {start value : List Token} {token : Token}
    (cut : valueTokens? start = some value) (mem : token ∈ value) : token ∈ start := by
  obtain ⟨word, behind, colon, middle, important, rest, rfl, shape, read⟩ :=
    valueTokens?_eq_some cut
  have inMiddle : token ∈ middle :=
    (List.dropWhile_suffix _).subset (mem_of_takeValue read mem)
  have inBehind : token ∈ Token.skipSpace behind := by
    rw [shape]
    exact List.mem_cons_of_mem colon inMiddle
  exact List.mem_cons_of_mem word ((List.dropWhile_suffix _).subset inBehind)

/-- A value begins where its tokens do. -/
theorem head?_of_takeValue {tokens value rest : List Token} {important : Bool} {first : Token}
    (read : takeValue tokens = .ok ((value, important), rest)) (head : value.head? = some first) :
    tokens.head? = some first := by
  cases tokens with
  | nil => cases read; cases head
  | cons token more =>
    rw [takeValue] at read
    split at read
    · cases read; cases head
    split at read
    · simp only at read
      split at read <;> cases read
      cases head
    split at read
    · cases read
    · obtain ⟨_, _, same⟩ := Reading.map_eq_ok.mp read
      cases same
      exact head

/-- A value does not begin with white space. -/
theorem head_solid {start value : List Token} {first : Token}
    (cut : valueTokens? start = some value) (head : value.head? = some first) :
    first.kind ≠ .space := by
  obtain ⟨word, behind, colon, middle, important, rest, -, -, read⟩ := valueTokens?_eq_some cut
  have solid := List.head?_dropWhile_not (fun token : Token => decide (token.kind = .space)) middle
  have front : (middle.dropWhile fun token => decide (token.kind = .space)).head? = some first :=
    head?_of_takeValue read head
  rw [front] at solid
  simpa using solid

/-- Two declarations of one name, with one importance, and with values that compare. -/
structure Alike (alike : String → String → Prop) (one other : Declaration) : Prop where
  name : other.name = one.name
  value : alike one.value other.value
  important : other.important = one.important

theorem Alike.eq {one other : Declaration} (alike : Alike Eq one other) : one = other := by
  cases one
  cases other
  rw [Declaration.mk.injEq]
  exact ⟨alike.name.symm, alike.value, alike.important.symm⟩

end Declaration

namespace DeclarationRun

/-- How a run goes on at a token. -/
theorem read_of_front {source : List UInt8} {closing : Option TokenKind} {token : Token}
    {tokens rest : List Token} (front : Token.skipSpace tokens = token :: rest) :
    read source closing tokens =
      if closing = some token.kind then ⟨[], none, token :: rest⟩
      else if token.kind = .semicolon then read source closing rest
      else if token.kind = .ident then
        match Declaration.take source (token :: rest) with
        | .ok (declaration, behind) => (read source closing behind).after declaration
        | .error halt => ⟨[], some halt.fault, halt.rest⟩
      else ⟨[], some .expectedPropertyName, token :: rest⟩ := by
  rw [read]
  split
  · next empty => rw [front] at empty; cases empty
  · next same =>
    rw [front] at same; cases same
    by_cases ident : token.kind = .ident
    · cases taken : Declaration.take source (token :: rest) <;> simp only [ident, if_true]
    · simp only [if_neg ident]

theorem read_of_end {source : List UInt8} {closing : Option TokenKind} {tokens : List Token}
    (empty : Token.skipSpace tokens = []) : read source closing tokens = ⟨[], none, []⟩ := by
  rw [read]
  split
  · rfl
  · next front => rw [empty] at front; cases front

end DeclarationRun

namespace Frame

/-- The texts of values in another source compare with those in the source. -/
def Texts (frame : Frame) (near far : List UInt8) (alike : String → String → Prop) : Prop :=
  ∀ start value, start <:+ frame.tokens → Declaration.valueTokens? start = some value →
    alike (Declaration.valueText near value) (Declaration.valueText far (value.map frame.move))

variable {frame : Frame} {near far : List UInt8} {alike : String → String → Prop} {depth : Nat}
  {tokens : List Token}

namespace Sealed

theorem endsValue (sealed : frame.Sealed depth tokens) :
    Declaration.endsValue (frame.extend tokens) = Declaration.endsValue tokens := by
  cases tokens with
  | nil => rw [sealed.extend_nil]
  | cons token rest => simp only [extend_cons, Declaration.endsValue, frame.kind_move]

/-- A value is taken with its tokens at their places. -/
theorem takeValue (sealed : frame.Sealed depth tokens) :
    frame.Same depth (Prod.map (List.map frame.move) id)
      (Declaration.takeValue tokens) (Declaration.takeValue (frame.extend tokens)) := by
  induction tokens with
  | nil =>
    rw [sealed.extend_nil, Declaration.takeValue]
    exact ⟨congrArg (fun rest => Except.ok (([], false), rest)) sealed.extend_nil.symm, sealed⟩
  | cons token rest ih =>
    have ends := sealed.endsValue
    rw [extend_cons] at ends ⊢
    rw [Declaration.takeValue, Declaration.takeValue, ends, frame.kind_move]
    split
    · exact Same.ok sealed
    next inner =>
    have noClose : token.kind ≠ .closeBrace := by
      intro brace
      simp [Declaration.endsValue, brace] at inner
    split
    · next mark =>
      obtain ⟨spaced, behind⟩ := (sealed.of_kind mark (by decide)).skipSpace
      rw [spaced]
      simp only [behind.endsValue]
      split
      · exact Same.ok behind
      · exact Same.error rfl
    split
    · exact Same.error rfl
    · next noOpen =>
      exact (ih (sealed.of_other noOpen noClose)).map (fun _ _ => ⟨rfl, rfl⟩)

end Sealed

/-- Reading a declaration: the same one up to its value, with the tokens behind it extended, or a
halt with the same fault. -/
def SameDeclaration (frame : Frame) (depth : Nat) (alike : String → String → Prop)
    (one other : Except Halt (Declaration × List Token)) : Prop :=
  match one with
  | .ok (declaration, rest) =>
    ∃ moved, other = .ok (moved, frame.extend rest) ∧ declaration.Alike alike moved ∧
      frame.Sealed depth rest
  | .error halt => ∃ stop, other = .error stop ∧ stop.fault = halt.fault

/-- Reading one declaration does not see what stands behind the closing brace of its block. -/
theorem Sealed.takeDeclaration (texts : frame.Texts near far alike)
    (sealed : frame.Sealed depth tokens) :
    frame.SameDeclaration depth alike (Declaration.take near tokens)
      (Declaration.take far (frame.extend tokens)) := by
  have stopped : ∀ halt stop : Halt, stop.fault = halt.fault →
      frame.SameDeclaration depth alike (.error halt) (.error stop) :=
    fun _ stop fault => ⟨stop, rfl, fault⟩
  refine sealed.takeWord.bind_cases stopped (fun name behind word after => ?_)
  obtain ⟨token, rfl, ident, -⟩ := Token.takeWord_ok word
  obtain ⟨spaced, next⟩ := after.skipSpace
  simp only [spaced, id_eq]
  refine (next.expect _ _ (by decide)).bind_cases stopped (fun colon middle mark after => ?_)
  obtain ⟨colonNext, colonKind⟩ := Token.expect_ok mark
  obtain ⟨spaced, start⟩ := after.skipSpace
  simp only [spaced]
  refine start.takeValue.bind_cases stopped (fun value rest read last => ?_)
  obtain ⟨value, important⟩ := value
  have cut : Declaration.valueTokens? (token :: behind) = some value := by
    simp only [Declaration.valueTokens?, colonNext, if_pos (And.intro ident colonKind), read]
  simp only [Prod.map, List.map_eq_nil_iff, id_eq]
  split
  · exact stopped _ _ rfl
  · exact ⟨_, rfl, ⟨rfl, texts _ _ sealed.inside cut, rfl⟩, last⟩

/-- A run in another source: declarations that compare and the same fault, if there is one; without
a fault both end before the brace that closes their block. -/
structure SameRun (frame : Frame) (depth : Nat) (alike : String → String → Prop)
    (one other : DeclarationRun) : Prop where
  declarations : List.Forall₂ (Declaration.Alike alike) one.declarations other.declarations
  stop : other.stop = one.stop
  rest : one.stop = none → other.rest = frame.extend one.rest ∧ frame.Sealed depth one.rest
  closes : one.stop = none →
    ∀ token behind, one.rest = token :: behind → token.kind = .closeBrace

/-- A run of declarations ends alike at the brace that closes it. -/
theorem Sealed.readRun (texts : frame.Texts near far alike) (sealed : frame.Sealed depth tokens) :
    frame.SameRun depth alike (DeclarationRun.read near (some .closeBrace) tokens)
      (DeclarationRun.read far (some .closeBrace) (frame.extend tokens)) := by
  fun_induction DeclarationRun.read near (some .closeBrace) tokens with
  | case1 tokens empty =>
    obtain ⟨spaced, start⟩ := sealed.skipSpace_nil empty
    rw [DeclarationRun.read_of_end spaced]
    exact ⟨.nil, rfl, fun _ => ⟨start.extend_nil.symm, start⟩, fun _ _ _ more => by cases more⟩
  | case2 tokens token rest front closing =>
    obtain ⟨spaced, start⟩ := sealed.skipSpace_cons front
    rw [DeclarationRun.read_of_front spaced, frame.kind_move, if_pos closing]
    refine ⟨.nil, rfl, fun _ => ⟨rfl, start⟩, fun _ _ _ same => ?_⟩
    obtain ⟨rfl, -⟩ := List.cons.inj same
    exact (Option.some.inj closing).symm
  | case3 tokens token rest front noClose semicolon ih =>
    obtain ⟨spaced, start⟩ := sealed.skipSpace_cons front
    rw [DeclarationRun.read_of_front spaced, frame.kind_move, if_neg noClose, if_pos semicolon]
    exact ih (start.of_kind semicolon (by decide))
  | case4 tokens token rest front noClose noSemicolon ident declaration behind taken ih =>
    obtain ⟨spaced, start⟩ := sealed.skipSpace_cons front
    have same := start.takeDeclaration texts
    rw [taken] at same
    obtain ⟨moved, taken', like, after⟩ := same
    rw [extend_cons] at taken'
    rw [DeclarationRun.read_of_front spaced, frame.kind_move, if_neg noClose, if_neg noSemicolon,
      if_pos ident, taken']
    have run := ih after
    exact ⟨.cons like run.declarations, run.stop, run.rest, run.closes⟩
  | case5 tokens token rest front noClose noSemicolon ident halt taken =>
    obtain ⟨spaced, start⟩ := sealed.skipSpace_cons front
    have same := start.takeDeclaration texts
    rw [taken] at same
    obtain ⟨stop, taken', fault⟩ := same
    rw [extend_cons] at taken'
    rw [DeclarationRun.read_of_front spaced, frame.kind_move, if_neg noClose, if_neg noSemicolon,
      if_pos ident, taken']
    refine ⟨.nil, congrArg some fault, ?_, ?_⟩ <;> (intro none; cases none)
  | case6 tokens token rest front noClose noSemicolon noIdent =>
    obtain ⟨spaced, start⟩ := sealed.skipSpace_cons front
    rw [DeclarationRun.read_of_front spaced, frame.kind_move, if_neg noClose, if_neg noSemicolon,
      if_neg noIdent]
    refine ⟨.nil, rfl, ?_, ?_⟩ <;> (intro none; cases none)

/-- The text of a value stands between two of its tokens. -/
theorem valueText_of_pieces (frame : Frame) (alike : String → String → Prop) {value : List Token}
    (empty : alike "" "")
    (pieces : ∀ first last, value.head? = some first → last ∈ value → last.kind ≠ .space →
      alike (Utf8.text ((near.take last.stop).drop first.offset))
        (Utf8.text ((far.take (frame.move last).stop).drop (frame.move first).offset))) :
    alike (Declaration.valueText near value)
      (Declaration.valueText far (value.map frame.move)) := by
  have solid : (value.map frame.move).filter (fun token => token.kind ≠ .space) =
      (value.filter (fun token => token.kind ≠ .space)).map frame.move := by
    rw [List.filter_map]
    simp only [Function.comp_def, frame.kind_move]
  unfold Declaration.valueText
  rw [solid, List.getLast?_map]
  cases value with
  | nil => exact empty
  | cons first more =>
    cases found : ((first :: more).filter (fun token => token.kind ≠ .space)).getLast? with
    | none => exact empty
    | some last =>
      obtain ⟨mem, kind⟩ := List.mem_filter.mp (List.mem_of_getLast? found)
      exact pieces first last rfl mem (by simpa using kind)

/-- A source with other bytes in front of it, and with more tokens behind it. -/
def within (front : List UInt8) (tokens tail : List Token) : Frame where
  tokens := tokens
  move := Token.shift front.length
  tail := tail
  kind_move := fun _ => rfl
  text_move := fun _ _ => rfl

/-- The text of a value is the same piece of bytes in a longer source. -/
theorem texts_within (front back : List UInt8) {source : List UInt8} {tokens tail : List Token}
    (inside : ∀ token ∈ tokens, token.stop ≤ source.length) :
    (within front tokens tail).Texts source (front ++ source ++ back) Eq := by
  intro start value behind cut
  refine valueText_of_pieces _ Eq rfl fun first last _ mem _ => ?_
  have reach := inside last (behind.subset (Declaration.mem_of_valueTokens? cut mem))
  have stop : (Token.shift front.length last).stop = front.length + last.stop :=
    Token.shift_stop front.length last
  simp only [within, stop, Token.shift_offset]
  rw [List.append_assoc, List.take_length_add_append, List.drop_length_add_append,
    List.take_append_of_le_length reach]

end Frame

end StyleCascade
