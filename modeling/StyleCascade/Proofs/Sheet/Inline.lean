import StyleCascade.Proofs.Declared.PropertySet
import StyleCascade.Proofs.Declared.Stop
import StyleCascade.Proofs.Sheet.Frame
import StyleCascade.Sheet.Inline

namespace StyleCascade

namespace Token

theorem map_shift_zero (tokens : List Token) : tokens.map (shift 0) = tokens := by
  have same : shift 0 = id := by
    funext token
    rw [shift, Nat.zero_add]
    rfl
  rw [same, List.map_id]

/-- The next semicolon stands in the source or behind it. -/
theorem skipPastSemicolon_extend_cases (frame : Frame) (tokens : List Token) :
    skipPastSemicolon (frame.extend tokens) = frame.extend (skipPastSemicolon tokens) ∨
      skipPastSemicolon tokens = [] ∧
        skipPastSemicolon (frame.extend tokens) = skipPastSemicolon frame.tail := by
  induction tokens with
  | nil => exact Or.inr ⟨rfl, rfl⟩
  | cons token rest ih =>
    rw [Frame.extend_cons, skipPastSemicolon, skipPastSemicolon, frame.kind_move]
    split
    · exact Or.inl rfl
    · exact ih

end Token

theorem Frame.stopped_of_semicolon {frame : Frame}
    (parted : ∀ mark ∈ frame.tail.head?, mark.kind = .semicolon) : frame.Stopped := by
  rw [Frame.Stopped]
  cases head : frame.tail with
  | nil => rfl
  | cons mark later =>
    rw [head] at parted
    simp [Declaration.endsValue, parted mark rfl]

namespace DeclarationRun

/-- The number of runs that stop at a fault. -/
def faultCount (runs : List DeclarationRun) : Nat :=
  runs.countP (fun run => run.stop.isSome)

theorem faultCount_cons (run : DeclarationRun) (runs : List DeclarationRun) :
    faultCount (run :: runs) = run.stop.toList.length + faultCount runs := by
  rw [faultCount, List.countP_cons, ← faultCount, Nat.add_comm]
  cases run.stop <;> rfl

/-- Runs with the declarations of two lists of runs in a row, and with as many faults as these have
together. -/
structure Joins (whole one other : List DeclarationRun) : Prop where
  declarations :
    whole.flatMap declarations = one.flatMap declarations ++ other.flatMap declarations
  faults : faultCount whole = faultCount one + faultCount other

theorem Joins.cons {whole one other : List DeclarationRun} (joins : Joins whole one other)
    (run : DeclarationRun) : Joins (run :: whole) (run :: one) other := by
  constructor
  · rw [List.flatMap_cons, List.flatMap_cons, joins.declarations, List.append_assoc]
  · rw [faultCount_cons, faultCount_cons, joins.faults, Nat.add_assoc]

theorem Joins.nil (runs : List DeclarationRun) : Joins runs [] runs :=
  ⟨rfl, (Nat.zero_add _).symm⟩

/-- The runs behind the fault of a run. -/
def afterFault (source : List UInt8) (run : DeclarationRun) : List DeclarationRun :=
  match run.stop with
  | none => []
  | some _ => readAll source (Token.skipPastSemicolon run.rest)

/-- Nothing is declared between two places from which the same run is read. -/
theorem readAll_joins (source : List UInt8) (tokens : List Token) :
    Joins (readAll source tokens) [read source none tokens]
      (afterFault source (read source none tokens)) := by
  cases tokens with
  | nil =>
    rw [readAll, read_nil]
    exact ⟨rfl, rfl⟩
  | cons token rest =>
    rw [readAll, afterFault]
    cases stop : (read source none (token :: rest)).stop with
    | none => exact (Joins.nil []).cons _
    | some fault => exact (Joins.nil _).cons _

/-- Two joins one after the other are a join. -/
theorem Joins.of_parts {whole one other first behind last : List DeclarationRun}
    (joins : Joins whole first last) (near : Joins one first behind)
    (rest : Joins last behind other) : Joins whole one other := by
  constructor
  · rw [joins.declarations, near.declarations, rest.declarations, List.append_assoc]
  · have total := joins.faults
    have front := near.faults
    have back := rest.faults
    omega

/-- Nothing stands between the end of a source and what is read behind its semicolon. -/
theorem readAll_past_semicolon (source : List UInt8) {tail : List Token}
    (parted : ∀ mark ∈ tail.head?, mark.kind = .semicolon) :
    Joins (readAll source tail) [] (readAll source (Token.skipPastSemicolon tail)) := by
  cases tail with
  | nil => exact .nil _
  | cons mark later =>
    have semicolon := parted mark rfl
    have solid : mark.kind ≠ .space := by rw [semicolon]; decide
    have front : Token.skipSpace (mark :: later) = mark :: later := by
      simp [Token.skipSpace, solid]
    have same : read source none (mark :: later) = read source none later := by
      rw [read_of_front front, if_neg (by simp), if_pos semicolon]
    have whole := readAll_joins source (mark :: later)
    have behind := readAll_joins source later
    rw [same] at whole
    rw [Token.skipPastSemicolon, if_pos semicolon]
    constructor
    · rw [whole.declarations, behind.declarations]
      rfl
    · rw [whole.faults, behind.faults]
      exact (Nat.zero_add _).symm

section

variable {frame : Frame} {near far : List UInt8} {tokens : List Token} {run next : DeclarationRun}
  {whole others : List DeclarationRun}

/-- A run that comes to the end of its source goes over into the first one behind it. -/
theorem Joins.of_ends (ends : run.stop = none)
    (front : Joins whole [run.followed frame next] (afterFault far (run.followed frame next)))
    (behind : Joins others [next] (afterFault far next)) : Joins whole [run] others := by
  have merged : run.followed frame next =
      { next with declarations := run.declarations ++ next.declarations } := by
    rw [followed, ends]
  rw [merged] at front
  constructor
  · rw [front.declarations, behind.declarations]
    simp only [List.flatMap_singleton, List.append_assoc]
    rfl
  · rw [front.faults, behind.faults, faultCount_cons, faultCount_cons, faultCount_cons, ends]
    exact (Nat.zero_add _).symm

/-- A run that stops at a fault does so whatever is behind its source. -/
theorem Joins.of_fault {fault : SyntaxFault} (stop : run.stop = some fault)
    (front : Joins whole [run.followed frame next] (afterFault far (run.followed frame next))) :
    Joins whole [run] (readAll far (Token.skipPastSemicolon (frame.extend run.rest))) := by
  have stopped : run.followed frame next =
      ⟨run.declarations, some fault, frame.extend run.rest⟩ := by
    rw [followed, stop]
  rw [stopped] at front
  refine ⟨front.declarations, front.faults.trans ?_⟩
  rw [faultCount_cons, faultCount_cons, stop]
  rfl

/-- The runs of a source in front of a semicolon, and those behind it. -/
theorem readAll_extend (texts : frame.Texts near far Eq)
    (parted : ∀ mark ∈ frame.tail.head?, mark.kind = .semicolon)
    (inside : tokens <:+ frame.tokens) :
    Joins (readAll far (frame.extend tokens)) (readAll near tokens)
      (readAll far (Token.skipPastSemicolon frame.tail)) := by
  have stopped := frame.stopped_of_semicolon parted
  have past := readAll_past_semicolon far parted
  induction size : tokens.length using Nat.strong_induction_on generalizing tokens with
  | _ _ ih =>
  subst size
  let run := read near none tokens
  have whole := readAll_joins far (frame.extend tokens)
  rw [read_extend stopped texts inside (fun _ _ same => by cases same)] at whole
  have front := readAll_joins near tokens
  cases stop : run.stop with
  | none =>
    have joined := whole.of_ends stop (readAll_joins far frame.tail)
    rw [show afterFault near run = [] by rw [afterFault, stop]] at front
    exact joined.of_parts front past
  | some fault =>
    rw [show afterFault near run = readAll near (Token.skipPastSemicolon run.rest) by
      rw [afterFault, stop]] at front
    refine (whole.of_fault stop).of_parts front ?_
    have skipped := Token.length_skipPastSemicolon_le run.rest
    have less : run.rest.length ≤ tokens.length := length_read_le near none tokens
    have filled : 0 < tokens.length := by
      rw [List.length_pos_iff]
      rintro rfl
      rw [show run = ⟨[], none, []⟩ from read_nil near none] at stop
      cases stop
    obtain within | ⟨done, later⟩ := Token.skipPastSemicolon_extend_cases frame run.rest
    · have suffix := (Token.skipPastSemicolon_suffix run.rest).trans
        (rest_read_suffix near none tokens)
      rw [within]
      exact ih _ (by omega) (suffix.trans inside) rfl
    · rw [done, later, readAll]
      exact .nil _

end

end DeclarationRun

namespace DeclaredSets

/-- The sets of some declarations over those of others. -/
structure Layered (sets upper base : DeclaredSets) : Prop where
  normal : PropertySet.Layered sets.normal upper.normal base.normal
  important : PropertySet.Layered sets.important upper.important base.important

namespace Layered

variable {sets upper base : DeclaredSets}

theorem declare (layered : Layered sets upper base) (declaration : Declaration) :
    Layered (sets.declare declaration) (upper.declare declaration) base := by
  rw [DeclaredSets.declare, DeclaredSets.declare]
  split
  · exact layered
  · next longhands _ =>
    split
    · exact ⟨layered.normal, layered.important.insertAll longhands⟩
    · exact ⟨layered.normal.insertAll longhands, layered.important⟩

/-- A layer keeps its place under any number of declarations. -/
theorem declareAll (layered : Layered sets upper base) (declarations : List Declaration) :
    Layered (declarations.foldl DeclaredSets.declare sets)
      (declarations.foldl DeclaredSets.declare upper) base := by
  induction declarations generalizing sets upper with
  | nil => exact layered
  | cons declaration rest ih => exact ih (layered.declare declaration)

end Layered

theorem layered_empty (declarations : List Declaration) :
    Layered (ofList declarations) (ofList declarations) empty :=
  Layered.declareAll ⟨.empty PropertySet.sound_empty, .empty PropertySet.sound_empty⟩ declarations

/-- Later declarations lie over earlier ones. -/
theorem layered_append (first second : List Declaration) :
    Layered (ofList (first ++ second)) (ofList second) (ofList first) := by
  have sound := layered_empty first
  rw [ofList, List.foldl_append]
  exact Layered.declareAll ⟨.empty sound.normal.sound, .empty sound.important.sound⟩ second

end DeclaredSets

namespace InlineStyle

/-- Where a semicolon stands as a token, the runs are those in front of it and those behind it. -/
theorem readAll_append_semicolon {first : List UInt8}
    (last : (tokensOf (first ++ [Ascii.byte ';'])).getLast? =
      some ⟨.semicolon, first.length, [Ascii.byte ';']⟩) (second : List UInt8) :
    DeclarationRun.Joins
      (DeclarationRun.readAll (first ++ Ascii.byte ';' :: second)
        (tokensOf (first ++ Ascii.byte ';' :: second)))
      (DeclarationRun.readAll first (tokensOf first))
      (DeclarationRun.readAll second (tokensOf second)) := by
  let whole := first ++ Ascii.byte ';' :: second
  let mark : Token := ⟨.semicolon, first.length, [Ascii.byte ';']⟩
  let later := (tokensOf second).map (Token.shift (first.length + 1))
  have parts : tokensOf whole = tokensOf first ++ mark :: later :=
    tokensOf_append_mark Scan.mark_semicolon last second
  have joinsFront : DeclarationRun.Joins (DeclarationRun.readAll whole (tokensOf whole))
      (DeclarationRun.readAll first (tokensOf first)) (DeclarationRun.readAll whole later) := by
    let frame := Frame.within [] (tokensOf first) (mark :: later)
    have texts : frame.Texts first whole Eq :=
      Frame.texts_within [] (Ascii.byte ';' :: second) (fun _ mem => stop_le_of_mem_tokensOf mem)
    have placed : frame.extend (tokensOf first) = tokensOf whole := by
      rw [parts]
      exact congrArg (· ++ mark :: later) (Token.map_shift_zero (tokensOf first))
    have inside : tokensOf first <:+ frame.tokens := List.suffix_refl _
    have joins := DeclarationRun.readAll_extend texts (fun _ head => by cases head; rfl) inside
    rwa [placed] at joins
  have joinsBack : DeclarationRun.Joins (DeclarationRun.readAll whole later)
      (DeclarationRun.readAll second (tokensOf second)) [] := by
    let frame := Frame.within (first ++ [Ascii.byte ';']) (tokensOf second) []
    have texts : frame.Texts second whole Eq := by
      have same : first ++ [Ascii.byte ';'] ++ second ++ [] = whole := by
        rw [List.append_nil, List.append_assoc]
        rfl
      rw [← same]
      exact Frame.texts_within _ [] (fun _ mem => stop_le_of_mem_tokensOf mem)
    have placed : frame.extend (tokensOf second) = later := by
      have size : (first ++ [Ascii.byte ';']).length = first.length + 1 := by simp
      rw [Frame.extend]
      simp only [frame, Frame.within, size, List.append_nil, later]
    have inside : tokensOf second <:+ frame.tokens := List.suffix_refl _
    have joins := DeclarationRun.readAll_extend texts (fun _ head => by cases head) inside
    have none : DeclarationRun.readAll whole (Token.skipPastSemicolon frame.tail) = [] :=
      DeclarationRun.readAll.eq_1 whole
    rwa [placed, none] at joins
  constructor
  · rw [joinsFront.declarations, joinsBack.declarations]
    simp
  · rw [joinsFront.faults, joinsBack.faults]
    rfl

/-- An inline style with a semicolon between two parts has the faults of both, and what the second
part declares lies over what the first part declares. -/
theorem read_append_semicolon (first second : List UInt8)
    (last : (tokensOf (first ++ [Ascii.byte ';'])).getLast? =
      some ⟨.semicolon, first.length, [Ascii.byte ';']⟩) :
    (read (first ++ [Ascii.byte ';'] ++ second)).faults =
        (read first).faults + (read second).faults ∧
      ∀ property,
        (read (first ++ [Ascii.byte ';'] ++ second)).sets.normal.get? property =
            ((read second).sets.normal.get? property).or
              ((read first).sets.normal.get? property) ∧
          (read (first ++ [Ascii.byte ';'] ++ second)).sets.important.get? property =
            ((read second).sets.important.get? property).or
              ((read first).sets.important.get? property) := by
  have joins := readAll_append_semicolon last second
  rw [List.append_assoc, List.singleton_append]
  refine ⟨joins.faults, fun property => ?_⟩
  let declared (source : List UInt8) : List Declaration :=
    (DeclarationRun.readAll source (tokensOf source)).flatMap DeclarationRun.declarations
  have layered := DeclaredSets.layered_append (declared first) (declared second)
  rw [← joins.declarations] at layered
  exact ⟨layered.normal.get?_eq property, layered.important.get?_eq property⟩

/-- Both parts have faults, and the one at the end of the first part does not go over its
semicolon. The second part gives the color again, and leaves what floats as it is. -/
theorem read_append_semicolon_two_faults :
    let first := Ascii.bytes "color: red; float: left; width 3px"
    let second := Ascii.bytes "color: blue; margin-top: \x7b"
    let whole := first ++ [Ascii.byte ';'] ++ second
    (tokensOf (first ++ [Ascii.byte ';'])).getLast? =
        some ⟨.semicolon, first.length, [Ascii.byte ';']⟩ ∧
      (read whole).faults = (read first).faults + (read second).faults ∧
      (read first).faults = 1 ∧ (read second).faults = 1 ∧
      ((read whole).sets.normal.get? .color).bind Value.word? = some "blue" ∧
      ((read whole).sets.normal.get? .float).bind Value.word? = some "left" := by
  intro first second whole
  have last : (tokensOf (first ++ [Ascii.byte ';'])).getLast? =
      some ⟨.semicolon, first.length, [Ascii.byte ';']⟩ := by decide +kernel
  obtain ⟨faults, merged⟩ := read_append_semicolon first second last
  refine ⟨last, faults, by decide +kernel, by decide +kernel, ?_, ?_⟩
  · rw [(merged .color).1]
    decide +kernel
  · rw [(merged .float).1]
    decide +kernel

end InlineStyle

end StyleCascade
