import StyleCascade.Declared.Reader

namespace StyleCascade

/-- Reads declarations to the end, run by run; each run but the last stops at a fault. -/
def DeclarationRun.readAll (source : List UInt8) (tokens : List Token) : List DeclarationRun :=
  match tokens with
  | [] => []
  | token :: rest =>
    let run := read source none (token :: rest)
    match run.stop with
    | none => [run]
    | some _ => run :: readAll source (Token.skipPastSemicolon run.rest)
  termination_by tokens.length
  decreasing_by
    have behind := length_read_le source none (token :: rest)
    have past := Token.length_skipPastSemicolon_le (read source none (token :: rest)).rest
    simp only [List.length_cons] at *
    omega

/-- What an inline style declares, and how many faults it has. -/
structure InlineStyle where
  sets : DeclaredSets
  faults : Nat

namespace InlineStyle

/-- The inline style of runs of declarations. -/
def ofRuns (runs : List DeclarationRun) : InlineStyle :=
  { sets := DeclaredSets.ofList (runs.flatMap DeclarationRun.declarations)
    faults := runs.countP (fun run => run.stop.isSome) }

/-- Reads an inline style: declarations without a block around them. A fault costs the declarations
up to the next semicolon, and reading goes on behind it. -/
def read (source : List UInt8) : InlineStyle :=
  ofRuns (DeclarationRun.readAll source (tokensOf source))

/-- The property sets that are not empty, the important one first; it is marked as such. -/
def entries (style : InlineStyle) : List (Bool × PropertySet) :=
  [(true, style.sets.important), (false, style.sets.normal)].filter (fun entry => !entry.2.isEmpty)

end InlineStyle

end StyleCascade
