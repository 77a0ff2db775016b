import StyleCascade.Declared.Declaration
import StyleCascade.Selector.Basic
import StyleCascade.Token.Reader

namespace StyleCascade

/-- A statement of a style sheet, as far as it has an effect or a fault. Statements inside a media
block that applies stand beside the others. -/
inductive Statement
  /-- Selectors with the declarations of one block. -/
  | ruleset (selectors : List (Selector × Specificity)) (declarations : List Declaration)
  /-- The address of another sheet. -/
  | link (url : String)
  /-- A block for media that do not apply. -/
  | skippedMedia (media : List String)
  /-- A statement that could not be read, with the declarations read before the fault. -/
  | fault (declarations : List Declaration) (offset : Nat) (cause : SyntaxFault)
  deriving DecidableEq, Repr

namespace Statement

/-- The declarations that were read, even if they have no effect. -/
def declarations : Statement → List Declaration
  | .ruleset _ declarations => declarations
  | .fault declarations _ _ => declarations
  | _ => []

/-- A statement that could not be read. -/
def isFault : Statement → Bool
  | .fault .. => true
  | _ => false

/-- The address of another sheet, if the statement names one. -/
def link? : Statement → Option String
  | .link url => some url
  | _ => none

/-- The number of rules that a statement adds: for each selector one with the normal declarations
and one with the important ones, unless there are none. -/
def ruleCount : Statement → Nat
  | .ruleset selectors declarations =>
    let sets := DeclaredSets.ofList declarations
    (if sets.normal.isEmpty then 0 else selectors.length) +
      (if sets.important.isEmpty then 0 else selectors.length)
  | _ => 0

end Statement

/-- A style sheet that is read: its statements, and how many lexemes were no tokens. -/
structure SheetText where
  statements : List Statement
  invalid : Nat
  deriving DecidableEq, Repr

/-- What reading a style sheet came to. -/
structure SheetCounts where
  rules : Nat
  syntaxFaults : Nat
  invalid : Nat
  links : Nat
  deriving DecidableEq, Repr

/-- The counts of a style sheet. -/
def SheetText.counts (sheet : SheetText) : SheetCounts :=
  { rules := sheet.statements.foldl (fun total statement => total + statement.ruleCount) 0
    syntaxFaults := sheet.statements.countP Statement.isFault
    invalid := sheet.invalid
    links := (sheet.statements.filterMap Statement.link?).length }

end StyleCascade
