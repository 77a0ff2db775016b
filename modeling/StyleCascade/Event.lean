import StyleCascade.Font
import StyleCascade.Property
import StyleCascade.Resolve.Fault
import StyleCascade.Selector.Tree
import StyleCascade.Sheet.Origin
import StyleCascade.Sheet.Statement
import StyleCascade.Text.Quoted

namespace StyleCascade

/-- Something that happened. -/
inductive Event
  | invalidToken (offset : Nat) (bytes : List UInt8)
  | statementFault (offset : Nat) (cause : SyntaxFault)
  | inlineFault (cause : SyntaxFault)
  | droppedDeclaration (cause : DeclarationFault)
  | skippedMedia (media : List String)
  | sheetRead (sheet : SheetId) (counts : SheetCounts)
  | sheetRemoved (sheet : SheetId) (rules : Nat)
  | fileRead (path : String)
  | ruleMatched (tag selector : String)
  | fontMade (font : Font)
  | defaultColorFault (cause : ColorFault)
  /-- A record is given out; `holders` others hold it. -/
  | recordGiven (holders : Nat)
  | valueRejected (property : Property) (cause : ValueFault)
  | scriptEvaluated (source : String)
  | sheetFaults (sheet : SheetId) (faults : Nat)
  | documentStyled (nodes distinct live : Nat)
  | subtreeRestyled (node siblings : Nat)
  | stateChanged (node : Nat) (old new : NodeState)
  | styleAttributeFaults (node faults : Nat)
  deriving DecidableEq, Repr

/-- A declared value that was rejected, with its property. -/
abbrev Diagnostic := Property × ValueFault

/-- The diagnostic of an event, if it is one. -/
def Event.diagnostic? : Event → Option Diagnostic
  | .valueRejected property cause => some (property, cause)
  | _ => none

end StyleCascade
