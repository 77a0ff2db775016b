import StyleCascade.Number.Text

namespace StyleCascade

/-- Why an operation is refused. -/
inductive StyleFault
  /-- The file of a style sheet cannot be read. -/
  | unreadableSheet
  /-- Another pass is running. -/
  | reentrant
  /-- The document has no such node. -/
  | unknownNode (node : Nat)
  deriving DecidableEq, Repr

/-- The wording of a fault. -/
def StyleFault.message : StyleFault → String
  | .unreadableSheet => "CSS error: I/O error reading stylesheet"
  | .reentrant => "A styling pass is already running"
  | .unknownNode node => "No node #" ++ Number.integerText node ++ " in the document"

end StyleCascade
