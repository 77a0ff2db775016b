import StyleCascade.Event

namespace StyleCascade

/-- How much a line matters, the most severe first. -/
inductive LogLevel
  | error
  | warn
  | info
  | debug
  | trace
  deriving DecidableEq, Repr

namespace LogLevel

/-- The name of a level. -/
def name : LogLevel → String
  | .error => "ERROR"
  | .warn => "WARN"
  | .info => "INFO"
  | .debug => "DEBUG"
  | .trace => "TRACE"

/-- A log at level `kept` has the lines of a level. -/
def isKept (level kept : LogLevel) : Bool :=
  level.ctorIdx ≤ kept.ctorIdx

end LogLevel

/-- A line of a log. -/
structure LogLine where
  level : LogLevel
  target : String
  message : String
  deriving DecidableEq, Repr

/-- The text of a line. The message may have line breaks. -/
def LogLine.text (line : LogLine) : String :=
  "[" ++ line.level.name ++ "] " ++ line.target ++ ": " ++ line.message

namespace Event

/-- The text of a number. -/
def count (number : Nat) : String :=
  Number.integerText number

/-- The name of a node. -/
def nodeText (node : Nat) : String :=
  "#" ++ count node

/-- The number of bytes that are shown of what is no token. -/
def shownBytes : Nat :=
  16

/-- The line about a declaration that sets nothing. -/
def droppedLine : DeclarationFault → LogLine
  | .unknownProperty name => ⟨.trace, "hcss::parser", "ignoring unknown property " ++ name⟩
  | cause => ⟨.debug, "hcss::parser", "dropping declaration: " ++ cause.message⟩

/-- The counts of a sheet in words. -/
def countsText (counts : SheetCounts) : String :=
  count counts.rules ++ " rules, " ++ count counts.syntaxFaults ++ " syntax errors, " ++
    count counts.invalid ++ " invalid tokens"

/-- The line of a log about an event. The evaluation of a script has none. -/
def line? : Event → Option LogLine
  | .invalidToken offset bytes =>
    some ⟨.debug, "hcss::parser::tokenizer", "skipping invalid token at byte " ++ count offset ++
      ": " ++ Text.quoted (Utf8.text (bytes.take shownBytes))⟩
  | .statementFault offset cause =>
    some ⟨.debug, "hcss::parser", "syntax error at byte " ++ count offset ++ ": " ++ cause.message⟩
  | .inlineFault cause =>
    some ⟨.debug, "hcss::parser", "syntax error in inline style: " ++ cause.message⟩
  | .droppedDeclaration cause => some (droppedLine cause)
  | .skippedMedia media =>
    some ⟨.trace, "hcss::parser", "skipping @media " ++ ", ".intercalate media⟩
  | .sheetRead sheet counts =>
    some ⟨.debug, "hcss::parser", "parsed stylesheet " ++ sheet.text ++ ": " ++ countsText counts⟩
  | .sheetRemoved sheet rules =>
    some ⟨.debug, "hcss::parser::stylesheet",
      "removed stylesheet " ++ sheet.text ++ ": " ++ count rules ++ " rules"⟩
  | .fileRead path => some ⟨.info, "hcss::parser::stylesheet", "loading stylesheet " ++ path⟩
  | .ruleMatched tag selector =>
    some ⟨.trace, "hcss::parser::cascade", "<" ++ tag ++ "> matched " ++ selector⟩
  | .fontMade font =>
    some ⟨.trace, "hcss::computed::resolver",
      "new font " ++ font.key.text ++ " (" ++ Number.integerText font.metrics.em ++ "px em)"⟩
  | .defaultColorFault cause =>
    some ⟨.debug, "hcss::computed::resolver", "default color: " ++ cause.message⟩
  | .recordGiven holders =>
    some ⟨.trace, "hcss::computed::resolver",
      "computed record in use by " ++ count holders ++ " nodes"⟩
  | .valueRejected property cause =>
    some ⟨.debug, "hcss::context", "rejected " ++ property.name ++ ": " ++ cause.message⟩
  | .scriptEvaluated _ => none
  | .sheetFaults sheet faults =>
    some ⟨.debug, "htmlstyle::engine",
      "stylesheet " ++ sheet.text ++ ": " ++ count faults ++ " syntax errors"⟩
  | .documentStyled nodes distinct live =>
    some ⟨.info, "htmlstyle::engine", "styled " ++ count nodes ++ " nodes with " ++
      count distinct ++ " computed records (" ++ count live ++ " live)"⟩
  | .subtreeRestyled node siblings =>
    some ⟨.trace, "htmlstyle::engine", "restyled subtree " ++ nodeText node ++ " and " ++
      count siblings ++ " following siblings"⟩
  | .stateChanged node old new =>
    some ⟨.debug, "htmlstyle::engine",
      "state of " ++ nodeText node ++ ": " ++ old.text ++ " -> " ++ new.text⟩
  | .styleAttributeFaults node faults =>
    some ⟨.debug, "htmlstyle::engine",
      "style attribute of " ++ nodeText node ++ ": " ++ count faults ++ " syntax errors"⟩

end Event

/-- The texts of a log of some events, kept at a level. -/
def logTexts (kept : LogLevel) (events : List Event) : List String :=
  ((events.filterMap Event.line?).filter (fun line => line.level.isKept kept)).map LogLine.text

end StyleCascade
