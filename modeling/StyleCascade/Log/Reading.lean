import StyleCascade.Event
import StyleCascade.Selector.Text
import StyleCascade.Sheet.Cascade

namespace StyleCascade

namespace Lexeme

/-- The event of bytes that are no token. -/
def event? : Lexeme → Option Event
  | .token _ => none
  | .invalid offset bytes => some (.invalidToken offset bytes)

/-- The events of finding the tokens of a source. -/
def events (source : List UInt8) : List Event :=
  (read source).filterMap event?

end Lexeme

/-- The event of a declaration that sets nothing. -/
def Declaration.event? (declaration : Declaration) : Option Event :=
  match declaration.longhands with
  | .ok _ => none
  | .error cause => some (.droppedDeclaration cause)

/-- The events of a statement. -/
def Statement.events (statement : Statement) : List Event :=
  statement.declarations.filterMap Declaration.event? ++
    match statement with
    | .skippedMedia media => [.skippedMedia media]
    | .fault _ offset cause => [.statementFault offset cause]
    | _ => []

/-- The events of reading a sheet. -/
def Store.readEvents (store : Store) (sheet : SheetId) (source : List UInt8) : List Event :=
  let text := store.readText source
  Lexeme.events source ++ text.statements.flatMap Statement.events ++
    [.sheetRead sheet text.counts]

/-- The events of a run of declarations. -/
def DeclarationRun.events (run : DeclarationRun) : List Event :=
  run.declarations.filterMap Declaration.event? ++ (run.stop.map Event.inlineFault).toList

/-- The events of reading an inline style. -/
def InlineStyle.readEvents (source : List UInt8) : List Event :=
  Lexeme.events source ++
    (DeclarationRun.readAll source (tokensOf source)).flatMap DeclarationRun.events

/-- The events of the cascade for an element. -/
def Cascade.events {ν : Type} (store : Store) (mode : MatchMode) (tree : Tree ν) (element : ν) :
    List Event :=
  (matched store mode tree element).map (fun rule =>
    .ruleMatched (tree.tag element) rule.selector.text)

end StyleCascade
