import StyleCascade.Number.Text

namespace StyleCascade

/-- Who wrote a style sheet. -/
inductive Origin
  /-- The program that shows documents. -/
  | agent
  | user
  | author
  deriving DecidableEq, Repr

/-- The rank among origins; the author of a document comes before its reader. -/
def Origin.rank : Origin → Nat
  | .agent => 0
  | .user => 1
  | .author => 2

/-- The name of an origin in log lines. -/
def Origin.name : Origin → String
  | .agent => "Agent"
  | .user => "User"
  | .author => "Author"

/-- The identity of a style sheet. Of two sheets of one origin, the higher number wins. -/
structure SheetId where
  origin : Origin
  /-- A number of the caller's; 32 bits hold it, and nothing depends on its size. -/
  number : Nat
  deriving DecidableEq, Repr

/-- The text of an identity in log lines. -/
def SheetId.text (id : SheetId) : String :=
  "SheetId \x7b origin: " ++ id.origin.name ++ ", number: " ++ Number.integerText id.number ++
    " \x7d"

/-- What the rules of one sheet and one importance have in common. -/
structure Priority where
  sheet : SheetId
  important : Bool
  deriving DecidableEq, Repr

end StyleCascade
