import StyleCascade.Entries
import StyleCascade.Selector.Reader
import StyleCascade.Sheet.Origin
import StyleCascade.Sheet.Reader

namespace StyleCascade

/-- The place of a property set in the cascade. -/
structure CascadeKey where
  important : Bool
  origin : Origin
  /-- The set comes from the element's own style, not from a rule. -/
  inline : Bool
  specificity : Specificity
  sheet : Nat
  sequence : Nat
  deriving DecidableEq, Repr

namespace CascadeKey

/-- The counts that are compared, the first ones first. -/
def rank (key : CascadeKey) : List Nat :=
  [key.important.toNat, key.origin.rank, key.inline.toNat, key.specificity.ids,
    key.specificity.classes, key.specificity.types, key.sheet, key.sequence]

/-- A key is stronger than another one. -/
def beats (a b : CascadeKey) : Bool :=
  b.rank < a.rank

/-- Puts an item behind all stronger ones at the front of a list. -/
def place {α : Type} (key : α → CascadeKey) (item : α) : List α → List α
  | [] => [item]
  | first :: rest =>
    if (key first).beats (key item) then first :: place key item rest else item :: first :: rest

end CascadeKey

/-- A selector with the properties it gives. -/
structure Rule where
  sheet : SheetId
  important : Bool
  specificity : Specificity
  /-- The number of rules that were ever added before. -/
  sequence : Nat
  selector : Selector
  properties : PropertySet
  /-- The sequence number of the first rule that was added with the same property set. -/
  block : Nat

namespace Rule

/-- The place of a rule in the cascade. -/
def key (rule : Rule) : CascadeKey :=
  { important := rule.important
    origin := rule.sheet.origin
    inline := false
    specificity := rule.specificity
    sheet := rule.sheet.number
    sequence := rule.sequence }

/-- What a rule has in common with others. -/
def priority (rule : Rule) : Priority :=
  ⟨rule.sheet, rule.important⟩

end Rule

/-- A store of rules. They stand in cascade order, the strongest first, in one list for each element
name that a subject can ask for and in one list for all other subjects. -/
structure Store where
  /-- The rules whose subject asks for an element name, by that name. -/
  byTag : Entries String (List Rule)
  universal : List Rule
  /-- The priorities of the rules, in the order in which they first came. -/
  priorities : List Priority
  /-- The addresses of other sheets, with the sheets that name them. -/
  links : List (SheetId × String)
  /-- The media in force, in lowercase. -/
  media : List String
  /-- The number of rules that were ever added. -/
  nextSequence : Nat

namespace Store

/-- An empty store for some media. -/
def empty (media : List String) : Store :=
  { byTag := []
    universal := []
    priorities := []
    links := []
    media := media.map Ascii.lower
    nextSequence := 0 }

/-- The media of a screen. -/
def screenMedia : List String :=
  ["all", "screen"]

/-- The rules whose subject asks for an element name. -/
def rulesOf (store : Store) (tag : String) : List Rule :=
  (store.byTag.lookup tag).getD []

/-- All rules. -/
def rules (store : Store) : List Rule :=
  store.universal ++ store.byTag.flatMap Prod.snd

/-- The number of rules. -/
def size (store : Store) : Nat :=
  store.rules.length

/-- There are no rules. -/
def isEmpty (store : Store) : Bool :=
  store.rules.isEmpty

/-- Adds a rule in its place. -/
def insert (store : Store) (rule : Rule) : Store :=
  match rule.selector.subjectTag? with
  | some tag =>
    let rules := CascadeKey.place Rule.key rule (store.rulesOf tag)
    { store with byTag := Entries.put tag rules store.byTag }
  | none => { store with universal := CascadeKey.place Rule.key rule store.universal }

/-- Adds the next rule of a block. -/
def addRule (store : Store) (priority : Priority) (properties : PropertySet) (block : Nat)
    (selector : Selector × Specificity) : Store :=
  let placed := store.insert
    { sheet := priority.sheet
      important := priority.important
      specificity := selector.2
      sequence := store.nextSequence
      selector := selector.1
      properties := properties
      block := block }
  { placed with nextSequence := store.nextSequence + 1 }

/-- Notes a priority, if it is new. -/
def notePriority (store : Store) (priority : Priority) : Store :=
  if store.priorities.contains priority then store
  else { store with priorities := store.priorities ++ [priority] }

/-- Adds a rule for each selector, unless there are no properties. -/
def addBlock (store : Store) (priority : Priority) (properties : PropertySet)
    (selectors : List (Selector × Specificity)) : Store :=
  if properties.isEmpty then store
  else
    selectors.foldl (fun result selector =>
      result.addRule priority properties store.nextSequence selector) (store.notePriority priority)

/-- Adds the rules of a ruleset: the normal ones, and then the important ones. -/
def addRuleset (store : Store) (sheet : SheetId) (selectors : List (Selector × Specificity))
    (sets : DeclaredSets) : Store :=
  (store.addBlock ⟨sheet, false⟩ sets.normal selectors).addBlock ⟨sheet, true⟩ sets.important
    selectors

/-- Adds what a statement comes to, other than an address. -/
def addStatement (sheet : SheetId) (store : Store) (statement : Statement) : Store :=
  match statement with
  | .ruleset selectors declarations =>
    store.addRuleset sheet selectors (DeclaredSets.ofList declarations)
  | _ => store

/-- Adds a sheet that is read. Rules of an earlier sheet of the same identity stay. -/
def addText (store : Store) (sheet : SheetId) (text : SheetText) : Store :=
  let links := (text.statements.filterMap Statement.link?).map (fun url => (sheet, url))
  text.statements.foldl (addStatement sheet) { store with links := store.links ++ links }

/-- Reads a source for the media in force. -/
def readText (store : Store) (source : List UInt8) : SheetText :=
  SheetText.read store.media source

/-- Reads a source and adds it as a sheet. -/
def add (store : Store) (sheet : SheetId) (source : List UInt8) : Store :=
  store.addText sheet (store.readText source)

/-- Takes out every rule, priority and address of a sheet. -/
def remove (store : Store) (sheet : SheetId) : Store :=
  { store with
    universal := store.universal.filter (fun rule => rule.sheet ≠ sheet)
    byTag := (store.byTag.map (fun (tag, rules) =>
      (tag, rules.filter (fun rule => rule.sheet ≠ sheet)))).filter (fun entry => !entry.2.isEmpty)
    priorities := store.priorities.filter (fun priority => priority.sheet ≠ sheet)
    links := store.links.filter (fun link => link.1 ≠ sheet) }

/-- The number of rules that removing a sheet takes out. -/
def removedBy (store : Store) (sheet : SheetId) : Nat :=
  store.size - (store.remove sheet).size

end Store

end StyleCascade
