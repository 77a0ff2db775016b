import StyleCascade.Document.View
import StyleCascade.Engine.Fault
import StyleCascade.Engine.Styled
import StyleCascade.Log.Reading
import StyleCascade.Resolve

namespace StyleCascade

/-- An engine. -/
structure Engine (σ : Type) where
  config : Config
  hosts : Hosts σ
  /-- The state of the hosts. -/
  state : σ
  store : Store
  tables : Tables
  /-- A pass is running. -/
  running : Bool

/-- The outcome of an operation: its result or its fault, the state behind it, and what happened. -/
structure Outcome (τ α : Type) where
  result : Except StyleFault α
  state : τ
  events : List Event

namespace Engine

variable {σ : Type}

/-- An engine without style sheets, whose store has the media of the configuration. -/
def new (config : Config) (hosts : Hosts σ) (state : σ) : Engine σ :=
  { config := config
    hosts := hosts
    state := state
    store := .empty config.media
    tables := .empty
    running := false }

/-- The engine as hosts find it while one of its passes runs. -/
def inPass (engine : Engine σ) : Engine σ :=
  { engine with running := true }

/-- The addresses of other sheets, with the sheets that name them. -/
def links (engine : Engine σ) : List (SheetId × String) :=
  engine.store.links

/-- Reads a source and adds it as a sheet. -/
def addSheet (engine : Engine σ) (sheet : SheetId) (source : List UInt8) :
    Outcome (Engine σ) SheetCounts :=
  if engine.running then ⟨.error .reentrant, engine, []⟩
  else
    let text := engine.store.readText source
    let faults := text.counts.syntaxFaults
    { result := .ok text.counts
      state := { engine with store := engine.store.addText sheet text }
      events := engine.store.readEvents sheet source ++
        if faults = 0 then [] else [.sheetFaults sheet faults] }

/-- Adds the sheet of a file, whose content is missing if it cannot be read. -/
def addFile (engine : Engine σ) (sheet : SheetId) (path : String) (content : Option (List UInt8)) :
    Outcome (Engine σ) SheetCounts :=
  if engine.running then ⟨.error .reentrant, engine, []⟩
  else
    match content with
    | none => ⟨.error .unreadableSheet, engine, []⟩
    | some source =>
      let text := engine.store.readText source
      { result := .ok text.counts
        state := { engine with store := engine.store.addText sheet text }
        events := .fileRead path :: engine.store.readEvents sheet source }

/-- Takes a sheet out, and tells how many rules it had. Styled documents keep their records. -/
def removeSheet (engine : Engine σ) (sheet : SheetId) : Outcome (Engine σ) Nat :=
  if engine.running then ⟨.error .reentrant, engine, []⟩
  else
    let removed := engine.store.removedBy sheet
    { result := .ok removed
      state := { engine with store := engine.store.remove sheet }
      events := [.sheetRemoved sheet removed] }

/-- Forgets shared values that no held record has. -/
def purge (engine : Engine σ) (held : Held) : Outcome (Engine σ) Unit :=
  if engine.running then ⟨.error .reentrant, engine, []⟩
  else
    { result := .ok ()
      state := { engine with tables := engine.tables.purge held }
      events := [] }

end Engine

/-- A pass over a document: the tables, the hosts and the records so far, and what happened. -/
structure Pass (σ : Type) where
  tables : Tables
  /-- The state of the hosts. -/
  state : σ
  styled : Styled
  events : List Event

namespace Pass

variable {σ : Type}

/-- The own style of an element. -/
def inlineStyle? (doc : Document) (node : Nat) : Option InlineStyle :=
  (doc.attr? node "style").map (fun css => InlineStyle.read (Utf8.encode css))

/-- The events of reading the own style of an element. -/
def inlineEvents (doc : Document) (node : Nat) : List Event :=
  match doc.attr? node "style" with
  | none => []
  | some css =>
    let faults := (InlineStyle.read (Utf8.encode css)).faults
    InlineStyle.readEvents (Utf8.encode css) ++
      if faults = 0 then [] else [.styleAttributeFaults node faults]

/-- The record of the parent of a node, if it is styled. -/
def parentRecord? (pass : Pass σ) (doc : Document) (node : Nat) : Option (Handle Record) :=
  (doc.parent? node).bind pass.styled.get?

/-- Styles an element against the record of its parent. -/
def styleElement (engine : Engine σ) (held : Held) (doc : Document) (pass : Pass σ) (node : Nat) :
    Pass σ :=
  let parent := pass.parentRecord? doc node
  let basis : Basis := ⟨engine.config, parent.map Handle.value⟩
  let sets := Cascade.apply engine.store .dynamic doc.tree node (inlineStyle? doc node)
  let all := held ++ pass.styled.held ++ parent.toList
  let found := resolve engine.hosts basis all pass.tables pass.state sets
  { tables := found.tables
    state := found.state
    styled := pass.styled.insert node found.record
    events := pass.events ++ inlineEvents doc node ++
      Cascade.events engine.store .dynamic doc.tree node ++ found.events }

/-- Styles a node. A text shares the record of its parent. -/
def styleNode (engine : Engine σ) (held : Held) (doc : Document) (pass : Pass σ) (node : Nat) :
    Pass σ :=
  if doc.isElement node then styleElement engine held doc pass node
  else
    match pass.parentRecord? doc node with
    | some record => { pass with styled := pass.styled.insert node record }
    | none => pass

/-- Styles a node and everything below it, parents before children. -/
def styleSubtree (engine : Engine σ) (held : Held) (doc : Document) (pass : Pass σ) (node : Nat) :
    Pass σ :=
  (doc.subtree node).foldl (styleNode engine held doc) pass

/-- Styles several subtrees, one after the other. -/
def styleSubtrees (engine : Engine σ) (held : Held) (doc : Document) (pass : Pass σ)
    (nodes : List Nat) : Pass σ :=
  nodes.foldl (styleSubtree engine held doc) pass

end Pass

namespace Engine

/-- Styles every node of a document, while some records are held elsewhere. -/
def styleDocument (engine : Engine σ) (held : Held) (doc : Document) : Outcome (Engine σ) Styled :=
  if engine.running then ⟨.error .reentrant, engine, []⟩
  else
    let start : Pass σ := ⟨engine.tables, engine.state, .empty, []⟩
    let pass := Pass.styleSubtrees engine held doc start doc.roots
    let styled := pass.styled
    let live := pass.tables.records.size (Handle.alive (held ++ styled.held))
    { result := .ok styled
      state := { engine with tables := pass.tables, state := pass.state }
      events := pass.events ++ [.documentStyled styled.size styled.distinct live] }

/-- Styles a node again, everything below it, and the elements behind it under the same parent. -/
def restyle (engine : Engine σ) (held : Held) (doc : Document) (styled : Styled) (node : Nat) :
    Outcome (Engine σ × Styled) Unit :=
  if !doc.contains node then ⟨.error (.unknownNode node), (engine, styled), []⟩
  else if engine.running then ⟨.error .reentrant, (engine, styled), []⟩
  else
    let siblings := doc.followingSiblings node
    let start : Pass σ := ⟨engine.tables, engine.state, styled, []⟩
    let pass := Pass.styleSubtrees engine held doc start (node :: siblings)
    { result := .ok ()
      state := ({ engine with tables := pass.tables, state := pass.state }, pass.styled)
      events := pass.events ++ [.subtreeRestyled node siblings.length] }

/-- Replaces the dynamic state of a node, and restyles it if the state is another one. -/
def setNodeState (engine : Engine σ) (held : Held) (doc : Document) (styled : Styled) (node : Nat)
    (state : NodeState) : Outcome (Engine σ × Document × Styled) Unit :=
  match doc.setState? node state with
  | none => ⟨.error (.unknownNode node), (engine, doc, styled), []⟩
  | some changed =>
    let old := doc.state node
    if old = state then ⟨.ok (), (engine, changed, styled), []⟩
    else
      let restyled := engine.restyle held changed styled node
      { result := restyled.result
        state := (restyled.state.1, changed, restyled.state.2)
        events := .stateChanged node old state :: restyled.events }

end Engine

end StyleCascade
