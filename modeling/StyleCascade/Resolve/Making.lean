import StyleCascade.Event
import StyleCascade.Resolve.Draft
import StyleCascade.Resolve.Tables

namespace StyleCascade

/-- What resolving works with: the tables, the state of the hosts, and what happened so far. -/
structure Context (σ : Type) where
  tables : Tables
  state : σ
  events : List Event

namespace Context

variable {σ α : Type}

/-- Something happens. -/
def tell (context : Context σ) (events : List Event) : Context σ :=
  { context with events := context.events ++ events }

/-- Asks the hosts, whose state may be another one behind the answer. -/
def ask (answer : StateM σ α) (context : Context σ) : α × Context σ :=
  let (result, state) := answer context.state
  (result, { context with state := state })

/-- Shares a value in the tables. -/
def share (intern : Tables → α × Tables) (context : Context σ) : α × Context σ :=
  let (handle, tables) := intern context.tables
  (handle, { context with tables := tables })

/-- The font of a key: the one that somebody holds, or else a new one, which is measured. -/
def font (hosts : Hosts σ) (config : Config) (held : Held) (making : List Record) (key : FontKey)
    (context : Context σ) : Handle Font × Context σ :=
  match context.tables.fonts.get? (held.fonts making) key with
  | some font => (font, context)
  | none =>
    let (metrics, asked) := context.ask (hosts.metrics key (key.pixels config.dpi))
    let font : Font := ⟨key, metrics⟩
    (asked.tell [.fontMade font]).share (fun tables => tables.internFont held making font)

/-- The colour of roots. One that cannot be read is black. -/
def rootColor (config : Config) (held : Held) (context : Context σ) : Handle Color × Context σ :=
  match Color.read config.color with
  | .ok color => context.share (fun tables => tables.internColor held [] color)
  | .error cause =>
    (context.tell [.defaultColorFault cause]).share (fun tables =>
      tables.internColor held [] (Color.rgb 0 0 0))

end Context

/-- A draft on its way, with all that setting its values reads and changes. -/
structure Making (σ : Type) extends Context σ where
  draft : Draft

namespace Making

variable {σ : Type}

/-- The draft of an element for which nothing is declared yet. A root has the colour and the font
of roots. -/
def start (hosts : Hosts σ) (basis : Basis) (held : Held) (context : Context σ) : Making σ :=
  match basis.parent with
  | some parent => { context with draft := .ofParent parent }
  | none =>
    let key := basis.config.rootFont
    let (color, colored) := context.rootColor basis.config held
    let (font, fonted) := colored.font hosts basis.config held [] key
    { fonted with draft := .ofRecord (.initial color font) key }

/-- The image of an address, if somebody holds one. -/
def heldImage? (making : Making σ) (held : Held) (url : String) : Option (Handle Image) :=
  making.tables.images.get? (held.images [making.draft.record]) url

/-- Shares the record of a draft in its font. -/
def finish (hosts : Hosts σ) (basis : Basis) (held : Held) (making : Making σ) :
    Handle Record × Context σ :=
  let draft := making.draft
  let (font, fonted) :=
    making.toContext.font hosts basis.config held [draft.record] draft.font
  let (record, shared) := fonted.share (fun tables =>
    tables.internRecord held (draft.finished basis.parent.isNone font))
  (record, shared.tell [.recordGiven (held.count record)])

end Making

end StyleCascade
