import StyleCascade.Declared.PropertySet
import StyleCascade.Resolve.Setting

namespace StyleCascade

/-- The values that sets declare for a property, in the order of the sets. -/
def Basis.declared (sets : List PropertySet) (property : Property) : List Value :=
  sets.filterMap (fun set => set.get? property)

namespace Making

variable {σ : Type}

/-- Reports that a property rejects a value. -/
def report (making : Making σ) (property : Property) (cause : ValueFault) : Making σ :=
  { making with toContext := making.tell [.valueRejected property cause] }

/-- Offers values to a property until it takes one, which is told, without scripts. -/
def offer (hosts : Hosts σ) (basis : Basis) (held : Held) (property : Property) :
    List Value → Making σ → Option Value × Making σ
  | [], making => (none, making)
  | value :: rest, making =>
    match Setting.declared hosts basis held property value making with
    | (.ok taken, after) => (some taken, after)
    | (.error cause, after) => offer hosts basis held property rest (after.report property cause)

/-- Offers properties the values that sets declare for them, one property after the other, and tells
what they take. -/
def offerAll (hosts : Hosts σ) (basis : Basis) (held : Held) (sets : List PropertySet) :
    List Property → Making σ → List (Property × Value) × Making σ
  | [], making => ([], making)
  | property :: rest, making =>
    let (taken, offered) :=
      making.offer hosts basis held property (Basis.declared sets property)
    let (others, done) := offerAll hosts basis held sets rest offered
    ((taken.map (fun value => (property, value))).toList ++ others, done)

end Making

/-- The outcome of resolving. -/
structure Resolution (σ : Type) where
  record : Handle Record
  tables : Tables
  /-- The state of the hosts. -/
  state : σ
  events : List Event
  /-- The properties that took a value, with this value without scripts. -/
  taken : List (Property × Value)

/-- Resolves property sets, the strongest first, into a shared record. -/
def resolve {σ : Type} (hosts : Hosts σ) (basis : Basis) (held : Held) (tables : Tables) (state : σ)
    (sets : List PropertySet) : Resolution σ :=
  let started := Making.start hosts basis held ⟨tables, state, []⟩
  let (taken, made) := started.offerAll hosts basis held sets Property.all
  let (record, context) := made.finish hosts basis held
  { record := record
    tables := context.tables
    state := context.state
    events := context.events
    taken := taken }

end StyleCascade
