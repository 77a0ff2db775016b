import StyleCascade.Selector.Matching
import StyleCascade.Sheet.Inline
import StyleCascade.Sheet.Store

namespace StyleCascade

namespace Cascade

/-- The key of the element's own style. It is stronger than every rule of an author with the same
importance. -/
def inlineKey (important : Bool) : CascadeKey :=
  { important := important
    origin := .author
    inline := true
    specificity := .zero
    sheet := 4294967295
    sequence := 18446744073709551615 }

/-- The rules that can match an element with a name, in cascade order. -/
def candidates (store : Store) (tag : String) : List Rule :=
  List.merge (store.rulesOf tag) store.universal (fun typed other => !other.key.beats typed.key)

/-- The rules that match an element, in cascade order. -/
def matched {ν : Type} (store : Store) (mode : MatchMode) (tree : Tree ν) (element : ν) :
    List Rule :=
  (candidates store (tree.tag element)).filter (fun rule => rule.selector.holds mode tree element)

/-- Property sets with their keys. -/
abbrev KeyedSets := List (CascadeKey × PropertySet)

/-- The property sets of rules. -/
def ofRules (rules : List Rule) : KeyedSets :=
  rules.map (fun rule => (rule.key, rule.properties))

/-- Puts an inline style in its places. -/
def withInline (entries : KeyedSets) : Option InlineStyle → KeyedSets
  | none => entries
  | some style =>
    style.entries.foldl (fun result (important, set) =>
      CascadeKey.place Prod.fst (inlineKey important, set) result) entries

/-- The property sets that apply to an element, the strongest first. -/
def apply {ν : Type} (store : Store) (mode : MatchMode) (tree : Tree ν) (element : ν)
    (inline : Option InlineStyle) : List PropertySet :=
  (withInline (ofRules (matched store mode tree element)) inline).map Prod.snd

end Cascade

end StyleCascade
