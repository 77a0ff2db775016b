namespace StyleCascade

/-- The dynamic state of an element. -/
structure NodeState where
  link : Bool
  visited : Bool
  hover : Bool
  active : Bool
  focus : Bool
  deriving DecidableEq, Repr

namespace NodeState

/-- No state at all. -/
def none : NodeState :=
  ⟨false, false, false, false, false⟩

/-- The states that hold, by name and in order. -/
def names (state : NodeState) : List String :=
  ([("link", state.link), ("visited", state.visited), ("hover", state.hover),
    ("active", state.active), ("focus", state.focus)].filter (·.2)).map (·.1)

/-- The state in which the named states hold. -/
def ofNames (names : List String) : NodeState :=
  ⟨names.contains "link", names.contains "visited", names.contains "hover",
    names.contains "active", names.contains "focus"⟩

/-- The text of a state in log lines. -/
def text (state : NodeState) : String :=
  let held := state.names.map String.toUpper
  "NodeState(" ++ (if held.isEmpty then "0x0" else " | ".intercalate held) ++ ")"

end NodeState

/-- A tree of elements, as selectors see it. -/
structure Tree (ν : Type) where
  /-- The lowercase name of an element. -/
  tag : ν → String
  /-- The value of an attribute with a lowercase name. -/
  attr? : ν → String → Option String
  /-- The parent, its parent, and so on. -/
  ancestors : ν → List ν
  /-- The sibling just before an element. -/
  previous? : ν → Option ν
  /-- An element is the first child of its parent. -/
  isFirst : ν → Bool
  /-- The language of the content. -/
  language? : ν → Option String
  state : ν → NodeState

/-- The parent of an element. -/
def Tree.parent? {ν : Type} (tree : Tree ν) (element : ν) : Option ν :=
  (tree.ancestors element).head?

end StyleCascade
