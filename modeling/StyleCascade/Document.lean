import StyleCascade.Entries
import StyleCascade.Selector.Tree
import StyleCascade.Text.Ascii

namespace StyleCascade

/-- What a node is. Names of elements and attributes are in lowercase. -/
inductive Content
  | element (tag : String) (attributes : Entries String String)
  | text (text : String)
  deriving DecidableEq, Repr

/-- A node, with the places of its parent and its children. -/
structure Node where
  content : Content
  parent : Option Nat
  children : List Nat
  state : NodeState
  deriving DecidableEq, Repr

/-- A document: elements and texts in the order in which they were added. A node is named by its
place, no node is ever taken away, and a parent is older than its children. -/
structure Document where
  nodes : Array Node
  deriving DecidableEq, Repr

namespace Document

/-- The document without nodes. -/
def empty : Document :=
  ⟨#[]⟩

/-- The number of nodes. -/
def size (doc : Document) : Nat :=
  doc.nodes.size

/-- There are no nodes. -/
def isEmpty (doc : Document) : Bool :=
  doc.nodes.isEmpty

/-- A place names a node. -/
def contains (doc : Document) (node : Nat) : Bool :=
  node < doc.size

/-- The node at a place. -/
def get? (doc : Document) (node : Nat) : Option Node :=
  doc.nodes[node]?

/-- The parent of a node. -/
def parent? (doc : Document) (node : Nat) : Option Nat :=
  (doc.get? node).bind Node.parent

/-- The children of a node, texts among them. -/
def children (doc : Document) (node : Nat) : List Nat :=
  (doc.get? node).elim [] Node.children

/-- The dynamic state of a node. -/
def state (doc : Document) (node : Nat) : NodeState :=
  (doc.get? node).elim .none Node.state

/-- The name of an element. -/
def tag? (doc : Document) (node : Nat) : Option String :=
  match (doc.get? node).map Node.content with
  | some (.element tag _) => some tag
  | _ => none

/-- The text of a text node. -/
def text? (doc : Document) (node : Nat) : Option String :=
  match (doc.get? node).map Node.content with
  | some (.text text) => some text
  | _ => none

/-- The value of an attribute of an element. -/
def attr? (doc : Document) (node : Nat) (key : String) : Option String :=
  match (doc.get? node).map Node.content with
  | some (.element _ attributes) => attributes.lookup key
  | _ => none

/-- A node is an element. -/
def isElement (doc : Document) (node : Nat) : Bool :=
  (doc.tag? node).isSome

/-- Changes a node. -/
def update (doc : Document) (node : Nat) (change : Node → Node) : Document :=
  ⟨doc.nodes.modify node change⟩

/-- Adds a node at the end, and behind the other children of its parent. -/
def push (doc : Document) (content : Content) (parent : Option Nat) : Document :=
  let added : Document := ⟨doc.nodes.push ⟨content, parent, [], .none⟩⟩
  match parent with
  | some older =>
    added.update older (fun node => { node with children := node.children ++ [doc.size] })
  | none => added

/-- Adds an element; its place is the old size. Without a parent in the document it is a root. -/
def addElement (doc : Document) (parent : Option Nat) (tag : String) : Document :=
  doc.push (.element (Ascii.lower tag) []) (parent.filter doc.contains)

/-- Adds a text under a node of the document; its place is the old size. -/
def addText? (doc : Document) (parent : Nat) (text : String) : Option Document :=
  if doc.contains parent then some (doc.push (.text text) (some parent)) else none

/-- Gives an attribute of an element a value, in place of an earlier one. Texts have no attributes
and stay as they are. -/
def Content.setAttribute (key value : String) : Content → Content
  | .element tag attributes => .element tag (Entries.put key value attributes)
  | .text text => .text text

/-- Gives an attribute a value, if the node is in the document. -/
def setAttribute? (doc : Document) (node : Nat) (key value : String) : Option Document :=
  if doc.contains node then
    some (doc.update node (fun old =>
      { old with content := Content.setAttribute (Ascii.lower key) value old.content }))
  else none

/-- Replaces the dynamic state of a node, if it is in the document. -/
def setState? (doc : Document) (node : Nat) (state : NodeState) : Option Document :=
  if doc.contains node then some (doc.update node (fun old => { old with state := state }))
  else none

/-- The nodes above a node, from its parent up. -/
def ancestors (doc : Document) (node : Nat) : List Nat :=
  match doc.parent? node with
  | none => []
  | some older => if older < node then older :: ancestors doc older else []
  termination_by node

/-- The nodes without a parent. -/
def roots (doc : Document) : List Nat :=
  (List.range doc.size).filter (fun node => (doc.parent? node).isNone)

/-- A node and everything below it, parents before children. -/
def subtreeFrom (doc : Document) (node : Nat) : List Nat :=
  node :: (doc.children node).flatMap (fun child =>
    if _younger : node < child ∧ child < doc.size then subtreeFrom doc child else [])
  termination_by doc.size - node
  decreasing_by omega

/-- A node of the document and everything below it. -/
def subtree (doc : Document) (node : Nat) : List Nat :=
  if doc.contains node then doc.subtreeFrom node else []

/-- The children of a node that are elements. -/
def elementChildren (doc : Document) (node : Nat) : List Nat :=
  (doc.children node).filter doc.isElement

/-- The elements behind a node under the same parent. -/
def followingSiblings (doc : Document) (node : Nat) : List Nat :=
  match doc.parent? node with
  | none => []
  | some parent => ((doc.elementChildren parent).dropWhile (· ≠ node)).drop 1

end Document

end StyleCascade
