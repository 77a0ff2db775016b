namespace StyleCascade

/-- A side of a box. -/
inductive Side
  | top
  | right
  | bottom
  | left
  deriving DecidableEq, Repr

/-- All sides, clockwise from the top. -/
def Side.all : List Side :=
  [.top, .right, .bottom, .left]

/-- A quantity for each side of a box. -/
structure Edges (α : Type) where
  top : α
  right : α
  bottom : α
  left : α
  deriving DecidableEq, Repr

namespace Edges

/-- The same quantity on all sides. -/
def same {α : Type} (value : α) : Edges α :=
  ⟨value, value, value, value⟩

/-- The quantity of a side. -/
def get {α : Type} (edges : Edges α) : Side → α
  | .top => edges.top
  | .right => edges.right
  | .bottom => edges.bottom
  | .left => edges.left

/-- Replaces the quantity of a side. -/
def set {α : Type} (edges : Edges α) (side : Side) (value : α) : Edges α :=
  match side with
  | .top => { edges with top := value }
  | .right => { edges with right := value }
  | .bottom => { edges with bottom := value }
  | .left => { edges with left := value }

/-- Applies a function that knows the side. -/
def mapSides {α β : Type} (edges : Edges α) (f : Side → α → β) : Edges β :=
  ⟨f .top edges.top, f .right edges.right, f .bottom edges.bottom, f .left edges.left⟩

/-- The quantities, clockwise from the top. -/
def toList {α : Type} (edges : Edges α) : List α :=
  [edges.top, edges.right, edges.bottom, edges.left]

theorem get_mapSides {α β : Type} (edges : Edges α) (f : Side → α → β) (side : Side) :
    (edges.mapSides f).get side = f side (edges.get side) := by
  cases side <;> rfl

end Edges

end StyleCascade
