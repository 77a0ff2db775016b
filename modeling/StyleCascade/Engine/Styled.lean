import StyleCascade.Resolve.Tables

namespace StyleCascade

/-- The records of nodes, by their place in the document. -/
structure Styled where
  records : Array (Option (Handle Record))

namespace Styled

/-- No node is styled. -/
def empty : Styled :=
  ⟨#[]⟩

/-- The record of a node, if it is styled. -/
def get? (styled : Styled) (node : Nat) : Option (Handle Record) :=
  (styled.records[node]?).join

/-- Gives a node a record. Nodes before it that are not styled stay so. -/
def insert (styled : Styled) (node : Nat) (record : Handle Record) : Styled :=
  let missing := Array.replicate (node + 1 - styled.records.size) none
  ⟨(styled.records ++ missing).setIfInBounds node (some record)⟩

/-- The records that the nodes hold, once for each node. -/
def held (styled : Styled) : Held :=
  styled.records.toList.filterMap id

/-- The number of styled nodes. -/
def size (styled : Styled) : Nat :=
  styled.held.length

/-- No node is styled. -/
def isEmpty (styled : Styled) : Bool :=
  styled.held.isEmpty

/-- The number of different records. -/
def distinct (styled : Styled) : Nat :=
  styled.held.distinct.length

end Styled

end StyleCascade
