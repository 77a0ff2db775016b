import StyleCascade.Property
import StyleCascade.Declared.Value

namespace StyleCascade

/-- Declared values of some properties, at most one for each. A mask of four words has the bit of
each property that is present, and the values stand in property order, so the place of a value is
the number of bits below its own. -/
structure PropertySet where
  mask : Vector (BitVec 32) 4
  values : List Value

namespace PropertySet

/-- The set without any property. -/
def empty : PropertySet :=
  ⟨Vector.replicate 4 0, []⟩

instance : Inhabited PropertySet where
  default := empty

/-- The word of a mask that has the bit of a property. -/
def wordOf (property : Property) : Fin 4 :=
  ⟨property.index / 32, Nat.div_lt_of_lt_mul property.index_lt⟩

/-- The bit of a property, alone in its word. -/
def bitOf (property : Property) : BitVec 32 :=
  BitVec.twoPow 32 (property.index % 32)

/-- A property is present. -/
def contains (set : PropertySet) (property : Property) : Bool :=
  set.mask[wordOf property] &&& bitOf property ≠ 0

/-- The number of bits of a word that are set. -/
def countOnes (word : BitVec 32) : Nat :=
  word.cpop.toNat

/-- The place of a property's value, or the place where it would go. -/
def slot (set : PropertySet) (property : Property) : Nat :=
  ((set.mask.toList.take (wordOf property)).map countOnes).foldr (· + ·) 0 +
    countOnes (set.mask[wordOf property] &&& (bitOf property - 1))

/-- The value of a property. -/
def get? (set : PropertySet) (property : Property) : Option Value :=
  if set.contains property then set.values[set.slot property]? else none

/-- Gives a property a value, in place of an earlier one. -/
def insert (set : PropertySet) (property : Property) (value : Value) : PropertySet :=
  let word := wordOf property
  if set.contains property then
    { set with values := set.values.set (set.slot property) value }
  else
    { mask := set.mask.set word (set.mask[word] ||| bitOf property)
      values := set.values.insertIdx (set.slot property) value }

/-- Takes a property out, and gives the value that it had. -/
def remove (set : PropertySet) (property : Property) : Option Value × PropertySet :=
  let word := wordOf property
  if set.contains property then
    (set.values[set.slot property]?,
      { mask := set.mask.set word (set.mask[word] &&& ~~~bitOf property)
        values := set.values.eraseIdx (set.slot property) })
  else (none, set)

/-- The number of values. -/
def size (set : PropertySet) : Nat :=
  set.values.length

/-- No property is present. -/
def isEmpty (set : PropertySet) : Bool :=
  set.values.isEmpty

/-- The properties with their values, in property order. -/
def toList (set : PropertySet) : List (Property × Value) :=
  (Property.all.filter set.contains).zip set.values

/-- Gives several properties their values, one after the other. -/
def insertAll (set : PropertySet) (entries : List (Property × Value)) : PropertySet :=
  entries.foldl (fun result entry => result.insert entry.1 entry.2) set

/-- The text of a property with its value. -/
def entryText (entry : Property × Value) : String :=
  entry.1.name ++ ": " ++ entry.2.text

/-- The text of a set. -/
def text (set : PropertySet) : String :=
  "; ".intercalate (set.toList.map entryText)

theorem contains_empty (property : Property) : empty.contains property = false := by
  simp [contains, empty]

end PropertySet

end StyleCascade
