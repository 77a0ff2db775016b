namespace StyleCascade

/-- A type whose values are spelled as words, by their exact lowercase spelling. The default of such
a type is the initial value of the property that takes it. -/
class Keyword (α : Type) where
  /-- Every value, in the order of the declaration. -/
  all : List α
  /-- The spelling of a value. -/
  text : α → String

namespace Keyword

/-- The value spelled by a word. -/
def ofText? {α : Type} [Keyword α] (word : String) : Option α :=
  (all (α := α)).find? (fun value => text value = word)

/-- A word that names a value is the spelling of that value. -/
theorem text_of_ofText? {α : Type} [Keyword α] {word : String} {value : α}
    (found : ofText? word = some value) : text value = word := by
  have spelled := List.find?_some (show List.find? _ all = some value from found)
  exact of_decide_eq_true spelled

end Keyword

end StyleCascade
