import Mathlib.Logic.Function.Basic
import StyleCascade.Proofs.Declared.PropertySet
import StyleCascade.Proofs.Lists

namespace StyleCascade

namespace Property

theorem index_lt_length (property : Property) : property.index < all.length :=
  (List.getElem?_eq_some_iff.mp property.ofIndex?_index).1

/-- Properties are listed by their places. -/
theorem map_index_all : all.map index = List.range all.length := by
  decide

theorem index_getElem_all {place : Nat} (inside : place < all.length) :
    all[place].index = place := by
  have listed : (all.map index)[place]? = some place := by
    rw [map_index_all, List.getElem?_range inside]
  rw [List.getElem?_map, List.getElem?_eq_getElem inside] at listed
  exact Option.some.inj listed

theorem sorted_all : all.Pairwise (fun one other => one.index < other.index) := by
  rw [← List.pairwise_map, map_index_all]
  exact List.pairwise_lt_range

end Property

namespace PropertySet

/-- What can be done with a property set. -/
inductive Op
  | insert (property : Property) (value : Value)
  | remove (property : Property)

/-- Runs operations on a set. The values that were taken out are listed in front of the set. -/
def run (set : PropertySet) : List Op → List (Option Value) × PropertySet
  | [] => ([], set)
  | .insert property value :: rest => run (set.insert property value) rest
  | .remove property :: rest =>
    let later := run (set.remove property).2 rest
    ((set.remove property).1 :: later.1, later.2)

/-- Runs operations on a map from properties to values. -/
def runMap (map : Property → Option Value) : List Op → List (Option Value) ×
    (Property → Option Value)
  | [] => ([], map)
  | .insert property value :: rest => runMap (Function.update map property (some value)) rest
  | .remove property :: rest =>
    let later := runMap (Function.update map property none) rest
    (map property :: later.1, later.2)

/-- A set answers like a map. -/
structure Represents (set : PropertySet) (map : Property → Option Value) : Prop where
  bits : (set.mask.toList.map countOnes).sum = set.values.length
  contains : ∀ property, set.contains property = (map property).isSome
  get? : ∀ property, set.get? property = map property
  size : set.size = Property.all.countP (fun property => (map property).isSome)
  isEmpty : set.isEmpty = true ↔ ∀ property, map property = none
  ordered : (set.toList.map (fun entry => entry.1.index)).Pairwise (· < ·)
  entries : ∀ property value, (property, value) ∈ set.toList ↔ map property = some value

variable {set : PropertySet} {property other : Property} {value : Value}

/-- There is a value for each bit, and each bit is that of a property. -/
structure Compact (set : PropertySet) : Prop where
  sound : set.Sound
  inside : ∀ place, bitAt set.mask place = true → place < Property.all.length

section Remove

theorem remove_of_absent (absent : set.contains property = false) :
    set.remove property = (none, set) := by
  rw [remove, if_neg (by simp [absent])]

/-- What is left of a set that had a property: one bit and one value less. -/
theorem remove_of_present (present : set.contains property = true) :
    Raised (set.remove property).2.mask set.mask property.index ∧
      (set.remove property).2.values = set.values.eraseIdx (set.slot property) := by
  rw [remove, if_pos present]
  rw [contains_eq] at present
  exact ⟨raised_remove rfl present, rfl⟩

/-- The value that is taken out is the one that the property had. -/
theorem fst_remove (set : PropertySet) (property : Property) :
    (set.remove property).1 = set.get? property := by
  cases held : set.contains property with
  | false => rw [remove_of_absent held, get?, if_neg (by simp [held])]
  | true => rw [remove, get?, if_pos held, if_pos held]

theorem Sound.remove (sound : set.Sound) (property : Property) :
    (set.remove property).2.Sound := by
  cases held : set.contains property with
  | false => rwa [remove_of_absent held]
  | true =>
    obtain ⟨raised, values⟩ := remove_of_present held
    have count := raised.bitsBelow 128
    have slot := sound.slot_lt held
    simp only [property.index_lt, decide_true, Bool.toNat_true] at count
    rw [Sound] at sound ⊢
    rw [values, List.length_eraseIdx_of_lt slot]
    omega

theorem get?_remove_self (set : PropertySet) (property : Property) :
    (set.remove property).2.get? property = none := by
  cases held : set.contains property with
  | false => rw [remove_of_absent held, get?, if_neg (by simp [held])]
  | true =>
    have absent := (remove_of_present held).1.absent
    rw [← contains_eq] at absent
    rw [get?, if_neg (by simp [absent])]

theorem get?_remove_of_ne (apart : other ≠ property) :
    (set.remove property).2.get? other = set.get? other := by
  cases held : set.contains property with
  | false => rw [remove_of_absent held]
  | true =>
    obtain ⟨raised, values⟩ := remove_of_present held
    have places : other.index ≠ property.index := fun same =>
      apart (Property.index_injective same)
    have stays : (set.remove property).2.contains other = set.contains other := by
      rw [contains_eq, contains_eq, raised.bits, decide_eq_false places, Bool.or_false]
    rw [get?, get?, stays]
    cases otherHeld : set.contains other with
    | false => rfl
    | true =>
      have slots := raised.bitsBelow other.index
      rw [contains_eq] at held otherHeld
      rw [if_pos rfl, if_pos rfl, values, slot_eq, slot_eq, slot_eq]
      rcases Nat.lt_or_gt_of_ne places with above | below
      · -- the value that goes stands behind the other one
        have order : bitsBelow set.mask other.index < bitsBelow set.mask property.index :=
          bitsBelow_lt otherHeld above
        rw [decide_eq_false above.not_gt, Bool.toNat_false, Nat.add_zero] at slots
        rw [← slots, List.getElem?_eraseIdx_of_lt order]
      · have order : bitsBelow set.mask property.index < bitsBelow set.mask other.index :=
          bitsBelow_lt held below
        rw [decide_eq_true below, Bool.toNat_true] at slots
        rw [List.getElem?_eraseIdx_of_ge (by omega), slots]

theorem get?_remove (set : PropertySet) (property : Property) :
    (set.remove property).2.get? = Function.update set.get? property none := by
  funext other
  by_cases same : other = property
  · rw [same, get?_remove_self, Function.update_self]
  · rw [get?_remove_of_ne same, Function.update_of_ne same]

end Remove

namespace Compact

theorem empty : Compact .empty :=
  ⟨sound_empty, fun place given => absurd given (by simp [bitAt_empty])⟩

theorem insert (compact : set.Compact) (property : Property) (value : Value) :
    (set.insert property value).Compact := by
  refine ⟨compact.sound.insert property value, fun place given => ?_⟩
  cases held : set.contains property with
  | true =>
    rw [insert_of_present held] at given
    exact compact.inside place given
  | false =>
    rw [(insert_of_absent held value).1.bits, Bool.or_eq_true, decide_eq_true_eq] at given
    rcases given with old | rfl
    · exact compact.inside place old
    · exact property.index_lt_length

theorem remove (compact : set.Compact) (property : Property) :
    (set.remove property).2.Compact := by
  refine ⟨compact.sound.remove property, fun place given => compact.inside place ?_⟩
  cases held : set.contains property with
  | false => rwa [remove_of_absent held] at given
  | true => rw [(remove_of_present held).1.bits, given, Bool.true_or]

/-- The values below a place are those of the properties below it. -/
theorem take_values (sound : set.Sound) {place : Nat} (inside : place ≤ Property.all.length) :
    set.values.take (bitsBelow set.mask place) = (Property.all.take place).filterMap set.get? := by
  induction place with
  | zero => rfl
  | succ place ih =>
    let property := Property.all[place]
    have index : property.index = place := Property.index_getElem_all inside
    have next : Property.all.take (place + 1) = Property.all.take place ++ [property] := by
      rw [List.take_add_one, List.getElem?_eq_getElem inside]
      rfl
    have bit := contains_eq set property
    rw [index] at bit
    rw [next, List.filterMap_append, ← ih (by omega), bitsBelow_succ, ← bit]
    cases held : set.contains property with
    | false =>
      have nothing : set.get? property = none := if_neg (by simp [held])
      simp [nothing]
    | true =>
      have slot : set.slot property = bitsBelow set.mask place := by rw [slot_eq, index]
      have found : set.get? property = set.values[bitsBelow set.mask place]? := by
        rw [get?, if_pos held, slot]
      have here := slot ▸ sound.slot_lt held
      rw [Bool.toNat_true, List.take_add_one, ← found, found, List.getElem?_eq_getElem here]
      simp [found, here]

variable (compact : set.Compact)

include compact

/-- The values are those of all properties that have one, in order. -/
theorem values_eq : set.values = Property.all.filterMap set.get? := by
  have clear : ∀ place, Property.all.length ≤ place → bitAt set.mask place = false :=
    fun place behind => Bool.eq_false_iff.mpr fun given => by
      have within := compact.inside place given
      omega
  have whole := take_values compact.sound (le_refl Property.all.length)
  have count : bitsBelow set.mask 128 = bitsBelow set.mask Property.all.length :=
    bitsBelow_eq_of_clear (by decide) clear
  rw [← count, ← compact.sound, List.take_length, List.take_length] at whole
  exact whole

theorem contains_eq_isSome (property : Property) :
    set.contains property = (set.get? property).isSome := by
  cases held : set.contains property with
  | false => rw [get?, if_neg (by simp [held]), Option.isSome_none]
  | true =>
    rw [get?, if_pos held, List.getElem?_eq_getElem (compact.sound.slot_lt held),
      Option.isSome_some]

end Compact

namespace Compact

variable (compact : set.Compact)

include compact

/-- The listing is the map read in the order of the properties. -/
theorem toList_eq : set.toList =
    Property.all.filterMap (fun property =>
      (set.get? property).map (fun value => (property, value))) := by
  have present : set.contains = fun property => (set.get? property).isSome :=
    funext compact.contains_eq_isSome
  rw [toList, present, compact.values_eq, zip_filter_filterMap]

/-- A compact set answers like the map of its values. -/
theorem represents : set.Represents set.get? where
  bits := (sum_countOnes_all set.mask).trans compact.sound.symm
  contains := compact.contains_eq_isSome
  get? _ := rfl
  size := by rw [size, compact.values_eq, List.length_filterMap_eq_countP]
  isEmpty := by
    rw [isEmpty, List.isEmpty_iff, compact.values_eq, List.filterMap_eq_nil_iff]
    exact ⟨fun noneThere property => noneThere property property.mem_all,
      fun noneThere property _ => noneThere property⟩
  ordered := by
    rw [compact.toList_eq, List.pairwise_map, List.pairwise_filterMap]
    refine Property.sorted_all.imp fun {one other} before entry here later there => ?_
    obtain ⟨_, -, rfl⟩ := Option.map_eq_some_iff.mp here
    obtain ⟨_, -, rfl⟩ := Option.map_eq_some_iff.mp there
    exact before
  entries property value := by
    rw [compact.toList_eq, List.mem_filterMap]
    constructor
    · rintro ⟨other, -, found⟩
      obtain ⟨here, given, same⟩ := Option.map_eq_some_iff.mp found
      cases same
      exact given
    · intro found
      exact ⟨property, property.mem_all, by rw [found]; rfl⟩

/-- A run on a compact set is a run on the map of its values. -/
theorem run_eq (ops : List Op) :
    (run set ops).1 = (runMap set.get? ops).1 ∧ (run set ops).2.Compact ∧
      (run set ops).2.get? = (runMap set.get? ops).2 := by
  induction ops generalizing set with
  | nil => exact ⟨rfl, compact, rfl⟩
  | cons op rest ih =>
    cases op with
    | insert property value =>
      have step : (set.insert property value).get? =
          Function.update set.get? property (some value) := by
        funext other
        rw [compact.sound.get?_insert, Function.update_apply]
      have later := ih (compact.insert property value)
      rwa [step] at later
    | remove property =>
      obtain ⟨answers, left, values⟩ := ih (compact.remove property)
      rw [get?_remove] at answers values
      exact ⟨congrArg₂ List.cons (fst_remove set property) answers, left, values⟩

end Compact

/-- Whatever is put in and taken out, a set answers like the map of the same operations, and what
is taken out is what the map has. -/
theorem run_represents (ops : List Op) :
    (run .empty ops).1 = (runMap (fun _ => none) ops).1 ∧
      (run .empty ops).2.Represents (runMap (fun _ => none) ops).2 := by
  have nothing : PropertySet.empty.get? = fun _ => none := funext get?_empty
  obtain ⟨answers, compact, values⟩ := Compact.empty.run_eq ops
  rw [nothing] at answers values
  exact ⟨answers, values ▸ compact.represents⟩

end PropertySet

end StyleCascade
