import Mathlib.Data.List.InsertIdx
import StyleCascade.Proofs.Declared.Mask

namespace StyleCascade

namespace PropertySet

/-- There is a value for each property that is present. -/
def Sound (set : PropertySet) : Prop :=
  set.values.length = bitsBelow set.mask 128

variable {set : PropertySet} {property other : Property} {value : Value}

theorem bitAt_empty (place : Nat) : bitAt empty.mask place = false := by
  rw [bitAt, empty, Vector.getElem?_replicate]
  split <;> exact BitVec.getLsbD_zero

theorem sound_empty : empty.Sound := by
  have clear := bitsBelow_eq_of_clear (Nat.zero_le 128) fun place _ => bitAt_empty place
  rw [Sound, clear]
  rfl

theorem get?_empty (property : Property) : empty.get? property = none := by
  rw [get?, contains_empty]
  rfl

theorem Sound.slot_lt (sound : set.Sound) (present : set.contains property = true) :
    set.slot property < set.values.length := by
  rw [contains_eq] at present
  rw [sound, slot_eq]
  exact bitsBelow_lt present property.index_lt

theorem Sound.slot_le (sound : set.Sound) (property : Property) :
    set.slot property ≤ set.values.length := by
  rw [sound, slot_eq]
  exact bitsBelow_le set.mask property.index_lt.le

theorem insert_of_present (present : set.contains property = true) (value : Value) :
    set.insert property value = { set with values := set.values.set (set.slot property) value } :=
  if_pos present

/-- What a property that is not present adds: its bit, and its value in the place of its slot. -/
theorem insert_of_absent (absent : set.contains property = false) (value : Value) :
    Raised set.mask (set.insert property value).mask property.index ∧
      (set.insert property value).values = set.values.insertIdx (set.slot property) value := by
  rw [insert, if_neg (by simp [absent])]
  rw [contains_eq] at absent
  exact ⟨raised_insert rfl absent, rfl⟩

/-- Inserting adds one property and takes none away. -/
theorem contains_insert (set : PropertySet) (property other : Property) (value : Value) :
    (set.insert property value).contains other =
      (set.contains other || decide (other = property)) := by
  cases held : set.contains property with
  | true =>
    rw [insert_of_present held]
    by_cases same : other = property
    · subst same
      simpa [contains] using held
    · simp [contains, same]
  | false =>
    rw [contains_eq, contains_eq, (insert_of_absent held value).1.bits]
    exact congrArg _ (decide_eq_decide.mpr ⟨Property.index_injective, fun same => same ▸ rfl⟩)

theorem Sound.insert (sound : set.Sound) (property : Property) (value : Value) :
    (set.insert property value).Sound := by
  cases held : set.contains property with
  | true =>
    rw [insert_of_present held, Sound, List.length_set]
    exact sound
  | false =>
    obtain ⟨raised, values⟩ := insert_of_absent held value
    rw [Sound, values, List.length_insertIdx_of_le_length (sound.slot_le property),
      raised.bitsBelow, sound]
    simp [property.index_lt]

theorem slot_ne (present : set.contains property = true) (otherPresent : set.contains other = true)
    (apart : other ≠ property) : set.slot property ≠ set.slot other := by
  have places : property.index ≠ other.index := fun same =>
    apart (Property.index_injective same).symm
  rw [contains_eq] at present otherPresent
  rw [slot_eq, slot_eq]
  rcases Nat.lt_or_gt_of_ne places with below | above
  · exact (bitsBelow_lt present below).ne
  · exact (bitsBelow_lt otherPresent above).ne'

theorem Sound.get?_insert_self (sound : set.Sound) (property : Property) (value : Value) :
    (set.insert property value).get? property = some value := by
  have given : (set.insert property value).contains property = true := by
    simp [contains_insert]
  rw [get?, if_pos given]
  cases held : set.contains property with
  | true =>
    rw [insert_of_present held]
    exact List.getElem?_set_self (sound.slot_lt held)
  | false =>
    obtain ⟨raised, values⟩ := insert_of_absent held value
    have slot : (set.insert property value).slot property = set.slot property := by
      simp [slot_eq, raised.bitsBelow]
    rw [values, slot]
    exact List.getElem?_insertIdx_self.trans (if_pos (sound.slot_le property))

theorem get?_insert_of_ne (apart : other ≠ property) (value : Value) :
    (set.insert property value).get? other = set.get? other := by
  have stays : (set.insert property value).contains other = set.contains other := by
    simp [contains_insert, apart]
  rw [get?, get?, stays]
  cases otherHeld : set.contains other with
  | false => rfl
  | true =>
    rw [if_pos rfl, if_pos rfl]
    cases held : set.contains property with
    | true =>
      rw [insert_of_present held]
      exact List.getElem?_set_ne (slot_ne held otherHeld apart)
    | false =>
      obtain ⟨raised, values⟩ := insert_of_absent held value
      have places : property.index ≠ other.index := fun same =>
        apart (Property.index_injective same).symm
      rw [contains_eq] at otherHeld
      rw [values, slot_eq, slot_eq, slot_eq, raised.bitsBelow]
      rcases Nat.lt_or_gt_of_ne places with below | above
      · -- the bit and the value go in below the other property
        have order : bitsBelow set.mask property.index ≤ bitsBelow set.mask other.index :=
          bitsBelow_le set.mask below.le
        rw [List.getElem?_insertIdx_of_gt (by simp [below]; omega)]
        simp [below]
      · have order : bitsBelow set.mask other.index < bitsBelow set.mask property.index :=
          bitsBelow_lt otherHeld above
        have uncounted : ¬property.index < other.index := above.not_gt
        rw [List.getElem?_insertIdx_of_lt (by simpa [uncounted] using order)]
        simp [uncounted]

/-- Giving a property a value changes the value of that property alone. -/
theorem Sound.get?_insert (sound : set.Sound) (property other : Property) (value : Value) :
    (set.insert property value).get? other =
      if other = property then some value else set.get? other := by
  by_cases same : other = property
  · rw [same, if_pos rfl, sound.get?_insert_self]
  · rw [if_neg same, get?_insert_of_ne same]

/-- The set that gives each property the value chosen for it, if there is one. -/
def ofChoice (chosen : Property → Option Value) : PropertySet :=
  empty.insertAll (Property.all.filterMap (fun property =>
    (chosen property).map (fun value => (property, value))))

/-- Writing one chosen value for some properties changes those that have one and leaves every other
property as it was. -/
theorem Sound.get?_insertAll_choice (sound : set.Sound) (chosen : Property → Option Value)
    (places : List Property) :
    (set.insertAll (places.filterMap (fun property =>
      (chosen property).map (fun value => (property, value))))).get? other =
        if other ∈ places then (chosen other).or (set.get? other) else set.get? other := by
  induction places generalizing set with
  | nil => rfl
  | cons first rest ih =>
    cases found : chosen first with
    | none =>
      rw [List.filterMap_cons_none (by rw [found]; rfl), ih sound]
      by_cases same : other = first
      · subst same
        simp [found]
      · simp [same]
    | some value =>
      rw [List.filterMap_cons_some (by rw [found]; rfl)]
      refine (ih (sound.insert first value)).trans ?_
      rw [sound.get?_insert]
      by_cases same : other = first
      · subst same
        simp [found]
      · simp [same]

theorem get?_ofChoice (chosen : Property → Option Value) (property : Property) :
    (ofChoice chosen).get? property = chosen property := by
  rw [ofChoice, sound_empty.get?_insertAll_choice, if_pos property.mem_all, get?_empty,
    Option.or_none]

/-- A set with the values of one set over those of another. -/
structure Layered (set upper base : PropertySet) : Prop where
  sound : set.Sound
  upper_sound : upper.Sound
  get?_eq : ∀ property, set.get? property = (upper.get? property).or (base.get? property)

namespace Layered

variable {upper base : PropertySet}

theorem empty (sound : base.Sound) : Layered base .empty base := by
  refine ⟨sound, sound_empty, fun property => ?_⟩
  rw [get?_empty, Option.none_or]

theorem insert (layered : Layered set upper base) (property : Property) (value : Value) :
    Layered (set.insert property value) (upper.insert property value) base := by
  refine ⟨layered.sound.insert property value, layered.upper_sound.insert property value,
    fun other => ?_⟩
  rw [layered.sound.get?_insert, layered.upper_sound.get?_insert]
  split
  · rfl
  · exact layered.get?_eq other

theorem insertAll (layered : Layered set upper base) (entries : List (Property × Value)) :
    Layered (set.insertAll entries) (upper.insertAll entries) base := by
  induction entries generalizing set upper with
  | nil => exact layered
  | cons entry rest ih => exact ih (layered.insert entry.1 entry.2)

end Layered

end PropertySet

end StyleCascade
