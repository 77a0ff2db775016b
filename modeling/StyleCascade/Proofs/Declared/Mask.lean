import Mathlib.Algebra.GroupWithZero.Nat
import Mathlib.Data.Nat.Basic
import Mathlib.Order.Basic
import StyleCascade.Declared.PropertySet

namespace StyleCascade

namespace PropertySet

section Row

variable {mask : Vector (BitVec 32) 4} {low high : Nat}

/-- The bit of a mask at a place of the row. -/
def bitAt (mask : Vector (BitVec 32) 4) (place : Nat) : Bool :=
  (mask[place / 32]?.getD 0).getLsbD (place % 32)

/-- The number of bits of a mask below a place. -/
def bitsBelow (mask : Vector (BitVec 32) 4) (place : Nat) : Nat :=
  (List.range place).countP (bitAt mask)

theorem bitsBelow_succ (mask : Vector (BitVec 32) 4) (place : Nat) :
    bitsBelow mask (place + 1) = bitsBelow mask place + (bitAt mask place).toNat := by
  rw [bitsBelow, List.range_succ, List.countP_append, ← bitsBelow]
  cases bit : bitAt mask place <;> simp [bit]

theorem bitsBelow_le (mask : Vector (BitVec 32) 4) (order : low ≤ high) :
    bitsBelow mask low ≤ bitsBelow mask high := by
  induction order with
  | refl => exact le_rfl
  | step _ ih =>
    have next := bitsBelow_succ mask
    exact ih.trans (by rw [next]; exact Nat.le_add_right _ _)

theorem bitsBelow_lt (present : bitAt mask low = true) (order : low < high) :
    bitsBelow mask low < bitsBelow mask high := by
  have behind := bitsBelow_le mask (Nat.succ_le_of_lt order)
  rw [bitsBelow_succ, present, Bool.toNat_true] at behind
  exact behind

/-- Places without bits do not count. -/
theorem bitsBelow_eq_of_clear (order : low ≤ high)
    (clear : ∀ place, low ≤ place → bitAt mask place = false) :
    bitsBelow mask high = bitsBelow mask low := by
  induction order with
  | refl => rfl
  | step within ih => rw [bitsBelow_succ, ih, clear _ within, Bool.toNat_false, Nat.add_zero]

end Row

section Words

variable {word : BitVec 32} {mask : Vector (BitVec 32) 4} {place : Nat}

theorem countOnes_eq (word : BitVec 32) : countOnes word = (List.range 32).countP word.getLsbD := by
  have counted (length : Nat) :
      word.cpopNatRec length 0 = (List.range length).countP word.getLsbD := by
    induction length with
    | zero => rfl
    | succ length ih =>
      rw [BitVec.cpopNatRec_succ, BitVec.cpopNatRec_add, ih, List.range_succ, List.countP_append]
      cases bit : word.getLsbD length <;> simp [bit]
  rw [countOnes, BitVec.toNat_cpop, counted]

/-- The ones of a word below a bit. -/
theorem countOnes_low {bit : Nat} (inside : bit < 32) :
    countOnes (word &&& (BitVec.twoPow 32 bit - 1)) = (List.range bit).countP word.getLsbD := by
  have ones : (BitVec.twoPow 32 bit - 1).toNat = 2 ^ bit - 1 := by
    have least : (1 : BitVec 32) ≤ BitVec.twoPow 32 bit := by
      rw [BitVec.le_def, BitVec.toNat_twoPow_of_lt inside]
      exact Nat.one_le_two_pow
    rw [BitVec.toNat_sub_of_le least, BitVec.toNat_twoPow_of_lt inside]
    rfl
  have bits (place : Nat) : (BitVec.twoPow 32 bit - 1).getLsbD place = decide (place < bit) := by
    rw [← BitVec.testBit_toNat, ones, Nat.testBit_two_pow_sub_one]
  generalize BitVec.twoPow 32 bit - 1 = low at bits ⊢
  have split : List.range 32 = List.range bit ++ (List.range (32 - bit)).map (bit + ·) := by
    rw [← List.range_add, Nat.add_sub_cancel' inside.le]
  have below : (List.range bit).countP (word &&& low).getLsbD =
      (List.range bit).countP word.getLsbD :=
    List.countP_congr fun place listed => by simp [bits, List.mem_range.mp listed]
  have above : (List.range (32 - bit)).countP ((word &&& low).getLsbD ∘ (bit + ·)) = 0 :=
    List.countP_eq_zero.mpr fun place _ => by simp [bits]
  rw [countOnes_eq, split, List.countP_append, List.countP_map, below, above, Nat.add_zero]

theorem bitAt_word (mask : Vector (BitVec 32) 4) {count bit : Nat} (inside : count < 4)
    (low : bit < 32) : bitAt mask (32 * count + bit) = mask[count].getLsbD bit := by
  have quotient : (32 * count + bit) / 32 = count := by omega
  have rest : (32 * count + bit) % 32 = bit := by omega
  rw [bitAt, quotient, rest, Vector.getElem?_eq_getElem inside, Option.getD_some]

theorem bitAt_of_word (mask : Vector (BitVec 32) 4) {count : Fin 4} {place : Nat}
    (here : place / 32 = count) : bitAt mask place = mask[count].getLsbD (place % 32) := by
  have inside := bitAt_word mask count.isLt (Nat.mod_lt place (by decide : 0 < 32))
  have row : 32 * (count : Nat) + place % 32 = place := by omega
  rwa [row] at inside

/-- The bits below a place in a word are those of the words before it and those below it in the
word. -/
theorem bitsBelow_word (mask : Vector (BitVec 32) 4) {count bit : Nat} (inside : count < 4)
    (low : bit ≤ 32) :
    bitsBelow mask (32 * count + bit) =
      bitsBelow mask (32 * count) + (List.range bit).countP mask[count].getLsbD := by
  rw [bitsBelow, List.range_add, List.countP_append, List.countP_map, ← bitsBelow]
  refine congrArg _ (List.countP_congr fun place listed => ?_)
  rw [Function.comp_apply, bitAt_word mask inside ((List.mem_range.mp listed).trans_le low)]

/-- The ones of the first words are those in front of the other words. -/
theorem sum_countOnes (mask : Vector (BitVec 32) 4) {count : Nat} (inside : count ≤ 4) :
    ((mask.toList.take count).map countOnes).sum = bitsBelow mask (32 * count) := by
  induction count with
  | zero => rfl
  | succ count ih =>
    have word : mask.toList[count]? = some mask[count] := by
      rw [Vector.getElem?_toList, Vector.getElem?_eq_getElem]
    rw [List.take_add_one, word, List.map_append, List.sum_append, ih (by omega), Nat.mul_succ,
      bitsBelow_word mask inside le_rfl, ← countOnes_eq]
    rfl

/-- The ones of a mask. -/
theorem sum_countOnes_all (mask : Vector (BitVec 32) 4) :
    (mask.toList.map countOnes).sum = bitsBelow mask 128 := by
  have four := sum_countOnes mask (le_refl 4)
  rwa [List.take_of_length_le (by simp)] at four

variable {set : PropertySet} {property : Property}

theorem index_eq (property : Property) :
    32 * (wordOf property : Nat) + property.index % 32 = property.index :=
  Nat.div_add_mod property.index 32

theorem bit_lt (property : Property) : property.index % 32 < 32 :=
  Nat.mod_lt _ (by decide)

theorem slot_eq (set : PropertySet) (property : Property) :
    set.slot property = bitsBelow set.mask property.index := by
  have whole := bitsBelow_word set.mask (wordOf property).isLt (bit_lt property).le
  rw [index_eq] at whole
  show ((set.mask.toList.take (wordOf property)).map countOnes).sum + _ = _
  rw [sum_countOnes _ (wordOf property).isLt.le, bitOf, countOnes_low (bit_lt property), whole]
  rfl

theorem contains_eq (set : PropertySet) (property : Property) :
    set.contains property = bitAt set.mask property.index := by
  have bit : bitAt set.mask property.index =
      set.mask[wordOf property].getLsbD (property.index % 32) := bitAt_of_word set.mask rfl
  have someBit : BitVec.twoPow 32 (property.index % 32) ≠ 0#32 := by
    intro none
    have zero := congrArg BitVec.toNat none
    rw [BitVec.toNat_twoPow_of_lt (bit_lt property)] at zero
    exact (Nat.two_pow_pos _).ne' zero
  rw [contains, bit, bitOf, BitVec.and_twoPow]
  cases set.mask[wordOf property].getLsbD (property.index % 32) <;> simp [someBit]

/-- Only the place of a property is at the bit of its word. -/
theorem place_eq_iff {place : Nat} :
    place = property.index ↔ place / 32 = wordOf property ∧ place % 32 = property.index % 32 := by
  have placeEq := Nat.div_add_mod place 32
  have propertyEq := index_eq property
  constructor
  · rintro rfl
    exact ⟨rfl, rfl⟩
  · rintro ⟨word, bit⟩
    rw [← placeEq, word, bit, propertyEq]

/-- Writing a word changes the places of that word and no others. -/
theorem bitAt_set (mask : Vector (BitVec 32) 4) (count : Fin 4) (word : BitVec 32) (place : Nat) :
    bitAt (mask.set count word) place =
      if place / 32 = count then word.getLsbD (place % 32) else bitAt mask place := by
  rw [bitAt, Vector.getElem?_set, bitAt]
  by_cases same : (count : Nat) = place / 32
  · rw [if_pos same, if_pos same.symm, Option.getD_some]
  · rw [if_neg same, if_neg (Ne.symm same)]

theorem getLsbD_bitOf (property : Property) (bit : Nat) :
    (bitOf property).getLsbD bit = decide (bit = property.index % 32) := by
  rw [bitOf, BitVec.getLsbD_twoPow, decide_eq_true (bit_lt property), Bool.true_and]
  exact decide_eq_decide.mpr eq_comm

/-- What is done to a bit of a word is done to its place in the row, and to no other place. -/
theorem bitAt_set_word {count : Fin 4} (home : count = wordOf property)
    (mask : Vector (BitVec 32) 4) (word : BitVec 32) (change : Bool → Bool → Bool)
    (bits : ∀ bit < 32, word.getLsbD bit =
      change (mask[count].getLsbD bit) (decide (bit = property.index % 32)))
    (kept : ∀ bit, change bit false = bit) (place : Nat) :
    bitAt (mask.set count word) place =
      change (bitAt mask place) (decide (place = property.index)) := by
  rw [bitAt_set]
  by_cases here : place / 32 = count
  · rw [if_pos here, bits _ (Nat.mod_lt _ (by decide)), ← bitAt_of_word mask here]
    rw [home] at here
    exact congrArg _ (decide_eq_decide.mpr (by rw [place_eq_iff, and_iff_right here]))
  · have elsewhere : place ≠ property.index := fun same => here (home ▸ (place_eq_iff.mp same).1)
    rw [if_neg here, decide_eq_false elsewhere, kept]

/-- A mask with one bit more than another. -/
structure Raised (mask raised : Vector (BitVec 32) 4) (place : Nat) : Prop where
  absent : bitAt mask place = false
  bits : ∀ other, bitAt raised other = (bitAt mask other || decide (other = place))

/-- Inserting a property raises its one bit, and hence the index of every later value by one. -/
theorem raised_insert {count : Fin 4} (home : count = wordOf property)
    (absent : bitAt mask property.index = false) :
    Raised mask (mask.set count (mask[count] ||| bitOf property)) property.index := by
  refine ⟨absent, bitAt_set_word home mask _ or (fun bit _ => ?_) Bool.or_false⟩
  rw [BitVec.getLsbD_or, getLsbD_bitOf]

/-- Removing it lowers them again. -/
theorem raised_remove {count : Fin 4} (home : count = wordOf property)
    (present : bitAt mask property.index = true) :
    Raised (mask.set count (mask[count] &&& ~~~bitOf property)) mask property.index := by
  have bits (bit : Nat) (inside : bit < 32) :
      (mask[count] &&& ~~~bitOf property).getLsbD bit =
        (mask[count].getLsbD bit && !decide (bit = property.index % 32)) := by
    rw [BitVec.getLsbD_and, BitVec.getLsbD_not, getLsbD_bitOf, decide_eq_true inside, Bool.true_and]
  have cleared := bitAt_set_word home mask (mask[count] &&& ~~~bitOf property)
    (fun old here => old && !here) bits Bool.and_true
  constructor
  · rw [cleared, decide_eq_true rfl, Bool.not_true, Bool.and_false]
  · intro other
    rw [cleared]
    by_cases same : other = property.index
    · rw [same, present, decide_eq_true rfl, Bool.or_true]
    · rw [decide_eq_false same, Bool.not_false, Bool.and_true, Bool.or_false]

/-- A bit adds one to what is counted behind it. -/
theorem Raised.bitsBelow {raised : Vector (BitVec 32) 4} (step : Raised mask raised place)
    (high : Nat) :
    bitsBelow raised high = bitsBelow mask high + (decide (place < high)).toNat := by
  induction high with
  | zero => simp [PropertySet.bitsBelow]
  | succ high ih =>
    rw [bitsBelow_succ, bitsBelow_succ, ih, step.bits]
    rcases Nat.lt_trichotomy place high with below | rfl | above
    · have apart : high ≠ place := below.ne'
      have counted : place < high + 1 := below.trans (Nat.lt_succ_self high)
      simp [below, apart, counted]
      omega
    · simp [step.absent]
    · have apart : high ≠ place := above.ne
      have low : ¬place < high := by omega
      have uncounted : ¬place < high + 1 := by omega
      simp [apart, low, uncounted]

end Words

end PropertySet

end StyleCascade
