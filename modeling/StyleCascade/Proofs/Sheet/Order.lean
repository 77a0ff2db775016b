import Mathlib.Data.List.Lex
import StyleCascade.Sheet.Store

namespace StyleCascade

namespace CascadeKey

variable {a b c : CascadeKey}

theorem beats_iff : a.beats b = true ↔ b.rank < a.rank :=
  decide_eq_true_iff

theorem not_beats_iff : a.beats b = false ↔ a.rank ≤ b.rank := by
  rw [← not_lt, ← beats_iff, Bool.not_eq_true]

theorem beats_trans (first : a.beats b = true) (second : b.beats c = true) : a.beats c = true :=
  beats_iff.mpr (lt_trans (beats_iff.mp second) (beats_iff.mp first))

theorem not_beats_of_beats (stronger : a.beats b = true) : b.beats a = false :=
  not_beats_iff.mpr (le_of_lt (beats_iff.mp stronger))

theorem not_beats_trans (first : b.beats a = false) (second : c.beats b = false) :
    c.beats a = false :=
  not_beats_iff.mpr (le_trans (not_beats_iff.mp second) (not_beats_iff.mp first))

/-- Keys of different rank are strictly ordered. -/
theorem beats_of_not_beats (weaker : b.beats a = false) (apart : a.rank ≠ b.rank) :
    a.beats b = true :=
  beats_iff.mpr (lt_of_le_of_ne (not_beats_iff.mp weaker) (Ne.symm apart))

theorem sequence_eq_of_rank_eq (same : a.rank = b.rank) : a.sequence = b.sequence := by
  simp only [rank, List.cons.injEq, and_true] at same
  exact same.2.2.2.2.2.2.2

theorem inline_eq_of_rank_eq (same : a.rank = b.rank) : a.inline = b.inline := by
  simp only [rank, List.cons.injEq, and_true] at same
  have counts := same.2.2.1
  cases one : a.inline <;> cases other : b.inline <;> simp_all

theorem important_eq_of_rank_eq (same : a.rank = b.rank) : a.important = b.important := by
  simp only [rank, List.cons.injEq, and_true] at same
  have counts := same.1
  cases one : a.important <;> cases other : b.important <;> simp_all

section Place

variable {α : Type} {key : α → CascadeKey} {item other : α} {entries : List α}

/-- In cascade order, the strongest first. -/
def Sorted (key : α → CascadeKey) (entries : List α) : Prop :=
  entries.Pairwise (fun one other => (key one).beats (key other) = true)

theorem place_perm (key : α → CascadeKey) (item : α) (entries : List α) :
    (place key item entries).Perm (item :: entries) := by
  induction entries with
  | nil => exact .refl _
  | cons first rest ih =>
    unfold place
    split
    · exact (ih.cons first).trans (.swap item first rest)
    · exact .refl _

theorem mem_place : other ∈ place key item entries ↔ other = item ∨ other ∈ entries :=
  (place_perm key item entries).mem_iff.trans List.mem_cons

theorem place_ne_nil (key : α → CascadeKey) (item : α) (entries : List α) :
    place key item entries ≠ [] :=
  List.ne_nil_of_mem (mem_place.mpr (Or.inl rfl))

/-- Placing keeps a list strictly sorted when the new rank is not in it. -/
theorem place_sorted (sorted : Sorted key entries)
    (apart : ∀ other ∈ entries, (key item).rank ≠ (key other).rank) :
    Sorted key (place key item entries) := by
  induction entries with
  | nil => exact List.pairwise_singleton _ _
  | cons first rest ih =>
    obtain ⟨firstBeats, sortedRest⟩ := List.pairwise_cons.mp sorted
    unfold place
    split
    · next stronger =>
      refine List.pairwise_cons.mpr ⟨?_, ?_⟩
      · intro other listed
        rcases mem_place.mp listed with rfl | old
        · exact stronger
        · exact firstBeats other old
      · exact ih sortedRest fun other old => apart other (List.mem_cons_of_mem _ old)
    · next weaker =>
      have itemBeats : (key item).beats (key first) = true :=
        beats_of_not_beats (Bool.eq_false_iff.mpr weaker) (apart first List.mem_cons_self)
      refine List.pairwise_cons.mpr ⟨?_, sorted⟩
      intro other listed
      rcases List.mem_cons.mp listed with rfl | old
      · exact itemBeats
      · exact beats_trans itemBeats (firstBeats other old)

theorem filter_place_of_false (key : α → CascadeKey) (p : α → Bool) (dropped : p item = false)
    (entries : List α) :
    (place key item entries).filter p = entries.filter p := by
  induction entries with
  | nil => simp [place, dropped]
  | cons first rest ih =>
    unfold place
    split
    · rw [List.filter_cons, List.filter_cons, ih]
    · rw [List.filter_cons, if_neg (by simp [dropped])]

/-- An item that beats the head of a sorted list comes first in what is left of the list. -/
theorem place_eq_cons (weaker : ∀ other ∈ entries, (key other).beats (key item) = false) :
    place key item entries = item :: entries := by
  cases entries with
  | nil => rfl
  | cons first rest =>
    have behind := weaker first List.mem_cons_self
    rw [place, if_neg (by simp [behind])]

/-- Placing and filtering can be swapped for an item that stays. -/
theorem filter_place_of_true (p : α → Bool) (kept : p item = true)
    (sorted : Sorted key entries) :
    (place key item entries).filter p = place key item (entries.filter p) := by
  induction entries with
  | nil => simp [place, kept]
  | cons first rest ih =>
    obtain ⟨firstBeats, sortedRest⟩ := List.pairwise_cons.mp sorted
    by_cases stronger : (key first).beats (key item) = true
    · rw [place, if_pos stronger, List.filter_cons, List.filter_cons, ih sortedRest]
      split
      · rw [place, if_pos stronger]
      · rfl
    · -- all that comes behind is weaker than the item, so is all that is left of it
      have weaker : ∀ other ∈ first :: rest, (key other).beats (key item) = false := by
        intro other listed
        rcases List.mem_cons.mp listed with rfl | old
        · exact Bool.eq_false_iff.mpr stronger
        · exact not_beats_trans (Bool.eq_false_iff.mpr stronger)
            (not_beats_of_beats (firstBeats other old))
      rw [place_eq_cons weaker, List.filter_cons, if_pos kept, place_eq_cons fun other listed =>
        weaker other (List.mem_filter.mp listed).1]

/-- Placing and renaming items commute if the renamed item compares as before with all others. -/
theorem map_place_of_mem {β : Type} {otherKey : β → CascadeKey} {f : α → β}
    (same : ∀ other ∈ entries, (otherKey (f other)).beats (otherKey (f item)) =
      (key other).beats (key item)) :
    (place key item entries).map f = place otherKey (f item) (entries.map f) := by
  induction entries with
  | nil => rfl
  | cons first rest ih =>
    have sameFirst := same first List.mem_cons_self
    have sameRest := ih fun other old => same other (List.mem_cons_of_mem _ old)
    rw [List.map_cons, place, place, sameFirst]
    split
    · rw [List.map_cons, sameRest]
    · rfl

/-- Placing depends on the comparisons alone: a map that keeps them can be taken before or after. -/
theorem map_place {β : Type} {otherKey : β → CascadeKey} {f : α → β}
    (same : ∀ one other, (otherKey (f one)).beats (otherKey (f other)) =
      (key one).beats (key other)) (item : α) (entries : List α) :
    (place key item entries).map f = place otherKey (f item) (entries.map f) :=
  map_place_of_mem fun other _ => same other item

theorem place_comm_of_beats (stronger : (key item).beats (key other) = true) (entries : List α) :
    place key item (place key other entries) = place key other (place key item entries) := by
  have weaker : ¬(key other).beats (key item) = true := by
    rw [not_beats_of_beats stronger]
    exact Bool.false_ne_true
  induction entries with
  | nil =>
    have first : place key item [other] = [item, other] := if_neg weaker
    have second : place key other [item] = [item, other] := if_pos stronger
    exact first.trans second.symm
  | cons first rest ih =>
    by_cases firstBeats : (key first).beats (key item) = true
    · have both := beats_trans firstBeats stronger
      simp only [place, if_pos firstBeats, if_pos both, ih]
    · -- the stronger item goes to the front, whatever the other one did
      have front : place key item (first :: rest) = item :: first :: rest := if_neg firstBeats
      rw [front]
      by_cases above : (key first).beats (key other) = true
      · simp only [place, if_pos above, if_neg firstBeats, if_pos stronger]
      · simp only [place, if_neg above, if_neg weaker, if_pos stronger]

/-- Of two items with different ranks either can be placed first. -/
theorem place_comm (apart : (key item).rank ≠ (key other).rank) (entries : List α) :
    place key item (place key other entries) = place key other (place key item entries) := by
  rcases lt_or_gt_of_ne apart with weaker | stronger
  · exact (place_comm_of_beats (beats_iff.mpr weaker) entries).symm
  · exact place_comm_of_beats (beats_iff.mpr stronger) entries

/-- There is one way to put items of different ranks in order. -/
theorem Sorted.eq_of_perm {others : List α} (sorted : Sorted key entries)
    (again : Sorted key others) (perm : entries.Perm others) : entries = others := by
  refine perm.eq_of_pairwise ?_ sorted again
  intro one two _ _ first second
  rw [not_beats_of_beats first] at second
  cases second

end Place

end CascadeKey

end StyleCascade
