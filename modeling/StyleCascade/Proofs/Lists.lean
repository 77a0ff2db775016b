import Mathlib.Data.Option.Basic

namespace StyleCascade

variable {α β γ δ : Type}

section Prefixes

variable {p q : α → Bool} {entries front one other : List α}

/-- A list is cut at the same place by two tests that agree on its entries. -/
theorem takeWhile_of_agree (same : ∀ entry ∈ entries, p entry = q entry) :
    entries.takeWhile p = entries.takeWhile q := by
  induction entries with
  | nil => rfl
  | cons first rest ih =>
    rw [List.takeWhile_cons, List.takeWhile_cons, same first List.mem_cons_self,
      ih fun entry member => same entry (List.mem_cons_of_mem _ member)]

theorem takeWhile_of_stops (stops : ∀ entry ∈ other.head?, p entry = false) :
    other.takeWhile p = [] := by
  cases other with
  | nil => rfl
  | cons first rest =>
    rw [List.takeWhile_cons, stops first rfl]
    rfl

/-- A run that ends inside the front of a list ends there whatever follows, if that stops it. -/
theorem takeWhile_swap (stops : ∀ entry ∈ other.head?, p entry = false)
    (inside : ((front ++ one).takeWhile p).length ≤ front.length) :
    (front ++ other).takeWhile p = (front ++ one).takeWhile p := by
  induction front with
  | nil =>
    have none : one.takeWhile p = [] := List.eq_nil_of_length_eq_zero (Nat.le_zero.mp inside)
    rw [List.nil_append, List.nil_append, none, takeWhile_of_stops stops]
  | cons first rest ih =>
    rw [List.cons_append, List.takeWhile_cons] at inside
    rw [List.cons_append, List.cons_append, List.takeWhile_cons, List.takeWhile_cons]
    split at inside
    · next goes => rw [if_pos goes, if_pos goes, ih (Nat.le_of_succ_le_succ inside)]
    · next ends => rw [if_neg ends, if_neg ends]

end Prefixes

section Answers

theorem findSome?_of_agree {f g : α → Option β} {entries : List α}
    (same : ∀ entry ∈ entries, f entry = g entry) : entries.findSome? f = entries.findSome? g := by
  induction entries with
  | nil => rfl
  | cons first rest ih =>
    rw [List.findSome?_cons, List.findSome?_cons, same first List.mem_cons_self,
      ih fun entry member => same entry (List.mem_cons_of_mem _ member)]

/-- The entries that have an answer, beside their answers. -/
theorem zip_filter_filterMap (answer : α → Option β) (items : List α) :
    (items.filter (fun item => (answer item).isSome)).zip (items.filterMap answer) =
      items.filterMap (fun item => (answer item).map (fun value => (item, value))) := by
  induction items with
  | nil => rfl
  | cons item rest ih => cases given : answer item <;> simp [given, ih]

theorem optionRel_map {r : α → β → Prop} {s : γ → δ → Prop} {f : α → γ} {g : β → δ}
    {one : Option α} {other : Option β} (related : Option.Rel r one other)
    (carries : ∀ a b, r a b → s (f a) (g b)) : Option.Rel s (one.map f) (other.map g) := by
  cases related with
  | some here => exact .some (carries _ _ here)
  | none => exact .none

end Answers

/-- An entry is found where it was, if a list is copied by a function that tells it from the other
entries. -/
theorem idxOf?_map {place : Nat → Nat} {entries : List Nat} {entry : Nat}
    (apart : ∀ other ∈ entries, place other = place entry → other = entry) :
    (entries.map place).idxOf? (place entry) = entries.idxOf? entry := by
  induction entries with
  | nil => rfl
  | cons first rest ih =>
    have same : (place first == place entry) = (first == entry) := by
      rw [Bool.eq_iff_iff, beq_iff_eq, beq_iff_eq]
      exact ⟨apart first List.mem_cons_self, congrArg place⟩
    rw [List.map_cons, List.idxOf?_cons, List.idxOf?_cons, same,
      ih fun other member => apart other (List.mem_cons_of_mem _ member)]

end StyleCascade
