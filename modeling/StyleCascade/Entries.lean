namespace StyleCascade

/-- Keys with values. -/
abbrev Entries (κ α : Type) := List (κ × α)

namespace Entries

/-- Gives a key a value: in place of its first entry, or else at the end. -/
def put {κ α : Type} [BEq κ] (key : κ) (value : α) : Entries κ α → Entries κ α
  | [] => [(key, value)]
  | (other, old) :: rest =>
    if other == key then (key, value) :: rest else (other, old) :: put key value rest

/-- Writing a key answers that key with the new value and every other key as before. -/
theorem lookup_put {κ α : Type} [BEq κ] [LawfulBEq κ] (key other : κ) (value : α)
    (entries : Entries κ α) :
    (put key value entries).lookup other =
      if other == key then some value else entries.lookup other := by
  induction entries with
  | nil => simp only [put, List.lookup_cons, List.lookup_nil]; split <;> simp_all
  | cons first rest ih =>
    obtain ⟨name, old⟩ := first
    by_cases found : name = key
    · subst found
      cases asked : other == name <;> simp [put, List.lookup_cons, asked]
    · cases asked : other == name with
      | true =>
        have same := eq_of_beq asked
        subst same
        simp [put, found]
      | false => simp [put, List.lookup_cons, found, asked, ih]

/-- Writing adds its key to the keys and takes none away. -/
theorem mem_keys_put {κ α : Type} [BEq κ] [LawfulBEq κ] (key other : κ) (value : α)
    (entries : Entries κ α) :
    other ∈ (put key value entries).map Prod.fst ↔ other = key ∨ other ∈ entries.map Prod.fst := by
  induction entries with
  | nil => simp [put]
  | cons first rest ih =>
    obtain ⟨name, old⟩ := first
    by_cases found : name = key
    · subst found
      simp [put]
    · simp only [put, beq_iff_eq, found, if_false, List.map_cons, List.mem_cons, ih]
      rw [or_left_comm]

/-- Putting keeps keys apart. -/
theorem nodup_keys_put {κ α : Type} [BEq κ] [LawfulBEq κ] (key : κ) (value : α)
    {entries : Entries κ α} (apart : (entries.map Prod.fst).Nodup) :
    ((put key value entries).map Prod.fst).Nodup := by
  induction entries with
  | nil => simp [put]
  | cons first rest ih =>
    obtain ⟨name, old⟩ := first
    have parts := List.nodup_cons.mp apart
    by_cases found : name = key
    · subst found
      simpa [put] using apart
    · simp only [put, beq_iff_eq, found, if_false, List.map_cons]
      refine List.nodup_cons.mpr ⟨?_, ih parts.2⟩
      intro member
      rcases (mem_keys_put key name value rest).mp member with same | old
      · exact found same
      · exact parts.1 old

end Entries

end StyleCascade
