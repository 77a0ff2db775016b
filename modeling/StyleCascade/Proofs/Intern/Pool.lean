import StyleCascade.Intern.Pool

namespace StyleCascade

namespace Entries

variable {κ α : Type} [BEq κ] [LawfulBEq κ]

theorem mem_of_lookup {entries : Entries κ α} {key : κ} {value : α}
    (found : entries.lookup key = some value) : (key, value) ∈ entries := by
  obtain ⟨before, after, split, _⟩ := List.lookup_eq_some_iff.mp found
  rw [split]
  exact List.mem_append_right _ List.mem_cons_self

theorem lookup_eq_some_iff {entries : Entries κ α} (apart : (entries.map Prod.fst).Nodup)
    {key : κ} {value : α} : entries.lookup key = some value ↔ (key, value) ∈ entries := by
  induction entries with
  | nil => simp
  | cons first rest ih =>
    obtain ⟨name, old⟩ := first
    obtain ⟨absent, apartRest⟩ := List.nodup_cons.mp apart
    by_cases same : key = name
    · subst same
      have behind : (key, value) ∉ rest := fun member =>
        absent (List.mem_map.mpr ⟨(key, value), member, rfl⟩)
      simp [behind, eq_comm]
    · have other : (key == name) = false := beq_false_of_ne same
      rw [List.lookup_cons, other, List.mem_cons, Prod.mk.injEq, ih apartRest]
      simp [same]

/-- Writing into a list with one entry a key replaces the entry of that key and no other. -/
theorem mem_put_iff {entries : Entries κ α} (apart : (entries.map Prod.fst).Nodup)
    {key other : κ} {value found : α} :
    (other, found) ∈ put key value entries ↔
      other = key ∧ found = value ∨ other ≠ key ∧ (other, found) ∈ entries := by
  rw [← lookup_eq_some_iff (nodup_keys_put key value apart), lookup_put]
  by_cases same : other = key
  · simp [same, eq_comm]
  · simp [same, lookup_eq_some_iff apart]

end Entries

namespace Pool

variable {κ α : Type}

/-- One entry for each key, and one address for each entry. -/
structure Sound (pool : Pool κ α) : Prop where
  keys : (pool.entries.map Prod.fst).Nodup
  fresh : ∀ entry ∈ pool.entries, entry.2.address < pool.next
  addresses : ∀ one ∈ pool.entries, ∀ other ∈ pool.entries,
    one.2.address = other.2.address → one = other

theorem Sound.empty : (Pool.empty : Pool κ α).Sound where
  keys := List.nodup_nil
  fresh := by simp [Pool.empty]
  addresses := by simp [Pool.empty]

theorem Sound.purge {pool : Pool κ α} (sound : pool.Sound) (alive : Alive) :
    (pool.purge alive).Sound where
  keys := sound.keys.sublist (List.filter_sublist.map _)
  fresh entry member := sound.fresh entry (List.mem_filter.mp member).1
  addresses one isOne other isOther :=
    sound.addresses one (List.mem_filter.mp isOne).1 other (List.mem_filter.mp isOther).1

theorem mem_purge_iff {pool : Pool κ α} {alive : Alive} {entry : κ × Handle α} :
    entry ∈ (pool.purge alive).entries ↔ entry ∈ pool.entries ∧ alive entry.2.address = true :=
  List.mem_filter

variable [BEq κ] [LawfulBEq κ] {pool : Pool κ α} {alive : Alive} {key : κ} {value : α}

/-- A lookup finds an entry exactly when it is listed and somebody holds it. -/
theorem get?_eq_some_iff (sound : pool.Sound) {handle : Handle α} :
    pool.get? alive key = some handle ↔
      (key, handle) ∈ pool.entries ∧ alive handle.address = true := by
  rw [get?, Option.filter_eq_some_iff, Entries.lookup_eq_some_iff sound.keys]

/-- What interning does: it hands out the live handle of the key and changes nothing, or it makes a
new one while none is live. -/
theorem intern_cases (sound : pool.Sound) (alive : Alive) (key : κ) (value : α) :
    (∃ handle, (key, handle) ∈ pool.entries ∧ alive handle.address = true ∧
      pool.intern alive key value = (handle, pool)) ∨
    ((∀ handle, (key, handle) ∈ pool.entries → alive handle.address = false) ∧
      pool.intern alive key value =
        (⟨pool.next, value⟩, ⟨Entries.put key ⟨pool.next, value⟩ pool.entries, pool.next + 1⟩)) := by
  unfold intern
  cases got : pool.get? alive key with
  | some handle =>
    obtain ⟨listed, live⟩ := (get?_eq_some_iff sound).mp got
    exact Or.inl ⟨handle, listed, live, rfl⟩
  | none =>
    refine Or.inr ⟨fun handle listed => ?_, rfl⟩
    cases live : alive handle.address with
    | false => rfl
    | true =>
      rw [(get?_eq_some_iff sound).mpr ⟨listed, live⟩] at got
      cases got

/-- A handle that somebody holds is given out again. -/
theorem intern_of_alive (sound : pool.Sound) {handle : Handle α}
    (listed : (key, handle) ∈ pool.entries) (live : alive handle.address = true) :
    pool.intern alive key value = (handle, pool) := by
  have given : pool.get? alive key = some handle := (get?_eq_some_iff sound).mpr ⟨listed, live⟩
  rw [intern, given]

theorem Sound.intern (sound : pool.Sound) : (pool.intern alive key value).2.Sound := by
  rcases intern_cases sound alive key value with
    ⟨handle, _, _, run⟩ | ⟨_, run⟩
  · rw [run]; exact sound
  rw [run]
  have freshApart : ∀ entry ∈ pool.entries, entry.2.address ≠ pool.next :=
    fun entry member => Nat.ne_of_lt (sound.fresh entry member)
  refine ⟨Entries.nodup_keys_put _ _ sound.keys, ?_, ?_⟩
  · rintro ⟨other, handle⟩ member
    rcases (Entries.mem_put_iff sound.keys).mp member with ⟨rfl, rfl⟩ | ⟨_, old⟩
    · exact Nat.lt_succ_self _
    · exact Nat.lt_succ_of_lt (sound.fresh _ old)
  · rintro ⟨oneKey, one⟩ isOne ⟨otherKey, other⟩ isOther same
    rcases (Entries.mem_put_iff sound.keys).mp isOne with ⟨rfl, rfl⟩ | ⟨_, oldOne⟩
    · rcases (Entries.mem_put_iff sound.keys).mp isOther with ⟨rfl, rfl⟩ | ⟨_, oldOther⟩
      · rfl
      · exact absurd same.symm (freshApart _ oldOther)
    · rcases (Entries.mem_put_iff sound.keys).mp isOther with ⟨rfl, rfl⟩ | ⟨_, oldOther⟩
      · exact absurd same (freshApart _ oldOne)
      · exact sound.addresses _ oldOne _ oldOther same

/-- The handle given out is the one for its key. -/
theorem mem_intern (sound : pool.Sound) (alive : Alive) (key : κ) (value : α) :
    (key, (pool.intern alive key value).1) ∈ (pool.intern alive key value).2.entries := by
  rcases intern_cases sound alive key value with
    ⟨handle, listed, _, run⟩ | ⟨_, run⟩
  · rw [run]; exact listed
  · rw [run]
    exact (Entries.mem_put_iff sound.keys).mpr (Or.inl ⟨rfl, rfl⟩)

/-- Interning forgets no handle that somebody holds. -/
theorem mem_intern_of_alive (sound : pool.Sound) {other : κ} {handle : Handle α}
    (listed : (other, handle) ∈ pool.entries) (live : alive handle.address = true) :
    (other, handle) ∈ (pool.intern alive key value).2.entries := by
  rcases intern_cases sound alive key value with
    ⟨_, _, _, run⟩ | ⟨dead, run⟩
  · rw [run]; exact listed
  · rw [run]
    refine (Entries.mem_put_iff sound.keys).mpr (Or.inr ⟨?_, listed⟩)
    rintro rfl
    rw [dead handle listed] at live
    cases live

/-- A pool gets no entries but the one that is asked for. -/
theorem mem_of_mem_intern (sound : pool.Sound) {other : κ} {handle : Handle α}
    (listed : (other, handle) ∈ (pool.intern alive key value).2.entries) :
    (other, handle) ∈ pool.entries ∨ other = key ∧ handle.value = value := by
  rcases intern_cases sound alive key value with
    ⟨_, _, _, run⟩ | ⟨_, run⟩
  · rw [run] at listed; exact Or.inl listed
  · rw [run] at listed
    rcases (Entries.mem_put_iff sound.keys).mp listed with ⟨rfl, rfl⟩ | ⟨_, old⟩
    · exact Or.inr ⟨rfl, rfl⟩
    · exact Or.inl old

end Pool

end StyleCascade
