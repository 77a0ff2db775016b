import StyleCascade.Proofs.Intern.Desk
import StyleCascade.Proofs.Intern.ValuePool

namespace StyleCascade

namespace Pool

variable {κ α : Type} [DecidableEq κ]

/-- A pool takes a key with the value that is made if the key has none. -/
def desk : Desk (Pool κ α) (κ × α) κ κ α where
  key := Prod.fst
  value := Prod.snd
  asked := id
  intern pool alive offer := pool.intern alive offer.1 offer.2
  get? := get?
  size := size
  purge := purge

theorem desk_lawful :
    (desk : Desk (Pool κ α) (κ × α) κ κ α).Lawful Sound Pool.entries Pool.next where
  intact sound := ⟨sound.keys, sound.fresh, sound.addresses⟩
  get sound _ _ _ := get?_eq_some_iff sound
  size _ _ := rfl
  intern sound _ _ := sound.intern
  listed sound alive offer := mem_intern sound alive offer.1 offer.2
  kept sound _ _ _ member live := mem_intern_of_alive sound member live
  cases sound alive offer := by
    rcases intern_cases sound alive offer.1 offer.2 with ⟨handle, member, live, run⟩ | ⟨dead, run⟩
    · exact Or.inl ⟨handle, member, live, congrArg Prod.fst run, congrArg (·.2.next) run⟩
    · exact Or.inr ⟨dead, congrArg Prod.fst run, congrArg (·.2.next) run⟩
  purge sound alive := sound.purge alive
  unforgotten _ _ _ member live := mem_purge_iff.mpr ⟨member, live⟩
  unmade _ _ := rfl

end Pool

namespace ValuePool

variable {α : Type} [DecidableEq α]

/-- A pool of values takes a value, which is its own key. There is no asking without one. -/
def desk : Desk (ValuePool α) α Empty α α where
  key := id
  value := id
  asked := nofun
  intern := intern
  get? _ _ := nofun
  size := size
  purge := purge

/-- The handles, each with its value for a key. -/
def entries (pool : ValuePool α) : Custody α α :=
  pool.handles.map (fun handle => (handle.value, handle))

omit [DecidableEq α] in
theorem mem_entries_iff {pool : ValuePool α} {value : α} {handle : Handle α} :
    (value, handle) ∈ pool.entries ↔ handle ∈ pool.handles ∧ handle.value = value := by
  rw [entries, List.mem_map]
  constructor
  · rintro ⟨_, member, same⟩
    cases same
    exact ⟨member, rfl⟩
  · rintro ⟨member, rfl⟩
    exact ⟨handle, member, rfl⟩

omit [DecidableEq α] in
/-- A pool of values is a pool whose keys are the values themselves. -/
theorem intact_entries {pool : ValuePool α} (sound : pool.Sound) (distinct : pool.Distinct) :
    pool.entries.Intact pool.next where
  keys := by
    have valuesOnce := distinct.nodup_values sound
    rw [entries, List.map_map]
    exact valuesOnce
  fresh := by
    rintro ⟨_, handle⟩ member
    exact sound.fresh handle (mem_entries_iff.mp member).1
  addresses := by
    rintro ⟨_, one⟩ isOne ⟨_, other⟩ isOther same
    obtain ⟨oneListed, rfl⟩ := mem_entries_iff.mp isOne
    obtain ⟨otherListed, rfl⟩ := mem_entries_iff.mp isOther
    rw [sound.addresses one oneListed other otherListed same]

theorem desk_lawful : (desk : Desk (ValuePool α) α Empty α α).Lawful
    (fun pool => pool.Sound ∧ pool.Distinct) entries ValuePool.next where
  intact := fun ⟨sound, distinct⟩ => intact_entries sound distinct
  get _ _ := nofun
  size pool alive := by
    rw [entries, List.countP_map]
    rfl
  intern := fun ⟨sound, distinct⟩ _ _ => ⟨sound.intern, distinct.intern sound⟩
  listed := fun ⟨sound, _⟩ alive value =>
    mem_entries_iff.mpr ⟨mem_intern sound, intern_value _ alive value⟩
  kept := by
    rintro pool ⟨sound, _⟩ alive value ⟨_, handle⟩ member live
    obtain ⟨listed, rfl⟩ := mem_entries_iff.mp member
    exact mem_entries_iff.mpr ⟨mem_intern_of_alive sound listed live, rfl⟩
  cases := by
    rintro pool ⟨sound, _⟩ alive value
    rcases intern_cases sound alive value with ⟨handle, member, same, live, run⟩ | ⟨dead, run⟩
    · exact Or.inl ⟨handle, mem_entries_iff.mpr ⟨member, same⟩, live, congrArg Prod.fst run,
        congrArg (·.2.next) run⟩
    · refine Or.inr ⟨fun handle member => ?_, congrArg Prod.fst run, congrArg (·.2.next) run⟩
      obtain ⟨listed, same⟩ := mem_entries_iff.mp member
      exact dead handle listed same
  purge := fun ⟨sound, distinct⟩ alive => ⟨sound.purge alive, distinct.purge alive⟩
  unforgotten := by
    rintro pool - alive ⟨_, handle⟩ member live
    obtain ⟨listed, same⟩ := mem_entries_iff.mp member
    exact mem_entries_iff.mpr ⟨mem_purge_iff.mpr ⟨listed, live⟩, same⟩
  unmade _ _ := rfl

end ValuePool

/-- Pools that are used from the start share what is held, and what they answer does not depend on
when they are purged. -/
theorem pools_faithful {κ α β : Type} [DecidableEq κ] [DecidableEq β] :
    (Pool.desk : Desk (Pool κ α) (κ × α) κ κ α).Faithful Pool.empty ∧
      ∀ hash : β → Nat, ValuePool.desk.Faithful (ValuePool.empty hash) :=
  ⟨Pool.desk_lawful.faithful Pool.Sound.empty, fun hash =>
    ValuePool.desk_lawful.faithful ⟨ValuePool.Sound.empty hash, ValuePool.Distinct.empty hash⟩⟩

-- All values have one hash here, and the dropped handle is found dead in the bucket of the live one.
example :
    Desk.answers ValuePool.desk.serve ⟨ValuePool.empty (fun _ : Nat => 0), []⟩
        [.intern 5, .intern 7, .intern 5, .drop 1, .size, .intern 7] =
      [.given ⟨0, 5⟩, .given ⟨1, 7⟩, .given ⟨0, 5⟩, .count 1, .given ⟨2, 7⟩] := by
  rfl

end StyleCascade
