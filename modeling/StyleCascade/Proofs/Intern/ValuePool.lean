import StyleCascade.Proofs.Intern.Pool
import Mathlib.Data.List.Nodup

namespace StyleCascade

namespace ValuePool

variable {α : Type}

theorem mem_handles_iff {pool : ValuePool α} {handle : Handle α} :
    handle ∈ pool.handles ↔ ∃ code bucket, (code, bucket) ∈ pool.buckets ∧ handle ∈ bucket := by
  simp [handles]

/-- One bucket for each hash, and one address for each handle. -/
structure Sound (pool : ValuePool α) : Prop where
  codes : (pool.buckets.map Prod.fst).Nodup
  hashed : ∀ code bucket, (code, bucket) ∈ pool.buckets →
    ∀ handle ∈ bucket, pool.hash handle.value = code
  fresh : ∀ handle ∈ pool.handles, handle.address < pool.next
  addresses : ∀ one ∈ pool.handles, ∀ other ∈ pool.handles,
    one.address = other.address → one = other

theorem Sound.empty (hash : α → Nat) : (ValuePool.empty hash).Sound where
  codes := List.nodup_nil
  hashed := by simp [ValuePool.empty]
  fresh := by simp [ValuePool.empty, handles]
  addresses := by simp [ValuePool.empty, handles]

variable {pool : ValuePool α} {alive : Alive} {value : α} {handle : Handle α}

/-- Purging filters every bucket by itself, so a bucket that is left stems from one with the same
hash. -/
theorem mem_buckets_purge {code : Nat} {bucket : List (Handle α)}
    (listed : (code, bucket) ∈ (pool.purge alive).buckets) :
    ∃ full, (code, full) ∈ pool.buckets ∧
      bucket = full.filter (fun handle => alive handle.address) := by
  obtain ⟨mapped, _⟩ := List.mem_filter.mp listed
  obtain ⟨⟨name, full⟩, isFull, same⟩ := List.mem_map.mp mapped
  obtain ⟨rfl, rfl⟩ := Prod.mk.inj same
  exact ⟨full, isFull, rfl⟩

/-- Purging forgets the dead handles and no other. -/
theorem mem_purge_iff :
    handle ∈ (pool.purge alive).handles ↔ handle ∈ pool.handles ∧ alive handle.address = true := by
  constructor
  · intro member
    obtain ⟨code, bucket, listed, inside⟩ := mem_handles_iff.mp member
    obtain ⟨full, isFull, rfl⟩ := mem_buckets_purge listed
    obtain ⟨old, live⟩ := List.mem_filter.mp inside
    exact ⟨mem_handles_iff.mpr ⟨code, full, isFull, old⟩, live⟩
  · rintro ⟨member, live⟩
    obtain ⟨code, full, isFull, inside⟩ := mem_handles_iff.mp member
    have kept : handle ∈ full.filter (fun handle => alive handle.address) :=
      List.mem_filter.mpr ⟨inside, live⟩
    refine mem_handles_iff.mpr ⟨code, _, List.mem_filter.mpr ⟨?_, ?_⟩, kept⟩
    · exact List.mem_map.mpr ⟨(code, full), isFull, rfl⟩
    · cases filtered : full.filter (fun handle => alive handle.address) with
      | nil => rw [filtered] at kept; cases kept
      | cons first rest => rfl

theorem Sound.purge (sound : pool.Sound) (alive : Alive) : (pool.purge alive).Sound where
  codes := by
    have keysKept :
        ((pool.purge alive).buckets.map Prod.fst).Sublist (pool.buckets.map Prod.fst) := by
      refine (List.filter_sublist.map Prod.fst).trans ?_
      rw [List.map_map]
      exact List.Sublist.refl _
    exact sound.codes.sublist keysKept
  hashed code bucket listed handle inside := by
    obtain ⟨full, isFull, rfl⟩ := mem_buckets_purge listed
    exact sound.hashed code full isFull handle (List.mem_filter.mp inside).1
  fresh handle member := sound.fresh handle (mem_purge_iff.mp member).1
  addresses one isOne other isOther :=
    sound.addresses one (mem_purge_iff.mp isOne).1 other (mem_purge_iff.mp isOther).1

/-- The bucket of a hash holds all living handles of that hash, and no others. -/
theorem mem_bucket_iff (sound : pool.Sound) {code : Nat} :
    handle ∈ pool.bucket alive code ↔
      handle ∈ pool.handles ∧ pool.hash handle.value = code ∧ alive handle.address = true := by
  rw [bucket, List.mem_filter, ← and_assoc]
  refine and_congr_left fun _ => ?_
  constructor
  · intro inside
    cases found : pool.buckets.lookup code with
    | none => rw [found] at inside; cases inside
    | some full =>
      rw [found] at inside
      have listed := (Entries.lookup_eq_some_iff sound.codes).mp found
      exact ⟨mem_handles_iff.mpr ⟨code, full, listed, inside⟩,
        sound.hashed code full listed handle inside⟩
  · rintro ⟨member, rfl⟩
    obtain ⟨code, full, listed, inside⟩ := mem_handles_iff.mp member
    rw [sound.hashed code full listed handle inside,
      (Entries.lookup_eq_some_iff sound.codes).mpr listed]
    exact inside

/-- Replacing the bucket of a hash leaves the handles of other hashes alone. -/
theorem mem_handles_put_iff (sound : pool.Sound) {code next : Nat} {bucket : List (Handle α)} :
    handle ∈ ({ pool with
        buckets := Entries.put code bucket pool.buckets, next := next } : ValuePool α).handles ↔
      handle ∈ bucket ∨ pool.hash handle.value ≠ code ∧ handle ∈ pool.handles := by
  rw [mem_handles_iff]
  constructor
  · rintro ⟨other, full, listed, inside⟩
    rcases (Entries.mem_put_iff sound.codes).mp listed with ⟨rfl, rfl⟩ | ⟨apart, old⟩
    · exact Or.inl inside
    · rw [sound.hashed other full old handle inside]
      exact Or.inr ⟨apart, mem_handles_iff.mpr ⟨other, full, old, inside⟩⟩
  · rintro (inside | ⟨apart, member⟩)
    · exact ⟨code, bucket, (Entries.mem_put_iff sound.codes).mpr (Or.inl ⟨rfl, rfl⟩), inside⟩
    · obtain ⟨other, full, old, inside⟩ := mem_handles_iff.mp member
      rw [sound.hashed other full old handle inside] at apart
      exact ⟨other, full, (Entries.mem_put_iff sound.codes).mpr (Or.inr ⟨apart, old⟩), inside⟩

/-- No bucket has two handles with equal values. -/
def Distinct (pool : ValuePool α) : Prop :=
  ∀ code bucket, (code, bucket) ∈ pool.buckets → (bucket.map Handle.value).Nodup

theorem Distinct.empty (hash : α → Nat) : (ValuePool.empty hash).Distinct := by
  simp [Distinct, ValuePool.empty]

/-- Equal values have equal hashes, so a value of one bucket is in no other bucket. -/
theorem Distinct.nodup_values (distinct : pool.Distinct) (sound : pool.Sound) :
    (pool.handles.map Handle.value).Nodup := by
  rw [handles, List.map_flatMap, List.nodup_flatMap]
  refine ⟨fun entry listed => distinct entry.1 entry.2 listed, ?_⟩
  refine (List.pairwise_map.mp sound.codes).imp_of_mem ?_
  rintro ⟨code, bucket⟩ ⟨other, full⟩ listed isFull apart value inside isInside
  obtain ⟨one, isOne, rfl⟩ := List.mem_map.mp inside
  obtain ⟨two, isTwo, same⟩ := List.mem_map.mp isInside
  have oneCode := sound.hashed code bucket listed one isOne
  have twoCode := sound.hashed other full isFull two isTwo
  exact apart (by rw [← oneCode, ← twoCode, same])

theorem Distinct.bucket (distinct : pool.Distinct) (sound : pool.Sound) (alive : Alive)
    (code : Nat) : ((pool.bucket alive code).map Handle.value).Nodup := by
  have full : (((pool.buckets.lookup code).getD []).map Handle.value).Nodup := by
    cases found : pool.buckets.lookup code with
    | none => exact List.nodup_nil
    | some bucket =>
      exact distinct code bucket ((Entries.lookup_eq_some_iff sound.codes).mp found)
  exact full.sublist (List.filter_sublist.map _)

theorem Distinct.purge (distinct : pool.Distinct) (alive : Alive) :
    (pool.purge alive).Distinct := by
  intro code bucket listed
  obtain ⟨full, isFull, rfl⟩ := mem_buckets_purge listed
  exact (distinct code full isFull).sublist (List.filter_sublist.map _)

variable [DecidableEq α]

/-- What interning hands out: a live handle with the value, or a new one while none is live. -/
theorem intern_cases (sound : pool.Sound) (alive : Alive) (value : α) :
    (∃ handle ∈ pool.handles, handle.value = value ∧ alive handle.address = true ∧
      pool.intern alive value = (handle,
        { pool with
          buckets := Entries.put (pool.hash value)
            (pool.bucket alive (pool.hash value)) pool.buckets })) ∨
    ((∀ handle ∈ pool.handles, handle.value = value → alive handle.address = false) ∧
      pool.intern alive value = (⟨pool.next, value⟩,
        { pool with
          buckets := Entries.put (pool.hash value)
            (pool.bucket alive (pool.hash value) ++ [⟨pool.next, value⟩]) pool.buckets
          next := pool.next + 1 })) := by
  cases found : (pool.bucket alive (pool.hash value)).find? (fun handle => handle.value = value) with
  | some handle =>
    obtain ⟨member, _, live⟩ := (mem_bucket_iff sound).mp (List.mem_of_find?_eq_some found)
    have same : handle.value = value := by simpa using List.find?_some found
    exact Or.inl ⟨handle, member, same, live, by simp only [intern, found]⟩
  | none =>
    refine Or.inr ⟨fun handle member same => ?_, by simp only [intern, found]⟩
    cases live : alive handle.address with
    | false => rfl
    | true =>
      have inside := (mem_bucket_iff sound).mpr ⟨member, congrArg pool.hash same, live⟩
      exact absurd (decide_eq_true same) (List.find?_eq_none.mp found handle inside)

theorem intern_value (pool : ValuePool α) (alive : Alive) (value : α) :
    (pool.intern alive value).1.value = value := by
  cases found : (pool.bucket alive (pool.hash value)).find? (fun handle => handle.value = value) with
  | some handle =>
    have same : handle.value = value := by simpa using List.find?_some found
    simp only [intern, found, same]
  | none => simp only [intern, found]

/-- A pool gets no handle but the one that is handed out. -/
theorem mem_of_mem_intern (sound : pool.Sound)
    (member : handle ∈ (pool.intern alive value).2.handles) :
    handle ∈ pool.handles ∨ handle = (pool.intern alive value).1 := by
  rcases intern_cases sound alive value with
    ⟨given, isGiven, same, _, run⟩ | ⟨_, run⟩
  · rw [run] at member
    rcases (mem_handles_put_iff sound).mp member with inside | ⟨_, old⟩
    · exact Or.inl ((mem_bucket_iff sound).mp inside).1
    · exact Or.inl old
  · rw [run] at member ⊢
    rcases (mem_handles_put_iff sound).mp member with inside | ⟨_, old⟩
    · rcases List.mem_append.mp inside with inside | new
      · exact Or.inl ((mem_bucket_iff sound).mp inside).1
      · exact Or.inr (List.mem_singleton.mp new)
    · exact Or.inl old

/-- Interning forgets no handle that somebody holds. -/
theorem mem_intern_of_alive (sound : pool.Sound) (member : handle ∈ pool.handles)
    (live : alive handle.address = true) : handle ∈ (pool.intern alive value).2.handles := by
  by_cases same : pool.hash handle.value = pool.hash value
  · have inside := (mem_bucket_iff sound).mpr ⟨member, same, live⟩
    rcases intern_cases sound alive value with
      ⟨given, _, _, _, run⟩ | ⟨_, run⟩
    · rw [run]
      exact (mem_handles_put_iff sound).mpr (Or.inl inside)
    · rw [run]
      exact (mem_handles_put_iff sound).mpr (Or.inl (List.mem_append_left _ inside))
  · rcases intern_cases sound alive value with
      ⟨given, _, _, _, run⟩ | ⟨_, run⟩
    · rw [run]
      exact (mem_handles_put_iff sound).mpr (Or.inr ⟨same, member⟩)
    · rw [run]
      exact (mem_handles_put_iff sound).mpr (Or.inr ⟨same, member⟩)

/-- The handle that is handed out is in the pool. -/
theorem mem_intern (sound : pool.Sound) :
    (pool.intern alive value).1 ∈ (pool.intern alive value).2.handles := by
  rcases intern_cases sound alive value with
    ⟨given, isGiven, same, live, run⟩ | ⟨_, run⟩
  · have kept : given ∈ (pool.intern alive value).2.handles :=
      mem_intern_of_alive sound isGiven live
    rw [run] at kept ⊢
    exact kept
  · rw [run]
    exact (mem_handles_put_iff sound).mpr
      (Or.inl (List.mem_append_right _ (List.mem_singleton.mpr rfl)))

/-- Whoever holds a handle with the value gets that one. -/
theorem intern_eq_of_alive (sound : pool.Sound)
    (only : ∀ other ∈ pool.handles, alive other.address = true → other.value = value →
      other = handle)
    (member : handle ∈ pool.handles) (live : alive handle.address = true)
    (same : handle.value = value) : (pool.intern alive value).1 = handle := by
  rcases intern_cases sound alive value with
    ⟨given, isGiven, hasValue, isLive, run⟩ | ⟨dead, run⟩
  · rw [run]
    exact only given isGiven isLive hasValue
  · rw [dead handle member same] at live
    cases live

/-- A new handle joins its bucket while no handle there has its value. -/
theorem Distinct.intern (distinct : pool.Distinct) (sound : pool.Sound) :
    (pool.intern alive value).2.Distinct := by
  have cleaned := distinct.bucket sound alive (pool.hash value)
  rcases intern_cases sound alive value with ⟨_, _, _, _, run⟩ | ⟨dead, run⟩
  · rw [run]
    intro code bucket listed
    rcases (Entries.mem_put_iff sound.codes).mp listed with ⟨_, rfl⟩ | ⟨_, before⟩
    · exact cleaned
    · exact distinct code bucket before
  · rw [run]
    intro code bucket listed
    rcases (Entries.mem_put_iff sound.codes).mp listed with ⟨_, rfl⟩ | ⟨_, before⟩
    · have absent : value ∉ (pool.bucket alive (pool.hash value)).map Handle.value := by
        intro inside
        obtain ⟨handle, isHandle, same⟩ := List.mem_map.mp inside
        obtain ⟨member, _, live⟩ := (mem_bucket_iff sound).mp isHandle
        rw [dead handle member same] at live
        cases live
      rw [List.map_append, List.map_singleton]
      refine List.nodup_append.mpr ⟨cleaned, List.nodup_singleton _, ?_⟩
      rintro one isOne other isOther rfl
      have newValue : one = value := List.mem_singleton.mp isOther
      exact absent (newValue ▸ isOne)
    · exact distinct code bucket before

theorem Sound.intern (sound : pool.Sound) : (pool.intern alive value).2.Sound := by
  have freshApart : ∀ handle ∈ pool.handles, handle.address ≠ pool.next :=
    fun handle member => Nat.ne_of_lt (sound.fresh handle member)
  rcases intern_cases sound alive value with
    ⟨given, isGiven, _, _, run⟩ | ⟨_, run⟩
  · have old : ∀ handle ∈ (pool.intern alive value).2.handles, handle ∈ pool.handles := by
      intro handle member
      rcases mem_of_mem_intern sound member with old | rfl
      · exact old
      · rw [run]; exact isGiven
    rw [run] at old ⊢
    refine ⟨Entries.nodup_keys_put _ _ sound.codes, ?_, ?_, ?_⟩
    · intro code bucket listed handle inside
      rcases (Entries.mem_put_iff sound.codes).mp listed with ⟨rfl, rfl⟩ | ⟨_, before⟩
      · exact ((mem_bucket_iff sound).mp inside).2.1
      · exact sound.hashed code bucket before handle inside
    · exact fun handle member => sound.fresh handle (old handle member)
    · exact fun one isOne other isOther =>
        sound.addresses one (old one isOne) other (old other isOther)
  · have old : ∀ handle ∈ (pool.intern alive value).2.handles,
        handle ∈ pool.handles ∨ handle = ⟨pool.next, value⟩ := by
      intro handle member
      have either := mem_of_mem_intern sound member
      rw [run] at either
      exact either
    rw [run] at old ⊢
    refine ⟨Entries.nodup_keys_put _ _ sound.codes, ?_, ?_, ?_⟩
    · intro code bucket listed handle inside
      rcases (Entries.mem_put_iff sound.codes).mp listed with ⟨rfl, rfl⟩ | ⟨_, before⟩
      · rcases List.mem_append.mp inside with inside | new
        · exact ((mem_bucket_iff sound).mp inside).2.1
        · rw [List.mem_singleton.mp new]
      · exact sound.hashed code bucket before handle inside
    · intro handle member
      rcases old handle member with before | rfl
      · exact Nat.lt_succ_of_lt (sound.fresh handle before)
      · exact Nat.lt_succ_self _
    · intro one isOne other isOther same
      rcases old one isOne with oneOld | rfl
      · rcases old other isOther with otherOld | rfl
        · exact sound.addresses one oneOld other otherOld same
        · exact absurd same (freshApart one oneOld)
      · rcases old other isOther with otherOld | rfl
        · exact absurd same.symm (freshApart other otherOld)
        · rfl

end ValuePool

end StyleCascade
