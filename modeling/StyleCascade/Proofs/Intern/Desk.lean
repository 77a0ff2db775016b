import StyleCascade.Proofs.Intern.Pool
import Mathlib.Data.List.Dedup

namespace StyleCascade

/-- The handles that are held, each with the key that it was asked for by. A handle that is held
twice is listed twice. -/
abbrev Custody (κ α : Type) := Entries κ (Handle α)

namespace Custody

variable {κ α : Type}

def alive (held : Custody κ α) : Alive :=
  Handle.alive (held.map Prod.snd)

theorem alive_iff {held : Custody κ α} {address : Nat} :
    held.alive address = true ↔ ∃ entry ∈ held, entry.2.address = address := by
  simp [alive, Handle.alive]

/-- The keys with a held handle, each once. -/
def keys [DecidableEq κ] (held : Custody κ α) : List κ :=
  (held.map Prod.fst).dedup

/-- Entries with one key for each, and one address for each. -/
structure Intact (entries : Custody κ α) (next : Nat) : Prop where
  keys : (entries.map Prod.fst).Nodup
  fresh : ∀ entry ∈ entries, entry.2.address < next
  addresses : ∀ one ∈ entries, ∀ other ∈ entries, one.2.address = other.2.address → one = other

section Held

variable {entries held : Custody κ α} {next : Nat} (intact : entries.Intact next)
  (listed : held ⊆ entries)

include intact listed

/-- Among the entries of a pool, those with an address that somebody holds are the held ones. -/
theorem Intact.alive_iff {entry : κ × Handle α} (member : entry ∈ entries) :
    held.alive entry.2.address = true ↔ entry ∈ held := by
  rw [Custody.alive_iff]
  constructor
  · rintro ⟨other, isHeld, same⟩
    exact intact.addresses other (listed isHeld) entry member same ▸ isHeld
  · exact fun isHeld => ⟨entry, isHeld, rfl⟩

variable [DecidableEq κ]

theorem Intact.held_once {key : κ} {one other : Handle α} (isOne : (key, one) ∈ held)
    (isOther : (key, other) ∈ held) : one = other := by
  have foundOne := (Entries.lookup_eq_some_iff intact.keys).mpr (listed isOne)
  have foundOther := (Entries.lookup_eq_some_iff intact.keys).mpr (listed isOther)
  exact Option.some.inj (foundOne.symm.trans foundOther)

theorem Intact.lookup_iff {key : κ} {handle : Handle α} :
    held.lookup key = some handle ↔ (key, handle) ∈ held := by
  refine ⟨Entries.mem_of_lookup, fun member => ?_⟩
  cases asked : held.lookup key with
  | none =>
    have unlike := List.lookup_eq_none_iff.mp asked _ member
    simp at unlike
  | some found =>
    rw [intact.held_once listed (Entries.mem_of_lookup asked) member]

/-- The live entries are as many as the keys with a held handle: both are counted without
repetition, and the same keys are in both. -/
theorem Intact.countP_alive :
    entries.countP (fun entry => held.alive entry.2.address) = held.keys.length := by
  have liveKeysOnce :
      ((entries.filter fun entry => held.alive entry.2.address).map Prod.fst).Nodup :=
    intact.keys.sublist (List.filter_sublist.map _)
  have sameKeys : ∀ key,
      key ∈ (entries.filter fun entry => held.alive entry.2.address).map Prod.fst ↔
        key ∈ held.keys := by
    intro key
    rw [Custody.keys, List.mem_dedup, List.mem_map, List.mem_map]
    refine exists_congr fun entry => and_congr_left fun _ => ?_
    rw [List.mem_filter]
    constructor
    · exact fun ⟨member, live⟩ => (intact.alive_iff listed member).mp live
    · exact fun isHeld =>
        ⟨listed isHeld, (intact.alive_iff listed (listed isHeld)).mpr isHeld⟩
  have perm := (List.perm_ext_iff_of_nodup liveKeysOnce (List.nodup_dedup _)).mpr sameKeys
  rw [List.countP_eq_length_filter, ← List.length_map Prod.fst]
  exact perm.length_eq

end Held

end Custody

/-- A pool as it is used: who offers something gets the handle of the offer's key, and who asks
with a key gets a handle only if there is one. -/
structure Desk (π ο γ κ α : Type) where
  key : ο → κ
  value : ο → α
  asked : γ → κ
  intern : π → Alive → ο → Handle α × π
  get? : π → Alive → γ → Option (Handle α)
  size : π → Alive → Nat
  purge : π → Alive → π

namespace Desk

variable {π ο γ κ α σ τ ρ ω : Type}

/-- What is done at a desk. A held handle is dropped by its place among the held ones. -/
inductive Request (ο γ : Type)
  | intern (offer : ο)
  | get (key : γ)
  | drop (place : Nat)
  | size
  | purge

def Request.isPurge : Request ο γ → Bool
  | purge => true
  | _ => false

inductive Answer (α : Type)
  | given (handle : Handle α)
  | found (handle : Option (Handle α))
  | count (number : Nat)

/-- A pool with the handles of it that are held. -/
structure Session (π κ α : Type) where
  pool : π
  held : Custody κ α

/-- Whoever is given a handle holds it from then on. -/
def serve (desk : Desk π ο γ κ α) (session : Session π κ α) :
    Request ο γ → Option (Answer α) × Session π κ α
  | .intern offer =>
    let (handle, pool) := desk.intern session.pool session.held.alive offer
    (some (.given handle), ⟨pool, (desk.key offer, handle) :: session.held⟩)
  | .get key =>
    let found := desk.get? session.pool session.held.alive key
    (some (.found found),
      { session with held := (found.map (Prod.mk (desk.asked key))).toList ++ session.held })
  | .drop place => (none, { session with held := session.held.eraseIdx place })
  | .size => (some (.count (desk.size session.pool session.held.alive)), session)
  | .purge => (none, { session with pool := desk.purge session.pool session.held.alive })

/-- What is answered to requests, one after another. -/
def answers (step : σ → ρ → Option ω × σ) : σ → List ρ → List ω
  | _, [] => []
  | state, request :: rest =>
    (step state request).1.toList ++ answers step (step state request).2 rest

/-- The state after requests. -/
def reached (step : σ → ρ → Option ω × σ) (state : σ) (requests : List ρ) : σ :=
  requests.foldl (fun state request => (step state request).2) state

/-- What holds at a desk at one moment: of each key one handle is held at most; who offers for that
key or asks for it gets this one, and if none is held an offer is made into a new one; and as many
are counted as there are keys with a held handle. -/
structure Shares [DecidableEq κ] (desk : Desk π ο γ κ α) (session : Session π κ α) : Prop where
  once : ∀ key one other, (key, one) ∈ session.held → (key, other) ∈ session.held → one = other
  apart : ∀ one ∈ session.held, ∀ other ∈ session.held,
    one.2.address = other.2.address → one = other
  again : ∀ offer handle, (desk.key offer, handle) ∈ session.held →
    (desk.intern session.pool session.held.alive offer).1 = handle
  anew : ∀ offer, (∀ handle, (desk.key offer, handle) ∉ session.held) →
    (desk.intern session.pool session.held.alive offer).1.value = desk.value offer ∧
      session.held.alive (desk.intern session.pool session.held.alive offer).1.address = false
  get : ∀ key handle, desk.get? session.pool session.held.alive key = some handle ↔
    (desk.asked key, handle) ∈ session.held
  size : desk.size session.pool session.held.alive = session.held.keys.length

/-- A pool that shares what is held, whatever is done with it: handles have values that were offered
for their keys, and what is answered does not depend on when the pool is purged. -/
structure Faithful [DecidableEq κ] (desk : Desk π ο γ κ α) (pool : π) : Prop where
  shares : ∀ requests, desk.Shares (reached desk.serve ⟨pool, []⟩ requests)
  offered : ∀ requests, ∀ entry ∈ (reached desk.serve ⟨pool, []⟩ requests).held,
    ∃ offer, .intern offer ∈ requests ∧ desk.key offer = entry.1 ∧
      desk.value offer = entry.2.value
  unpurged : ∀ requests, answers desk.serve ⟨pool, []⟩ requests =
    answers desk.serve ⟨pool, []⟩ (requests.filter fun request => !request.isPurge)

/-- The held handles, and how many values were made. -/
structure Ledger (κ α : Type) where
  held : Custody κ α
  made : Nat

/-- What a desk should answer. -/
def book [DecidableEq κ] (desk : Desk π ο γ κ α) (ledger : Ledger κ α) :
    Request ο γ → Option (Answer α) × Ledger κ α
  | .intern offer =>
    match ledger.held.lookup (desk.key offer) with
    | some handle =>
      (some (.given handle), { ledger with held := (desk.key offer, handle) :: ledger.held })
    | none =>
      let handle := ⟨ledger.made, desk.value offer⟩
      (some (.given handle), ⟨(desk.key offer, handle) :: ledger.held, ledger.made + 1⟩)
  | .get key =>
    let found := ledger.held.lookup (desk.asked key)
    (some (.found found),
      { ledger with held := (found.map (Prod.mk (desk.asked key))).toList ++ ledger.held })
  | .drop place => (none, { ledger with held := ledger.held.eraseIdx place })
  | .size => (some (.count ledger.held.keys.length), ledger)
  | .purge => (none, ledger)

/-- Two machines whose steps answer alike and keep a relation answer alike in every run. -/
theorem run_related {Related : σ → τ → Prop} {step : σ → ρ → Option ω × σ}
    {ideal : τ → ρ → Option ω × τ}
    (kept : ∀ state other request, Related state other →
      (step state request).1 = (ideal other request).1 ∧
        Related (step state request).2 (ideal other request).2)
    (requests : List ρ) {state : σ} {other : τ} (related : Related state other) :
    answers step state requests = answers ideal other requests ∧
      Related (reached step state requests) (reached ideal other requests) := by
  induction requests generalizing state other with
  | nil => exact ⟨rfl, related⟩
  | cons request rest ih =>
    obtain ⟨same, relatedNext⟩ := kept state other request related
    obtain ⟨sameRest, relatedLast⟩ := ih relatedNext
    refine ⟨?_, relatedLast⟩
    rw [answers, answers, same, sameRest]

section Book

variable [DecidableEq κ] {desk : Desk π ο γ κ α} {ledger : Ledger κ α}

/-- Purging is invisible: leaving it out changes no answer. -/
theorem answers_book_filter (requests : List (Request ο γ)) :
    answers desk.book ledger (requests.filter fun request => !request.isPurge) =
      answers desk.book ledger requests := by
  induction requests generalizing ledger with
  | nil => rfl
  | cons request rest ih =>
    cases request with
    | purge => exact ih
    | intern | get | drop | size => exact congrArg (_ ++ ·) ih

/-- A step lists nothing new but the handle of an offer. -/
theorem mem_book {request : Request ο γ} {entry : κ × Handle α}
    (member : entry ∈ (desk.book ledger request).2.held) :
    entry ∈ ledger.held ∨
      ∃ offer, request = .intern offer ∧ desk.key offer = entry.1 ∧
        desk.value offer = entry.2.value := by
  cases request with
  | intern offer =>
    rw [book] at member
    split at member
    case _ handle found =>
      rcases List.mem_cons.mp member with rfl | old
      · exact Or.inl (Entries.mem_of_lookup found)
      · exact Or.inl old
    case _ =>
      rcases List.mem_cons.mp member with rfl | old
      · exact Or.inr ⟨offer, rfl, rfl, rfl⟩
      · exact Or.inl old
  | get key =>
    rcases List.mem_append.mp member with new | old
    · obtain ⟨handle, found, rfl⟩ := Option.map_eq_some_iff.mp (Option.mem_toList.mp new)
      exact Or.inl (Entries.mem_of_lookup found)
    · exact Or.inl old
  | drop place => exact Or.inl (List.mem_of_mem_eraseIdx member)
  | size | purge => exact Or.inl member

/-- An entry that is held at the end was held at the start or stems from one of the requests. -/
theorem mem_reached_book (requests : List (Request ο γ)) {entry : κ × Handle α}
    (member : entry ∈ (reached desk.book ledger requests).held) :
    entry ∈ ledger.held ∨
      ∃ offer, .intern offer ∈ requests ∧ desk.key offer = entry.1 ∧
        desk.value offer = entry.2.value := by
  induction requests generalizing ledger with
  | nil => exact Or.inl member
  | cons request rest ih =>
    rcases ih member with early | ⟨offer, later, ofEntry⟩
    · rcases mem_book early with old | ⟨offer, rfl, ofEntry⟩
      · exact Or.inl old
      · exact Or.inr ⟨offer, List.mem_cons_self, ofEntry⟩
    · exact Or.inr ⟨offer, List.mem_cons_of_mem _ later, ofEntry⟩

end Book

/-- What a pool owes to its desk. Its entries may be dead ones too: interning and purging may forget
dead entries, and no others. -/
structure Lawful (desk : Desk π ο γ κ α) (Sound : π → Prop) (entries : π → Custody κ α)
    (next : π → Nat) : Prop where
  intact : ∀ {pool}, Sound pool → (entries pool).Intact (next pool)
  get : ∀ {pool}, Sound pool → ∀ alive key handle,
    desk.get? pool alive key = some handle ↔
      (desk.asked key, handle) ∈ entries pool ∧ alive handle.address = true
  size : ∀ pool alive,
    desk.size pool alive = (entries pool).countP (fun entry => alive entry.2.address)
  intern : ∀ {pool}, Sound pool → ∀ alive offer, Sound (desk.intern pool alive offer).2
  listed : ∀ {pool}, Sound pool → ∀ alive offer,
    (desk.key offer, (desk.intern pool alive offer).1) ∈ entries (desk.intern pool alive offer).2
  kept : ∀ {pool}, Sound pool → ∀ alive offer, ∀ entry ∈ entries pool,
    alive entry.2.address = true → entry ∈ entries (desk.intern pool alive offer).2
  cases : ∀ {pool}, Sound pool → ∀ alive offer,
    (∃ handle, (desk.key offer, handle) ∈ entries pool ∧ alive handle.address = true ∧
      (desk.intern pool alive offer).1 = handle ∧
        next (desk.intern pool alive offer).2 = next pool) ∨
    ((∀ handle, (desk.key offer, handle) ∈ entries pool → alive handle.address = false) ∧
      (desk.intern pool alive offer).1 = ⟨next pool, desk.value offer⟩ ∧
        next (desk.intern pool alive offer).2 = next pool + 1)
  purge : ∀ {pool}, Sound pool → ∀ alive, Sound (desk.purge pool alive)
  unforgotten : ∀ {pool}, Sound pool → ∀ alive, ∀ entry ∈ entries pool,
    alive entry.2.address = true → entry ∈ entries (desk.purge pool alive)
  unmade : ∀ pool alive, next (desk.purge pool alive) = next pool

/-- A session at a desk and the ledger that it keeps to. -/
structure Tracks (Sound : π → Prop) (entries : π → Custody κ α) (next : π → Nat)
    (session : Session π κ α) (ledger : Ledger κ α) : Prop where
  held : session.held = ledger.held
  made : next session.pool = ledger.made
  sound : Sound session.pool
  listed : session.held ⊆ entries session.pool

namespace Lawful

variable [DecidableEq κ] {desk : Desk π ο γ κ α} {Sound : π → Prop}
  {entries : π → Custody κ α} {next : π → Nat} {session : Session π κ α} {ledger : Ledger κ α}

section Session

variable (lawful : desk.Lawful Sound entries next) (sound : Sound session.pool)
  (listed : session.held ⊆ entries session.pool)

include lawful sound listed

theorem get_eq (key : γ) : desk.get? session.pool session.held.alive key =
    session.held.lookup (desk.asked key) := by
  have intact := lawful.intact sound
  refine Option.ext fun handle => ?_
  rw [lawful.get sound, intact.lookup_iff listed]
  constructor
  · exact fun ⟨member, live⟩ => (intact.alive_iff listed member).mp live
  · exact fun isHeld => ⟨listed isHeld, (intact.alive_iff listed (listed isHeld)).mpr isHeld⟩

theorem size_eq : desk.size session.pool session.held.alive = session.held.keys.length := by
  rw [lawful.size, (lawful.intact sound).countP_alive listed]

/-- Interning gives the held handle of the key, and makes a new one while none is held. -/
theorem intern_lookup (offer : ο) :
    (∃ handle, session.held.lookup (desk.key offer) = some handle ∧
      (desk.intern session.pool session.held.alive offer).1 = handle ∧
        next (desk.intern session.pool session.held.alive offer).2 = next session.pool) ∨
    (session.held.lookup (desk.key offer) = none ∧
      (desk.intern session.pool session.held.alive offer).1 =
          ⟨next session.pool, desk.value offer⟩ ∧
        next (desk.intern session.pool session.held.alive offer).2 = next session.pool + 1) := by
  have intact := lawful.intact sound
  rcases lawful.cases sound session.held.alive offer with
    ⟨handle, member, live, given, sameNext⟩ | ⟨dead, given, oneMore⟩
  · have isHeld := (intact.alive_iff listed member).mp live
    exact Or.inl ⟨handle, (intact.lookup_iff listed).mpr isHeld, given, sameNext⟩
  · refine Or.inr ⟨?_, given, oneMore⟩
    cases found : session.held.lookup (desk.key offer) with
    | none => rfl
    | some handle =>
      have isHeld := (intact.lookup_iff listed).mp found
      have live := (intact.alive_iff listed (listed isHeld)).mpr isHeld
      rw [dead handle (listed isHeld)] at live
      cases live

omit [DecidableEq κ] in
/-- What is interned is listed, and what was held stays listed. -/
theorem listed_after_intern (offer : ο) :
    (desk.key offer, (desk.intern session.pool session.held.alive offer).1) :: session.held ⊆
      entries (desk.intern session.pool session.held.alive offer).2 := by
  have intact := lawful.intact sound
  refine List.cons_subset.mpr ⟨lawful.listed sound _ offer, fun entry isHeld => ?_⟩
  exact lawful.kept sound _ offer entry (listed isHeld)
    ((intact.alive_iff listed (listed isHeld)).mpr isHeld)

theorem shares : desk.Shares session where
  once _ _ _ isOne isOther := (lawful.intact sound).held_once listed isOne isOther
  apart one isOne other isOther :=
    (lawful.intact sound).addresses one (listed isOne) other (listed isOther)
  again offer handle isHeld := by
    have found := ((lawful.intact sound).lookup_iff listed).mpr isHeld
    rcases lawful.intern_lookup sound listed offer with ⟨other, atKey, given, _⟩ | ⟨missing, _⟩
    · exact given.trans (Option.some.inj (atKey.symm.trans found))
    · exact absurd (missing.symm.trans found) nofun
  anew offer unheld := by
    rcases lawful.intern_lookup sound listed offer with ⟨other, atKey, _⟩ | ⟨_, given, _⟩
    · exact absurd (((lawful.intact sound).lookup_iff listed).mp atKey) (unheld other)
    · rw [given]
      refine ⟨rfl, Bool.eq_false_iff.mpr fun live => ?_⟩
      obtain ⟨entry, isHeld, same⟩ := Custody.alive_iff.mp live
      exact Nat.ne_of_lt ((lawful.intact sound).fresh entry (listed isHeld)) same
  get key handle := by
    rw [lawful.get_eq sound listed, (lawful.intact sound).lookup_iff listed]
  size := lawful.size_eq sound listed

end Session

/-- Every request is answered as the ledger has it, and the pool keeps listing what is held. -/
theorem serve_tracks (lawful : desk.Lawful Sound entries next) (session : Session π κ α)
    (ledger : Ledger κ α) (request : Request ο γ)
    (tracks : Tracks Sound entries next session ledger) :
    (desk.serve session request).1 = (desk.book ledger request).1 ∧
      Tracks Sound entries next (desk.serve session request).2 (desk.book ledger request).2 := by
  obtain ⟨pool, held⟩ := session
  obtain ⟨_, made⟩ := ledger
  obtain ⟨rfl, rfl, sound, listed⟩ := tracks
  cases request with
  | intern offer =>
    have listedAfter := lawful.listed_after_intern sound listed offer
    have soundAfter := lawful.intern sound held.alive offer
    rcases lawful.intern_lookup sound listed offer with
      ⟨handle, found, rfl, sameNext⟩ | ⟨missing, given, oneMore⟩
    · simp only [serve, book, found, true_and]
      exact ⟨rfl, sameNext, soundAfter, listedAfter⟩
    · simp only [serve, book, missing, given, true_and] at listedAfter ⊢
      exact ⟨rfl, oneMore, soundAfter, listedAfter⟩
  | get key =>
    have found := lawful.get_eq sound listed key
    simp only [serve, book, found, true_and]
    refine ⟨rfl, rfl, sound, List.append_subset.mpr ⟨fun entry new => ?_, listed⟩⟩
    obtain ⟨handle, atKey, rfl⟩ := Option.map_eq_some_iff.mp (Option.mem_toList.mp new)
    exact listed (((lawful.intact sound).lookup_iff listed).mp atKey)
  | drop place =>
    exact ⟨rfl, rfl, rfl, sound, fun entry left => listed (List.mem_of_mem_eraseIdx left)⟩
  | size =>
    have counted := lawful.size_eq sound listed
    simp only [serve, book, counted, true_and]
    exact ⟨rfl, rfl, sound, listed⟩
  | purge =>
    refine ⟨rfl, rfl, lawful.unmade pool _, lawful.purge sound _, fun entry isHeld => ?_⟩
    exact lawful.unforgotten sound _ entry (listed isHeld)
      (((lawful.intact sound).alive_iff listed (listed isHeld)).mpr isHeld)

theorem faithful (lawful : desk.Lawful Sound entries next) {pool : π} (sound : Sound pool) :
    desk.Faithful pool := by
  have start : Tracks Sound entries next ⟨pool, []⟩ ⟨[], next pool⟩ :=
    ⟨rfl, rfl, sound, List.nil_subset _⟩
  have run := fun requests => run_related lawful.serve_tracks requests start
  refine ⟨fun requests => ?_, fun requests entry isHeld => ?_, fun requests => ?_⟩
  · exact lawful.shares (run requests).2.sound (run requests).2.listed
  · rw [(run requests).2.held] at isHeld
    rcases mem_reached_book requests isHeld with noneBefore | offered
    · cases noneBefore
    · exact offered
  · rw [(run requests).1, (run _).1, answers_book_filter]

end Lawful

end Desk

end StyleCascade
