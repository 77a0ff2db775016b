import StyleCascade.Entries
import StyleCascade.Intern.Handle

namespace StyleCascade

/-- A pool of values that are asked for by key. It keeps nothing alive: which addresses are held is
told by the caller, and an entry that nobody holds counts as absent. -/
structure Pool (κ α : Type) where
  entries : Entries κ (Handle α)
  /-- The address of the next value. -/
  next : Nat

namespace Pool

variable {κ α : Type}

/-- The pool that has given nothing out. -/
def empty : Pool κ α :=
  ⟨[], 0⟩

/-- The handle for a key, if somebody holds it. -/
def get? [BEq κ] (pool : Pool κ α) (alive : Alive) (key : κ) : Option (Handle α) :=
  (pool.entries.lookup key).filter (fun handle => alive handle.address)

/-- Makes a new value for a key. -/
def make [BEq κ] (pool : Pool κ α) (key : κ) (value : α) : Handle α × Pool κ α :=
  let handle := ⟨pool.next, value⟩
  (handle, ⟨Entries.put key handle pool.entries, pool.next + 1⟩)

/-- The handle for a key. If nobody holds one, `value` is made into one. -/
def intern [BEq κ] (pool : Pool κ α) (alive : Alive) (key : κ) (value : α) :
    Handle α × Pool κ α :=
  match pool.get? alive key with
  | some handle => (handle, pool)
  | none => pool.make key value

/-- The number of entries that somebody holds. -/
def size (pool : Pool κ α) (alive : Alive) : Nat :=
  pool.entries.countP (fun entry => alive entry.2.address)

/-- Forgets the entries that nobody holds. -/
def purge (pool : Pool κ α) (alive : Alive) : Pool κ α :=
  { pool with entries := pool.entries.filter (fun entry => alive entry.2.address) }

end Pool

/-- A pool of values that are asked for by what they are. They are kept by hash. -/
structure ValuePool (α : Type) where
  hash : α → Nat
  buckets : Entries Nat (List (Handle α))
  /-- The address of the next value. -/
  next : Nat

namespace ValuePool

variable {α : Type}

/-- The pool that has given nothing out. -/
def empty (hash : α → Nat) : ValuePool α :=
  ⟨hash, [], 0⟩

/-- The handles with a hash that somebody holds. -/
def bucket (pool : ValuePool α) (alive : Alive) (code : Nat) : List (Handle α) :=
  ((pool.buckets.lookup code).getD []).filter (fun handle => alive handle.address)

/-- The handle for a value. If nobody holds one, a new one is made. -/
def intern [DecidableEq α] (pool : ValuePool α) (alive : Alive) (value : α) :
    Handle α × ValuePool α :=
  let code := pool.hash value
  let bucket := pool.bucket alive code
  match bucket.find? (fun handle => handle.value = value) with
  | some handle => (handle, { pool with buckets := Entries.put code bucket pool.buckets })
  | none =>
    let handle := ⟨pool.next, value⟩
    (handle,
      { pool with
        buckets := Entries.put code (bucket ++ [handle]) pool.buckets
        next := pool.next + 1 })

/-- All handles of the pool, held or not. -/
def handles (pool : ValuePool α) : List (Handle α) :=
  pool.buckets.flatMap Prod.snd

/-- The number of values that somebody holds. -/
def size (pool : ValuePool α) (alive : Alive) : Nat :=
  pool.handles.countP (fun handle => alive handle.address)

/-- Forgets the values that nobody holds. -/
def purge (pool : ValuePool α) (alive : Alive) : ValuePool α :=
  { pool with
    buckets := (pool.buckets.map (fun (code, handles) =>
      (code, handles.filter (fun handle => alive handle.address)))).filter
        (fun entry => !entry.2.isEmpty) }

end ValuePool

end StyleCascade
