namespace StyleCascade

/-- A shared value, with the address that it was given when it was made. Who holds equal handles
shares one value. -/
structure Handle (α : Type) where
  address : Nat
  value : α
  deriving DecidableEq, Repr

/-- The addresses that somebody holds. -/
abbrev Alive := Nat → Bool

/-- The addresses of handles that are held. -/
def Handle.alive {α : Type} (held : List (Handle α)) : Alive :=
  fun address => held.any (fun handle => handle.address == address)

end StyleCascade
